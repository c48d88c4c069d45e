import FileLocator.Text.Basic

/-! # Punycode

The ASCII form of a label that has other characters: the ASCII characters first, then, behind a
hyphen, where each other character goes. Code points are inserted in increasing order, and each
insertion is a distance from the one before, written in digits of base 36 whose weights follow the
distances seen so far. Reading goes the same way back; it may read what no label is written as.
-/

namespace FileLocator.Url.Punycode

def digit (n : Nat) : Char := if n < 26 then Char.ofNat (97 + n) else Char.ofNat (22 + n)

/-- The least value of a digit that more digits follow. -/
def threshold (position bias : Nat) : Nat := max 1 (min 26 (position - bias))

/-- A distance in digits, the first of which has weight `position`. -/
def distance (position bias value : Nat) : Text :=
  let least := threshold position bias
  if value < least then [digit value]
  else
    digit (least + (value - least) % (36 - least)) ::
      distance (position + 36) bias ((value - least) / (36 - least))
termination_by value
decreasing_by
  have smaller := Nat.div_le_self (value - threshold position bias) (36 - threshold position bias)
  have positive : 1 ≤ threshold position bias := Nat.le_max_left ..
  omega

/-- How often a distance has to be divided by 35 to come below 456, and what is left. -/
def settle (value : Nat) : Nat × Nat :=
  if 455 < value then
    let (count, rest) := settle (value / 35)
    (count + 1, rest)
  else (0, value)
termination_by value
decreasing_by exact Nat.div_lt_self (by omega) (by omega)

/-- The bias for the next distance, when `value` was the last one and `count` characters stand. -/
def adapt (first : Bool) (value count : Nat) : Nat :=
  let damped := if first then value / 700 else value / 2
  let (steps, rest) := settle (damped + damped / count)
  36 * steps + 36 * rest / (rest + 38)

/-- Distances in digits, when `placed` characters stand before the first of them. -/
def writeDistances (first : Bool) (bias placed : Nat) : List Nat → Text
  | [] => []
  | value :: rest =>
    distance 36 bias value ++ writeDistances false (adapt first value (placed + 1)) (placed + 1) rest

/-- The distances to the occurrences of the code point `point` in a label, the first of which counts
from `waiting`, and the distance from the last one to the end. Smaller code points are in place and
count, larger ones are not there yet. -/
def occurrences (point waiting : Nat) : Text → List Nat × Nat
  | [] => ([], waiting)
  | c :: rest =>
    if c.toNat < point then occurrences point (waiting + 1) rest
    else if c.toNat = point then
      let (others, left) := occurrences point 0 rest
      (waiting :: others, left)
    else occurrences point waiting rest

/-- The distances between all insertions into a label, by code points that increase from `least`. A code
point that is passed over counts once for every place where it could have stood. -/
def distances (label : Text) (least waiting : Nat) : List Nat → List Nat
  | [] => []
  | point :: points =>
    let places := (label.filter fun c => c.toNat < point).length + 1
    let (here, left) := occurrences point (waiting + (point - least) * places) label
    here ++ distances label (point + 1) (left + 1) points

/-- The ASCII form of a label, without the mark that says so. -/
def encode (label : Text) : Text :=
  let basic := label.filter fun c => c.toNat < 128
  let points := ((label.map Char.toNat).filter (128 ≤ ·)).mergeSort.eraseDups
  (if basic = [] then [] else basic ++ ['-']) ++
    writeDistances true 72 basic.length (distances label 128 0 points)

/-! ## Reading -/

/-- The number that a digit stands for. -/
def digit? (c : Char) : Option Nat :=
  if 'a' ≤ c ∧ c ≤ 'z' then some (c.toNat - 97)
  else if '0' ≤ c ∧ c ≤ '9' then some (c.toNat - 22)
  else none

/-- The distances in digits, when `placed` characters stand before the first of them. The digits of a distance that
were read so far make `value`, and the next one counts `weight` times. -/
def readDistances (first : Bool) (bias placed position weight value : Nat) : Text → Option (List Nat)
  | [] => if position = 36 then some [] else none
  | c :: rest => do
    let digit ← digit? c
    let least := threshold position bias
    let value := value + digit * weight
    if digit < least then
      let others ← readDistances false (adapt first value (placed + 1)) (placed + 1) 36 1 0 rest
      return value :: others
    else readDistances first bias placed (position + 36) (weight * (36 - least)) value rest

/-- Insert a character at each distance; the code point `point` is the next one to be tried at `place`. -/
def insert? (label : Text) (point place : Nat) : List Nat → Option Text
  | [] => some label
  | distance :: rest =>
    let places := label.length + 1
    let point := point + (place + distance) / places
    let place := (place + distance) % places
    if point.isValidChar then insert? (label.insertIdx place (Char.ofNat point)) point (place + 1) rest
    else none

/-- The label that an ASCII form, without the mark that says so, is read as. -/
def decode? (form : Text) : Option Text := do
  let (basic, digits) := (Text.cutLast? '-' form).getD ([], form)
  let values ← readDistances true 72 basic.length 36 1 0 digits
  insert? basic 128 0 values

end FileLocator.Url.Punycode
