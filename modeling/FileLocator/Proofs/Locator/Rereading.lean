import FileLocator.Proofs.Locator.Reading
import FileLocator.Proofs.Url.Again

/-! # The text of a locator can be read

What stands behind a scheme and its colon decides whether there is a locator, once it is cleaned
(`exists_parse_behind_iff`). The text of every locator that comes up can be read again (`Reachable.exists_rereads`),
also that of a URL in its normal form, which may be read as another URL.
-/

namespace FileLocator

open Text (Neat NeatBehind cleanBehind)
open Url.Scheme (IsProper)

namespace Locator

theorem clean_behind {scheme : Text} (proper : IsProper scheme) (behind : Text) :
    Text.clean (scheme ++ ':' :: behind) = scheme ++ ':' :: cleanBehind behind := by
  have front := Text.clean_append proper.neat_lead (by simp) behind
  rwa [List.append_assoc, List.append_assoc] at front

theorem parse_behind_eq_ok_iff {scheme behind : Text} (proper : IsProper scheme) {locator : Locator} :
    parse (scheme ++ ':' :: behind) = .ok locator ↔
      Url.parseBehind scheme (cleanBehind behind) = .ok locator.url ∧
        locator.text = scheme ++ ':' :: cleanBehind behind := by
  have neat : Neat (scheme ++ ':' :: cleanBehind behind) := by
    rw [← clean_behind proper]
    exact Text.neat_clean _
  rw [parse_eq_ok_iff, clean_behind proper, Url.parse_of_isProper proper neat]
  refine and_congr_right fun read => ?_
  have same : locator.url.scheme = scheme := (Url.parts_of_parseBehind read).1
  rw [keep_append (same.trans proper.lower.symm), same]

theorem exists_parse_behind_iff {scheme behind : Text} (proper : IsProper scheme) :
    (∃ locator, parse (scheme ++ ':' :: behind) = .ok locator) ↔ Url.Readable scheme (cleanBehind behind) := by
  constructor
  · rintro ⟨locator, read⟩
    exact ⟨_, ((parse_behind_eq_ok_iff proper).mp read).1⟩
  · rintro ⟨url, read⟩
    exact ⟨⟨_, url⟩, (parse_behind_eq_ok_iff proper).mpr ⟨read, rfl⟩⟩

/-- A locator whose text can be read again, with the text behind its scheme. -/
structure Rereads (locator : Locator) (rest : Text) : Prop where
  proper : IsProper locator.scheme
  text : locator.text = locator.scheme ++ ':' :: rest
  neat : NeatBehind rest
  readable : Url.Readable locator.scheme rest

theorem rereads_of_parse_behind {scheme behind : Text} (proper : IsProper scheme) {locator : Locator}
    (read : parse (scheme ++ ':' :: behind) = .ok locator) :
    locator.scheme = scheme ∧ locator.Rereads (cleanBehind behind) := by
  obtain ⟨found, text⟩ := (parse_behind_eq_ok_iff proper).mp read
  have same : locator.scheme = scheme := (Url.parts_of_parseBehind found).1
  subst same
  exact ⟨rfl, proper, text, Text.neatBehind_cleanBehind behind, _, found⟩

/-- Every locator that comes up can be read again from its text. -/
theorem Reachable.exists_rereads {locator : Locator} (reachable : Reachable Url.IsRead locator) :
    ∃ rest, locator.Rereads rest := by
  rcases reachable.origin with ⟨written, read⟩ | ⟨url, read, rfl⟩
  · obtain ⟨name, rest, -, -, valid, scheme, text⟩ := text_of_parse read
    have proper : IsProper locator.scheme := by
      rw [scheme]
      exact valid.isProper_map_toLower
    have again := parse_text_of_parse read
    rw [text] at again
    exact ⟨_, (rereads_of_parse_behind proper again).2⟩
  · obtain ⟨written, found⟩ := read
    have proper := Url.isProper_of_parse found
    have neat := Url.neat_href found
    rw [Url.href_eq] at neat
    refine ⟨_, proper, Url.href_eq url, ?_, Url.IsRead.readable ⟨written, found⟩⟩
    exact neat.neatBehind.of_append.of_cons

end Locator

end FileLocator
