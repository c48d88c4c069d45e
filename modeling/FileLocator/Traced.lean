import FileLocator.Probe
import FileLocator.Record

/-! # Conversions with a trace

A conversion is a function that also says which questions it asked and what it has to report. Both are
kept in order, and composing conversions appends them.
-/

namespace FileLocator

@[ext] structure Traced (α : Type) where
  value : α
  questions : List Question
  records : List Record

namespace Traced

variable {α β : Type}

instance : Monad Traced where
  pure value := { value, questions := [], records := [] }
  bind first next :=
    let second := next first.value
    { value := second.value
      questions := first.questions ++ second.questions
      records := first.records ++ second.records }

/-- Ask a probe. -/
def ask (probe : Probe) (question : Question) : Traced Bool :=
  { value := probe.answer question, questions := [question], records := [] }

/-- Report. -/
def report (record : Record) : Traced Unit := { value := (), questions := [], records := [record] }

@[simp] theorem value_pure (a : α) : (pure a : Traced α).value = a := rfl

@[simp] theorem questions_pure (a : α) : (pure a : Traced α).questions = [] := rfl

@[simp] theorem records_pure (a : α) : (pure a : Traced α).records = [] := rfl

@[simp] theorem value_bind (first : Traced α) (next : α → Traced β) :
    (first >>= next).value = (next first.value).value := rfl

@[simp] theorem questions_bind (first : Traced α) (next : α → Traced β) :
    (first >>= next).questions = first.questions ++ (next first.value).questions := rfl

@[simp] theorem records_bind (first : Traced α) (next : α → Traced β) :
    (first >>= next).records = first.records ++ (next first.value).records := rfl

@[simp] theorem value_ask (probe : Probe) (question : Question) :
    (ask probe question).value = probe.answer question := rfl

@[simp] theorem questions_ask (probe : Probe) (question : Question) :
    (ask probe question).questions = [question] := rfl

@[simp] theorem records_ask (probe : Probe) (question : Question) : (ask probe question).records = [] := rfl

@[simp] theorem questions_report (record : Record) : (report record).questions = [] := rfl

@[simp] theorem records_report (record : Record) : (report record).records = [record] := rfl

instance : LawfulMonad Traced :=
  LawfulMonad.mk' Traced (fun _ => by ext1 <;> simp [Functor.map]) (fun _ _ => by ext1 <;> simp)
    (fun _ _ _ => by ext1 <;> simp)

end Traced

end FileLocator
