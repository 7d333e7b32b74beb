import Mathlib.Logic.Basic

/-!
# Outcomes of kernel code

A call of kernel code ends in one of four ways: it returns a value, it
returns an error through `Result`, it PANICS (the kernel is built with
`panic = "abort"`, so nothing runs after it), or it does something the
language leaves undefined, such as reading memory outside the slice it
was given, which is a FAULT here. `Outcome ε α` names the four, and is a
monad in which an error, a panic and a fault all stop the computation.

The lemmas are the ones a proof about such code peels binds with:
`bind_eq_ok` for a whole computation that returned a value, and the
simp lemmas for each way a first step can end.
-/

namespace OspabOs

/-- How a call of kernel code ends. -/
inductive Outcome (ε α : Type) where
  | ok (value : α)
  | err (error : ε)
  | panic
  | fault
  deriving DecidableEq, Repr

namespace Outcome

variable {ε α β γ : Type}

/-- Run `f` on the value, if there is one. -/
def bind : Outcome ε α → (α → Outcome ε β) → Outcome ε β
  | ok a, f => f a
  | err e, _ => err e
  | panic, _ => panic
  | fault, _ => fault

instance : Monad (Outcome ε) where
  pure := ok
  bind := bind

/-- `Result` as it comes back from a callee. -/
def ofExcept : Except ε α → Outcome ε α
  | .ok a => ok a
  | .error e => err e

/-- The call neither panicked nor faulted. -/
def Safe : Outcome ε α → Prop
  | ok _ => True
  | err _ => True
  | panic => False
  | fault => False

instance : DecidablePred (Safe (ε := ε) (α := α)) := fun
  | ok _ => isTrue trivial
  | err _ => isTrue trivial
  | panic => isFalse id
  | fault => isFalse id

@[simp] theorem pure_eq_ok (a : α) : (pure a : Outcome ε α) = ok a := rfl

@[simp] theorem bind_eq (x : Outcome ε α) (f : α → Outcome ε β) : x >>= f = x.bind f := rfl

@[simp] theorem ok_bind (a : α) (f : α → Outcome ε β) : (ok a).bind f = f a := rfl

@[simp] theorem err_bind (e : ε) (f : α → Outcome ε β) : (err e).bind f = err e := rfl

@[simp] theorem panic_bind (f : α → Outcome ε β) : (panic : Outcome ε α).bind f = panic := rfl

@[simp] theorem fault_bind (f : α → Outcome ε β) : (fault : Outcome ε α).bind f = fault := rfl

theorem bind_assoc (x : Outcome ε α) (f : α → Outcome ε β) (g : β → Outcome ε γ) :
    (x.bind f).bind g = x.bind fun a => (f a).bind g := by
  cases x <;> rfl

/-- A computation returned a value only if its first step did and the rest
returned it from there. -/
theorem bind_eq_ok {x : Outcome ε α} {f : α → Outcome ε β} {b : β} :
    x.bind f = ok b ↔ ∃ a, x = ok a ∧ f a = ok b := by
  cases x with
  | ok a => simp
  | err e => simp
  | panic => simp
  | fault => simp

/-- A computation panicked if its first step did or the rest did. -/
theorem bind_eq_panic {x : Outcome ε α} {f : α → Outcome ε β} :
    x.bind f = panic ↔ x = panic ∨ ∃ a, x = ok a ∧ f a = panic := by
  cases x with
  | ok a => simp
  | err e => simp
  | panic => simp
  | fault => simp

/-- `for _ in 0..n { f(&mut a) }`: `f` run `n` times, stopping at the first
run that does not return. -/
def iterate (f : α → Outcome ε α) : Nat → α → Outcome ε α
  | 0, a => ok a
  | n + 1, a => (f a).bind (iterate f n)

/-- What every returning run of `f` keeps, `n` runs keep. -/
theorem iterate_invariant (P : α → Prop) {f : α → Outcome ε α}
    (preserved : ∀ a b, P a → f a = ok b → P b) :
    ∀ (n : Nat) {a b : α}, P a → iterate f n a = ok b → P b := by
  intro n
  induction n with
  | zero =>
    intro a b holds ran
    cases ran
    exact holds
  | succ n ih =>
    intro a b holds ran
    obtain ⟨mid, first, rest⟩ := bind_eq_ok.mp ran
    exact ih (preserved a mid holds first) rest

@[simp] theorem safe_ok (a : α) : Safe (ok a : Outcome ε α) := trivial

@[simp] theorem safe_err (e : ε) : Safe (err e : Outcome ε α) := trivial

@[simp] theorem not_safe_panic : ¬ Safe (panic : Outcome ε α) := id

@[simp] theorem not_safe_fault : ¬ Safe (fault : Outcome ε α) := id

/-- The call did not panic, and `P` holds of what it returned. An error or
a fault may end it: this is what a proof that code never panics carries. -/
def NoPanic (P : α → Prop) : Outcome ε α → Prop
  | ok a => P a
  | err _ => True
  | panic => False
  | fault => True

@[simp] theorem noPanic_ok {P : α → Prop} (a : α) : (ok a : Outcome ε α).NoPanic P ↔ P a := Iff.rfl

@[simp] theorem noPanic_fault {P : α → Prop} : (fault : Outcome ε α).NoPanic P := trivial

theorem NoPanic.ne_panic {P : α → Prop} {x : Outcome ε α} (holds : x.NoPanic P) : x ≠ panic := by
  rintro rfl
  exact holds

/-- A computation does not panic when its first step does not and nothing
it goes on with from there does. -/
theorem NoPanic.bind {P : α → Prop} {Q : β → Prop} {x : Outcome ε α} {f : α → Outcome ε β}
    (first : x.NoPanic P) (rest : ∀ a, P a → (f a).NoPanic Q) : (x.bind f).NoPanic Q := by
  cases x with
  | ok a => exact rest a first
  | err e => trivial
  | panic => exact first.elim
  | fault => trivial

end Outcome

end OspabOs
