import Mathlib.Data.List.Basic

/-!
# Deterministic machines fed a list of inputs

A machine here is nothing but a step function `step : σ → ι → σ`. A run
feeds it inputs one at a time from a start state, which is `List.foldl`
and is used under that name. `Reachable step s₀` is the set of states
some run from `s₀` ends in, given as an inductive relation so that a
proof about every reachable state is an induction with one case per
step.

Two rules carry every run result built on this module:

- `Reachable.invariant`: a property of the start state that every step
  keeps holds of every reachable state;
- `foldl_simulation`: a relation between a concrete and an abstract
  machine that every step keeps (fed the same input) relates their runs.

Runs whose inputs are restricted, by the input alone or by the state it
meets (`Allowed`), have invariant rules of their own. A step that can fail
runs as `List.foldlM` in `Option`, and `foldlM_simulation` relates such a run
to one of a machine that cannot fail.

Nothing here names the system a machine models.
-/

namespace OspabOs.Machine

variable {σ τ ι : Type}

/-- The states some run of `step` from `s₀` ends in. -/
inductive Reachable (step : σ → ι → σ) (s₀ : σ) : σ → Prop
  | start : Reachable step s₀ s₀
  | step {s : σ} (i : ι) : Reachable step s₀ s → Reachable step s₀ (step s i)

variable {step : σ → ι → σ} {s₀ : σ}

/-- Feeding more inputs to a reachable state stays reachable. -/
theorem Reachable.foldl {s : σ} (reach : Reachable step s₀ s) (inputs : List ι) :
    Reachable step s₀ (inputs.foldl step s) := by
  induction inputs generalizing s with
  | nil => exact reach
  | cons i rest ih => exact ih (.step i reach)

/-- Every run from the start ends in a reachable state. -/
theorem reachable_foldl (inputs : List ι) : Reachable step s₀ (inputs.foldl step s₀) :=
  Reachable.start.foldl inputs

/-- A reachable state is where some run ends. -/
theorem Reachable.exists_foldl {s : σ} (reach : Reachable step s₀ s) :
    ∃ inputs : List ι, inputs.foldl step s₀ = s := by
  induction reach with
  | start => exact ⟨[], rfl⟩
  | step i _ ih =>
    obtain ⟨inputs, run⟩ := ih
    exact ⟨inputs ++ [i], by rw [List.foldl_append, run]; rfl⟩

theorem reachable_iff_exists_foldl {s : σ} :
    Reachable step s₀ s ↔ ∃ inputs : List ι, inputs.foldl step s₀ = s :=
  ⟨Reachable.exists_foldl, fun ⟨inputs, run⟩ => run ▸ reachable_foldl inputs⟩

/-- THE INVARIANT RULE: what holds at the start and survives every step
holds at every reachable state. -/
theorem Reachable.invariant (P : σ → Prop) (start : P s₀)
    (preserved : ∀ s i, P s → P (step s i)) {s : σ} (reach : Reachable step s₀ s) : P s := by
  induction reach with
  | start => exact start
  | step i _ ih => exact preserved _ i ih

/-- The invariant rule for one run. -/
theorem foldl_invariant (P : σ → Prop) (preserved : ∀ s i, P s → P (step s i))
    {s : σ} (holds : P s) (inputs : List ι) : P (inputs.foldl step s) := by
  induction inputs generalizing s with
  | nil => exact holds
  | cons i rest ih => exact ih (preserved s i holds)

/-- The invariant rule for runs whose inputs all pass a guard: the step
need only keep the property on guarded inputs. -/
theorem foldl_invariant_of_forall (P : σ → Prop) (Guard : ι → Prop)
    (preserved : ∀ s i, Guard i → P s → P (step s i)) {s : σ} (holds : P s) (inputs : List ι)
    (guarded : ∀ i ∈ inputs, Guard i) : P (inputs.foldl step s) := by
  induction inputs generalizing s with
  | nil => exact holds
  | cons i rest ih =>
    have first : Guard i := guarded i (List.mem_cons_self ..)
    exact ih (preserved s i first holds) fun j mem => guarded j (List.mem_cons_of_mem i mem)

/-- Every input of a run passes `Guard` in the state it meets. -/
def Allowed (step : σ → ι → σ) (Guard : σ → ι → Prop) : σ → List ι → Prop
  | _, [] => True
  | s, i :: rest => Guard s i ∧ Allowed step Guard (step s i) rest

/-- The invariant rule for runs whose inputs each pass a guard in the
state they meet: the step need only keep the property on those. -/
theorem foldl_invariant_of_allowed (P : σ → Prop) (Guard : σ → ι → Prop)
    (preserved : ∀ s i, Guard s i → P s → P (step s i)) {s : σ} (holds : P s) (inputs : List ι)
    (allowed : Allowed step Guard s inputs) : P (inputs.foldl step s) := by
  induction inputs generalizing s with
  | nil => exact holds
  | cons i rest ih =>
    obtain ⟨first, later⟩ := allowed
    exact ih (preserved s i first holds) later

/-- THE SIMULATION RULE: a relation that every step keeps, the two
machines fed the same input, relates the ends of their runs. -/
theorem foldl_simulation {conc : σ → ι → σ} {abs : τ → ι → τ} (R : σ → τ → Prop)
    (preserved : ∀ s t i, R s t → R (conc s i) (abs t i))
    {s : σ} {t : τ} (related : R s t) (inputs : List ι) :
    R (inputs.foldl conc s) (inputs.foldl abs t) := by
  induction inputs generalizing s t with
  | nil => exact related
  | cons i rest ih => exact ih (preserved s t i related)

/-! ## Machines whose step can fail

A step `conc : σ → ι → Option σ` stops the run at its first `none`,
which is `List.foldlM` in `Option`. -/

/-- THE SIMULATION RULE for a machine whose step can fail, against one
whose step cannot: if from related states the concrete step succeeds and
stays related to the abstract step, every concrete run succeeds and ends
related to the abstract run. -/
theorem foldlM_simulation {conc : σ → ι → Option σ} {abs : τ → ι → τ} (R : σ → τ → Prop)
    (preserved : ∀ s t i, R s t → ∃ s', conc s i = some s' ∧ R s' (abs t i))
    {s : σ} {t : τ} (related : R s t) (inputs : List ι) :
    ∃ s', inputs.foldlM conc s = some s' ∧ R s' (inputs.foldl abs t) := by
  induction inputs generalizing s t with
  | nil => exact ⟨s, rfl, related⟩
  | cons i rest ih =>
    obtain ⟨mid, first, midRelated⟩ := preserved s t i related
    obtain ⟨last, later, lastRelated⟩ := ih midRelated
    refine ⟨last, ?_, lastRelated⟩
    rw [List.foldlM_cons, first]
    exact later

end OspabOs.Machine
