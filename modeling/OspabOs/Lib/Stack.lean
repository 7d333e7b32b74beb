import Mathlib

/-!
# Frames of saved registers

A machine whose registers hold 64-bit words and whose memory holds a word at
every address, with one register as the stack pointer. `push sp r` moves the
stack pointer down a word and stores `r` there; `pop sp r` loads the word at
the stack pointer into `r` and moves it up a word. `pushAll` and `popAll` are
runs of them, as an assembly prologue and epilogue write them one register
a line.

Addresses are compared through `toNat`, with the run's room on the stack as a
premise, so that no slot wraps around the address space.

**The laws.** After `pushAll sp rs`, the word `8 * (i + 1)` below the old
stack pointer holds register `rs[i]` as it was (`mem_pushAll`), no other
register has moved (`regs_pushAll_of_ne`) and no other word has changed
(`mem_pushAll_of_ne`). From any state whose stack pointer and saved words
are those `pushAll sp rs` left, `popAll sp rs.reverse` gives every register of
`rs` and the stack pointer back (`popAll_reverse_of_pushAll`), when the
registers are distinct and the stack pointer is not one of them.

Nothing here names the machine whose stack it is.
-/

namespace OspabOs.Stack

/-- Registers named by `ρ`, and a memory of words. -/
structure Core (ρ : Type) where
  regs : ρ → UInt64
  mem : UInt64 → UInt64

variable {ρ : Type} [DecidableEq ρ]

/-- `push r`: the stack pointer moves down a word and `r`, as it was, is stored there. -/
def push (sp r : ρ) (s : Core ρ) : Core ρ where
  regs := Function.update s.regs sp (s.regs sp - 8)
  mem := Function.update s.mem (s.regs sp - 8) (s.regs r)

/-- `pop r`: the word at the stack pointer goes to `r` and the stack pointer
moves up a word. -/
def pop (sp r : ρ) (s : Core ρ) : Core ρ where
  regs := Function.update (Function.update s.regs sp (s.regs sp + 8)) r (s.mem (s.regs sp))
  mem := s.mem

/-- `push` of each register in turn. -/
def pushAll (sp : ρ) (rs : List ρ) (s : Core ρ) : Core ρ :=
  rs.foldl (fun s r => push sp r s) s

/-- `pop` into each register in turn. -/
def popAll (sp : ρ) (rs : List ρ) (s : Core ρ) : Core ρ :=
  rs.foldl (fun s r => pop sp r s) s

variable {sp r : ρ} {rs : List ρ} {s : Core ρ}

/-! ## One push, one pop -/

@[simp] theorem regs_push_of_ne {r' : ρ} (ne : r' ≠ sp) : (push sp r s).regs r' = s.regs r' :=
  Function.update_of_ne ne _ _

@[simp] theorem regs_push_self : (push sp r s).regs sp = s.regs sp - 8 :=
  Function.update_self _ _ _

theorem toNat_sub_eight {a : UInt64} (room : 8 ≤ a.toNat) : (a - 8).toNat = a.toNat - 8 :=
  UInt64.toNat_sub_of_le _ _ (UInt64.le_iff_toNat_le.mpr room)

theorem mem_push_of_toNat_ne {a : UInt64} (room : 8 ≤ (s.regs sp).toNat) (ne : a.toNat + 8 ≠ (s.regs sp).toNat) :
    (push sp r s).mem a = s.mem a := by
  apply Function.update_of_ne
  intro same
  rw [same, toNat_sub_eight room] at ne
  omega

theorem mem_push_of_toNat_eq {a : UInt64} (room : 8 ≤ (s.regs sp).toNat) (eq : a.toNat + 8 = (s.regs sp).toNat) :
    (push sp r s).mem a = s.regs r := by
  have same : a = s.regs sp - 8 := UInt64.toNat_inj.mp (by rw [toNat_sub_eight room]; omega)
  rw [same]
  exact Function.update_self _ _ _

@[simp] theorem mem_pop : (pop sp r s).mem = s.mem := rfl

@[simp] theorem regs_pop_self : (pop sp r s).regs r = s.mem (s.regs sp) :=
  Function.update_self _ _ _

@[simp] theorem regs_pop_sp (ne : r ≠ sp) : (pop sp r s).regs sp = s.regs sp + 8 := by
  dsimp only [pop]
  rw [Function.update_of_ne ne.symm, Function.update_self]

@[simp] theorem regs_pop_of_ne {r' : ρ} (ne : r' ≠ r) (ne' : r' ≠ sp) : (pop sp r s).regs r' = s.regs r' := by
  dsimp only [pop]
  rw [Function.update_of_ne ne, Function.update_of_ne ne']

/-! ## Runs of pushes -/

theorem pushAll_cons : pushAll sp (r :: rs) s = pushAll sp rs (push sp r s) := rfl

theorem popAll_cons : popAll sp (r :: rs) s = popAll sp rs (pop sp r s) := rfl

theorem regs_pushAll_of_ne {r' : ρ} (ne : r' ≠ sp) : (pushAll sp rs s).regs r' = s.regs r' := by
  induction rs generalizing s with
  | nil => rfl
  | cons r rs ih => rw [pushAll_cons, ih, regs_push_of_ne ne]

/-- The stack pointer after `pushAll` is a word lower for each register. -/
theorem toNat_regs_pushAll (room : 8 * rs.length ≤ (s.regs sp).toNat) :
    ((pushAll sp rs s).regs sp).toNat = (s.regs sp).toNat - 8 * rs.length := by
  induction rs generalizing s with
  | nil => rfl
  | cons r rs ih =>
    rw [List.length_cons] at room
    have first : ((push sp r s).regs sp).toNat = (s.regs sp).toNat - 8 := by
      rw [regs_push_self, toNat_sub_eight (by omega)]
    rw [pushAll_cons, ih (by rw [first]; omega), first, List.length_cons]
    omega

/-- `pushAll` writes only its slots, the words just below the stack pointer. -/
theorem mem_pushAll_of_ne (room : 8 * rs.length ≤ (s.regs sp).toNat) {a : UInt64}
    (apart : ∀ i < rs.length, a.toNat + 8 * (i + 1) ≠ (s.regs sp).toNat) : (pushAll sp rs s).mem a = s.mem a := by
  induction rs generalizing s with
  | nil => rfl
  | cons r rs ih =>
    rw [List.length_cons] at room
    have first : ((push sp r s).regs sp).toNat = (s.regs sp).toNat - 8 := by
      rw [regs_push_self, toNat_sub_eight (by omega)]
    rw [pushAll_cons, ih (by rw [first]; omega)]
    · exact mem_push_of_toNat_ne (by omega) (by simpa using apart 0 (by simp))
    · -- the later slots are the earlier ones, a word further down
      intro i lt
      have := apart (i + 1) (by simpa using lt)
      rw [first]
      omega

/-- The `i`-th register pushed is in the `i + 1`-th word below the old stack pointer. -/
theorem mem_pushAll (notSp : sp ∉ rs) (room : 8 * rs.length ≤ (s.regs sp).toNat) {i : Nat} (lt : i < rs.length)
    {a : UInt64} (slot : a.toNat + 8 * (i + 1) = (s.regs sp).toNat) : (pushAll sp rs s).mem a = s.regs rs[i] := by
  induction rs generalizing s i with
  | nil => cases lt
  | cons r rs ih =>
    rw [List.length_cons] at room
    have first : ((push sp r s).regs sp).toNat = (s.regs sp).toNat - 8 := by
      rw [regs_push_self, toNat_sub_eight (by omega)]
    rw [pushAll_cons]
    cases i with
    | zero =>
      -- the first register's slot: no later push reaches it
      rw [mem_pushAll_of_ne (by rw [first]; omega), mem_push_of_toNat_eq (by omega) (by omega)]
      · rfl
      · intro j _
        rw [first]
        omega
    | succ i =>
      have notSp' : sp ∉ rs := fun mem => notSp (List.mem_cons_of_mem r mem)
      have lt' : i < rs.length := by simpa using lt
      have ne : rs[i] ≠ sp := fun same => notSp' (same ▸ List.getElem_mem _)
      rw [ih notSp' (by rw [first]; omega) lt' (by rw [first]; omega), regs_push_of_ne ne]
      rfl

/-! ## Runs of pops -/

@[simp] theorem mem_popAll : (popAll sp rs s).mem = s.mem := by
  induction rs generalizing s with
  | nil => rfl
  | cons r rs ih => rw [popAll_cons, ih, mem_pop]

theorem regs_popAll_of_not_mem {r' : ρ} (notMem : r' ∉ rs) (ne : r' ≠ sp) : (popAll sp rs s).regs r' = s.regs r' := by
  induction rs generalizing s with
  | nil => rfl
  | cons r rs ih =>
    rw [List.mem_cons, not_or] at notMem
    rw [popAll_cons, ih notMem.2, regs_pop_of_ne notMem.1 ne]

/-- The stack pointer after `popAll` is a word higher for each register. -/
theorem toNat_regs_popAll (notSp : sp ∉ rs) (room : (s.regs sp).toNat + 8 * rs.length < 2 ^ 64) :
    ((popAll sp rs s).regs sp).toNat = (s.regs sp).toNat + 8 * rs.length := by
  induction rs generalizing s with
  | nil => rfl
  | cons r rs ih =>
    rw [List.length_cons] at room
    have ne : r ≠ sp := fun same => notSp (same ▸ List.mem_cons_self)
    have first : ((pop sp r s).regs sp).toNat = (s.regs sp).toNat + 8 := by
      rw [regs_pop_sp ne, UInt64.toNat_add, Nat.mod_eq_of_lt (by simp; omega)]
      rfl
    rw [popAll_cons, ih (fun mem => notSp (List.mem_cons_of_mem r mem)) (by rw [first]; omega), first,
      List.length_cons]
    omega

/-- The `i`-th register popped gets the `i`-th word above the old stack pointer. -/
theorem regs_popAll (nodup : rs.Nodup) (notSp : sp ∉ rs) (room : (s.regs sp).toNat + 8 * rs.length < 2 ^ 64)
    {i : Nat} (lt : i < rs.length) {a : UInt64} (slot : a.toNat = (s.regs sp).toNat + 8 * i) :
    (popAll sp rs s).regs rs[i] = s.mem a := by
  induction rs generalizing s i with
  | nil => cases lt
  | cons r rs ih =>
    rw [List.length_cons] at room
    have ne : r ≠ sp := fun same => notSp (same ▸ List.mem_cons_self)
    rw [popAll_cons]
    cases i with
    | zero =>
      -- no later pop writes the first register
      have later : r ∉ rs := (List.nodup_cons.mp nodup).1
      have same : a = s.regs sp := UInt64.toNat_inj.mp (by omega)
      rw [List.getElem_cons_zero, regs_popAll_of_not_mem later ne, regs_pop_self, same]
    | succ i =>
      have first : ((pop sp r s).regs sp).toNat = (s.regs sp).toNat + 8 := by
        rw [regs_pop_sp ne, UInt64.toNat_add, Nat.mod_eq_of_lt (by simp; omega)]
        rfl
      rw [List.getElem_cons_succ, ih (List.nodup_cons.mp nodup).2 (fun mem => notSp (List.mem_cons_of_mem r mem))
        (by rw [first]; omega) (by simpa using lt) (by rw [first]; omega), mem_pop]

/-! ## A saved frame restored -/

/-- Popping in reverse order what was pushed gives every pushed register and
the stack pointer back, whatever ran in between, as long as it left the
stack pointer and the saved words as the pushes left them. -/
theorem popAll_reverse_of_pushAll (nodup : rs.Nodup) (notSp : sp ∉ rs) (room : 8 * rs.length ≤ (s.regs sp).toNat)
    {t : Core ρ} (sameSp : t.regs sp = (pushAll sp rs s).regs sp)
    (sameSlots : ∀ a : UInt64, (s.regs sp).toNat ≤ a.toNat + 8 * rs.length → a.toNat < (s.regs sp).toNat →
      t.mem a = (pushAll sp rs s).mem a) :
    (∀ r ∈ rs, (popAll sp rs.reverse t).regs r = s.regs r) ∧ (popAll sp rs.reverse t).regs sp = s.regs sp := by
  have below : (t.regs sp).toNat = (s.regs sp).toNat - 8 * rs.length := by
    rw [sameSp, toNat_regs_pushAll room]
  have lenRev : rs.reverse.length = rs.length := List.length_reverse
  have fits : (t.regs sp).toNat + 8 * rs.reverse.length < 2 ^ 64 := by
    have := (s.regs sp).toNat_lt
    rw [lenRev, below]
    omega
  have notSpRev : sp ∉ rs.reverse := fun mem => notSp (List.mem_reverse.mp mem)
  refine ⟨?_, ?_⟩
  · intro r mem
    obtain ⟨j, lt, rfl⟩ := List.getElem_of_mem (List.mem_reverse.mpr mem)
    -- the `j`-th pop reads the slot of the `j`-th register from the end
    have ltRev : rs.length - 1 - j < rs.length := by rw [lenRev] at lt; omega
    obtain ⟨a, slot⟩ : ∃ a : UInt64, a.toNat = (t.regs sp).toNat + 8 * j :=
      ⟨UInt64.ofNat ((t.regs sp).toNat + 8 * j), UInt64.toNat_ofNat_of_lt' (show _ < 2 ^ 64 by rw [lenRev] at fits lt; omega)⟩
    rw [regs_popAll (List.nodup_reverse.mpr nodup) notSpRev fits lt slot, sameSlots a (by rw [lenRev] at lt; omega)
      (by rw [lenRev] at lt; omega), mem_pushAll notSp room ltRev (by rw [lenRev] at lt; omega), List.getElem_reverse]
  · apply UInt64.toNat_inj.mp
    rw [toNat_regs_popAll notSpRev fits, lenRev, below]
    omega

end OspabOs.Stack
