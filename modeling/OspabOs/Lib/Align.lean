import Mathlib

/-!
# Aligning a word with a mask

A bump allocator rounds its cursor up to a power-of-two alignment `a`
with the mask expression

    (x + a - 1) & !(a - 1)

on machine words. This module says what that computes on 64-bit words:
the round-up `roundUp x a` of `Nat`, the least multiple of `a` at or
above `x`, whenever `x + a - 1` does not wrap (`toNat_alignUp`). The
callers then reason about `roundUp` alone, through `le_roundUp`,
`roundUp_lt`, `roundUp_mod` and `le_roundUp_of_pos`; and a sum of words
that are multiples of a power of two below `2 ^ 64` stays one, however
it wraps (`toNat_add_mod_eq_zero`).

Nothing here names the system that uses it.
-/

namespace OspabOs.Align

/-! ## Rounding up in `Nat` -/

/-- `n` rounded up to a multiple of `a`. -/
def roundUp (n a : Nat) : Nat := (n + a - 1) / a * a

section RoundUp

variable {n a : Nat}

theorem roundUp_mod : roundUp n a % a = 0 := Nat.mul_mod_left _ _

theorem le_roundUp (pos : 0 < a) : n ≤ roundUp n a := by
  unfold roundUp
  rw [Nat.div_mul_self_eq_mod_sub_self]
  have below := Nat.mod_lt (n + a - 1) pos
  omega

theorem roundUp_lt (pos : 0 < a) : roundUp n a < n + a := by
  unfold roundUp
  have down := Nat.div_mul_le_self (n + a - 1) a
  omega

/-- A positive size rounds up to at least one whole alignment. -/
theorem le_roundUp_of_pos (pos : 0 < a) (nonzero : 0 < n) : a ≤ roundUp n a := by
  have multiple : a ∣ roundUp n a := Nat.dvd_of_mod_eq_zero roundUp_mod
  exact Nat.le_of_dvd (Nat.lt_of_lt_of_le nonzero (le_roundUp pos)) multiple

end RoundUp

/-! ## The mask on 64-bit words -/

namespace UInt64Mask

variable {k : Nat}

/-- The bits a mask keeps and the bits its complement keeps add up to
the word. -/
theorem toNat_and_not_add_and (x m : UInt64) : (x &&& ~~~m).toNat + (x &&& m).toNat = x.toNat := by
  have disjoint : (x.toBitVec &&& ~~~m.toBitVec) &&& (x.toBitVec &&& m.toBitVec) = 0 := by
    ext i
    simp only [BitVec.getElem_and, BitVec.getElem_not]
    cases x.toBitVec[i] <;> cases m.toBitVec[i] <;> simp
  have join : (x.toBitVec &&& ~~~m.toBitVec) ||| (x.toBitVec &&& m.toBitVec) = x.toBitVec := by
    ext i
    simp only [BitVec.getElem_or, BitVec.getElem_and, BitVec.getElem_not]
    cases x.toBitVec[i] <;> cases m.toBitVec[i] <;> decide
  have sum := BitVec.toNat_add_of_and_eq_zero disjoint
  rw [BitVec.add_eq_or_of_and_eq_zero _ _ disjoint, join] at sum
  exact sum.symm

theorem one_le_of_pow {a : UInt64} (pow : a.toNat = 2 ^ k) : 1 ≤ a := by
  rw [UInt64.le_iff_toNat_le, pow]
  exact Nat.one_le_two_pow

/-- `x & (a - 1)` is the remainder by a power of two `a`. -/
theorem toNat_and_pred (x a : UInt64) (pow : a.toNat = 2 ^ k) : (x &&& (a - 1)).toNat = x.toNat % a.toNat := by
  rw [UInt64.toNat_and, UInt64.toNat_sub_of_le _ _ (one_le_of_pow pow), pow]
  exact Nat.and_two_pow_sub_one_eq_mod _ _

/-- `x & !(a - 1)` rounds down to a multiple of a power of two `a`. -/
theorem toNat_and_not_pred (x a : UInt64) (pow : a.toNat = 2 ^ k) :
    (x &&& ~~~(a - 1)).toNat = x.toNat / a.toNat * a.toNat := by
  have parts := toNat_and_not_add_and x (a - 1)
  rw [toNat_and_pred x a pow] at parts
  rw [Nat.div_mul_self_eq_mod_sub_self]
  omega

/-- THE MASK ROUND-UP: `(x + a - 1) & !(a - 1)` is `roundUp x a` for a
power of two `a`, when `x + a - 1` fits in the word. -/
theorem toNat_alignUp (x a : UInt64) (pow : a.toNat = 2 ^ k) (fits : x.toNat + a.toNat - 1 < 2 ^ 64) :
    ((x + a - 1) &&& ~~~(a - 1)).toNat = roundUp x.toNat a.toNat := by
  have positive : 1 ≤ a.toNat := by
    rw [pow]
    exact Nat.one_le_two_pow
  have below : (a - 1).toNat = a.toNat - 1 := UInt64.toNat_sub_of_le _ _ (one_le_of_pow pow)
  -- `x + a` alone may wrap to 0 (when `x + a = 2 ^ 64`); `x + (a - 1)` does not
  have pred : (x + a - 1).toNat = x.toNat + a.toNat - 1 := by
    rw [add_sub_assoc, UInt64.toNat_add, below, Nat.mod_eq_of_lt (by simpa using (by omega : x.toNat + (a.toNat - 1) < 2 ^ 64))]
    omega
  rw [toNat_and_not_pred _ a pow, pred]
  rfl

/-- Words that are multiples of a power of two `2 ^ k ≤ 2 ^ 64` add up,
wrapping or not, to a multiple of it. -/
theorem toNat_add_mod_eq_zero {x y : UInt64} (small : k ≤ 64) (hx : x.toNat % 2 ^ k = 0)
    (hy : y.toNat % 2 ^ k = 0) : (x + y).toNat % 2 ^ k = 0 := by
  have divides : 2 ^ k ∣ 2 ^ 64 := Nat.pow_dvd_pow 2 small
  rw [UInt64.toNat_add, Nat.mod_mod_of_dvd _ divides, Nat.add_mod, hx, hy, Nat.zero_add, Nat.zero_mod]

end UInt64Mask

end OspabOs.Align
