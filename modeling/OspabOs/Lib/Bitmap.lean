import Mathlib

/-!
# Byte-packed bitmaps

A bitmap of `n` flags packed into bytes, eight to a byte, LEAST significant
bit first: flag `i` is bit `i % 8` of byte `i / 8`. Testing, setting and
clearing a flag are the byte operations a kernel writes by hand,

    bytes[i / 8] & (1 << (i % 8)) != 0
    bytes[i / 8] |= 1 << (i % 8)
    bytes[i / 8] &= !(1 << (i % 8))

and the lemmas here say that they behave as a set of indices does:
`test_set`, `test_clear`, `test_replicate_zero`, and the count of set
flags below a bound moves by one (`count_set`, `count_clear`).

The bytes are a `List UInt8`; reading past the end gives `0`, which is
never used by a caller that keeps its indices below `8 * length`.
-/

namespace OspabOs.Bitmap

/-! ## One byte -/

/-- The bit of flag `i` within its byte: `1 << (i % 8)`. -/
def mask (i : Nat) : UInt8 := 1 <<< (i % 8).toUInt8

theorem toNat_mask (i : Nat) : (mask i).toNat = 2 ^ (i % 8) := by
  have small : i % 8 < 8 := Nat.mod_lt _ (by decide)
  have shift : i % 8 % 256 % 8 = i % 8 := by omega
  have fits : 2 ^ (i % 8) < 256 :=
    calc 2 ^ (i % 8) < 2 ^ 8 := Nat.pow_lt_pow_right (by decide) small
      _ = 256 := by decide
  simp [mask, Nat.one_shiftLeft, shift, Nat.mod_eq_of_lt fits]

/-- Masking a byte with `mask i` tests bit `i % 8`. -/
theorem and_mask_ne_zero (x : UInt8) (i : Nat) :
    ((x &&& mask i) != 0) = x.toNat.testBit (i % 8) := by
  have masked : (x &&& mask i).toNat = x.toNat &&& 2 ^ (i % 8) := by
    rw [UInt8.toNat_and, toNat_mask]
  cases bit : x.toNat.testBit (i % 8) with
  | true =>
    have nonzero : x &&& mask i ≠ 0 := by
      intro zero
      have seen := congrArg (fun y : UInt8 => y.toNat.testBit (i % 8)) zero
      simp [masked, Nat.testBit_and, bit] at seen
    simpa using nonzero
  | false =>
    have zero : x &&& mask i = 0 := by
      rw [← UInt8.toNat_inj, masked, UInt8.toNat_zero]
      apply Nat.eq_of_testBit_eq
      intro k
      by_cases same : i % 8 = k
      · subst same
        simp [Nat.testBit_and, bit]
      · simp [Nat.testBit_and, same]
    simp [zero]

theorem testBit_or_mask (x : UInt8) (i c : Nat) :
    (x ||| mask i).toNat.testBit c = (decide (i % 8 = c) || x.toNat.testBit c) := by
  rw [UInt8.toNat_or, toNat_mask, Nat.testBit_or, Nat.testBit_two_pow, Bool.or_comm]

/-- The complement of one bit of a byte, as a number: every bit below 8
but that one. -/
private theorem testBit_byte_sub_two_pow :
    ∀ k < 8, ∀ c < 8, (255 - 2 ^ k).testBit c = !decide (k = c) := by
  decide

theorem testBit_and_not_mask (x : UInt8) (i : Nat) {c : Nat} (lt : c < 8) :
    (x &&& ~~~mask i).toNat.testBit c = (!decide (i % 8 = c) && x.toNat.testBit c) := by
  have notMask : (~~~mask i).toNat = 255 - 2 ^ (i % 8) := by
    rw [UInt8.toNat_not, toNat_mask]
    rfl
  rw [UInt8.toNat_and, notMask, Nat.testBit_and,
    testBit_byte_sub_two_pow _ (Nat.mod_lt _ (by decide)) c lt, Bool.and_comm]

/-! ## Flags -/

/-- Whether flag `i` is set. -/
def test (bytes : List UInt8) (i : Nat) : Bool :=
  (bytes.getD (i / 8) 0 &&& mask i) != 0

/-- Set flag `i`. -/
def set (bytes : List UInt8) (i : Nat) : List UInt8 :=
  bytes.modify (i / 8) (· ||| mask i)

/-- Clear flag `i`. -/
def clear (bytes : List UInt8) (i : Nat) : List UInt8 :=
  bytes.modify (i / 8) (· &&& ~~~mask i)

/-- How many of the flags below `n` are set. -/
def count (bytes : List UInt8) (n : Nat) : Nat :=
  (List.range n).countP (test bytes)

theorem test_eq_testBit (bytes : List UInt8) (i : Nat) :
    test bytes i = (bytes.getD (i / 8) 0).toNat.testBit (i % 8) :=
  and_mask_ne_zero _ i

@[simp] theorem length_set (bytes : List UInt8) (i : Nat) : (set bytes i).length = bytes.length :=
  List.length_modify _ _ _

@[simp] theorem length_clear (bytes : List UInt8) (i : Nat) : (clear bytes i).length = bytes.length :=
  List.length_modify _ _ _

/-- A byte other than the one edited reads the same. -/
private theorem getD_modify_of_ne (bytes : List UInt8) (f : UInt8 → UInt8) {k l : Nat} (ne : k ≠ l) :
    (bytes.modify k f).getD l 0 = bytes.getD l 0 := by
  rw [List.getD_eq_getElem?_getD, List.getElem?_modify_ne _ _ ne, ← List.getD_eq_getElem?_getD]

/-- The edited byte reads as the edit of the old one. -/
private theorem getD_modify_self (bytes : List UInt8) (f : UInt8 → UInt8) {k : Nat}
    (inRange : k < bytes.length) : (bytes.modify k f).getD k 0 = f (bytes.getD k 0) := by
  rw [List.getD_eq_getElem?_getD, List.getElem?_modify_eq, List.getD_eq_getElem?_getD,
    List.getElem?_eq_getElem inRange]
  rfl

/-- Two flags in one byte are one flag when their bits agree. -/
private theorem eq_of_div_eq_of_mod_eq {i j : Nat} (byte : i / 8 = j / 8) :
    i % 8 = j % 8 ↔ j = i := by
  omega

theorem test_set {bytes : List UInt8} {i : Nat} (inRange : i / 8 < bytes.length) (j : Nat) :
    test (set bytes i) j = (decide (j = i) || test bytes j) := by
  rw [test_eq_testBit, test_eq_testBit, set]
  by_cases byte : i / 8 = j / 8
  · rw [← byte, getD_modify_self _ _ inRange, testBit_or_mask, byte]
    simp only [eq_of_div_eq_of_mod_eq byte]
  · have ne : j ≠ i := fun same => byte (same ▸ rfl)
    rw [getD_modify_of_ne _ _ byte]
    simp [ne]

/-- Clearing needs no bound: past the end nothing is set to begin with. -/
theorem test_clear (bytes : List UInt8) (i j : Nat) :
    test (clear bytes i) j = (!decide (j = i) && test bytes j) := by
  rw [test_eq_testBit, test_eq_testBit, clear]
  by_cases byte : i / 8 = j / 8
  · by_cases inRange : i / 8 < bytes.length
    · rw [← byte, getD_modify_self _ _ inRange, testBit_and_not_mask _ _ (Nat.mod_lt _ (by decide)),
        byte]
      simp only [eq_of_div_eq_of_mod_eq byte]
    · have past : bytes.length ≤ j / 8 := by omega
      have outside : (bytes.modify (i / 8) (· &&& ~~~mask i)).length ≤ j / 8 := by simpa using past
      rw [List.getD_eq_default _ _ outside, List.getD_eq_default _ _ past]
      simp
  · have ne : j ≠ i := fun same => byte (same ▸ rfl)
    rw [getD_modify_of_ne _ _ byte]
    simp [ne]

@[simp] theorem test_replicate_zero (n i : Nat) : test (List.replicate n 0) i = false := by
  rw [test_eq_testBit, List.getD_eq_getElem?_getD, List.getElem?_getD_replicate_default_eq]
  simp

/-- In bytes of all ones every flag within the bytes is set. -/
theorem test_replicate_allSet {n i : Nat} (inRange : i / 8 < n) : test (List.replicate n 0xFF) i = true := by
  have bits : ∀ k < 8, (255 : Nat).testBit k = true := by decide
  rw [test_eq_testBit, List.getD_eq_getElem?_getD, List.getElem?_replicate, if_pos inRange, Option.getD_some]
  exact bits (i % 8) (Nat.mod_lt _ (by decide))

/-! ## Counting -/

theorem count_zero (bytes : List UInt8) : count bytes 0 = 0 := rfl

theorem count_succ (bytes : List UInt8) (n : Nat) :
    count bytes (n + 1) = count bytes n + if test bytes n then 1 else 0 := by
  simp [count, List.range_succ, List.countP_append]

@[simp] theorem count_replicate_zero (m n : Nat) : count (List.replicate m 0) n = 0 := by
  simp [count]

theorem count_le (bytes : List UInt8) (n : Nat) : count bytes n ≤ n := by
  simpa [count] using List.countP_le_length (p := test bytes) (l := List.range n)

/-- Two bitmaps that agree below `n` count the same there. -/
theorem count_congr {bytes bytes' : List UInt8} {n : Nat} (agree : ∀ j < n, test bytes' j = test bytes j) :
    count bytes' n = count bytes n := by
  unfold count
  apply List.countP_congr
  intro j mem
  rw [agree j (List.mem_range.mp mem)]

/-- Setting a clear flag below `n` adds one to the count below `n`. -/
theorem count_set {bytes : List UInt8} {i n : Nat} (inRange : i / 8 < bytes.length)
    (wasClear : test bytes i = false) (lt : i < n) : count (set bytes i) n = count bytes n + 1 := by
  induction n with
  | zero => omega
  | succ n ih =>
    rw [count_succ, count_succ, test_set inRange]
    by_cases last : n = i
    · subst last
      have below : count (set bytes n) n = count bytes n :=
        count_congr fun j lt => by rw [test_set inRange, decide_eq_false (by omega), Bool.false_or]
      simp [below, wasClear]
    · have := ih (by omega)
      simp [last, this]
      omega

/-- Clearing a set flag below `n` takes one from the count below `n`. -/
theorem count_clear {bytes : List UInt8} {i n : Nat} (wasSet : test bytes i = true) (lt : i < n) :
    count (clear bytes i) n + 1 = count bytes n := by
  induction n with
  | zero => omega
  | succ n ih =>
    rw [count_succ, count_succ, test_clear]
    by_cases last : n = i
    · subst last
      have below : count (clear bytes n) n = count bytes n :=
        count_congr fun j lt => by rw [test_clear, decide_eq_false (by omega), Bool.not_false,
          Bool.true_and]
      simp [below, wasSet]
    · have := ih (by omega)
      simp [last]
      omega

end OspabOs.Bitmap
