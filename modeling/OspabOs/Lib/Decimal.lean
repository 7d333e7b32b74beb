import Mathlib

/-!
# Decimal numerals, printed and parsed

Two loops that programs write by hand over decimal digits:

- the printing loop (`digitLoop`): while `n > 0`, store the byte
  `b'0' + n % 10` and divide `n` by ten; the stored bytes are then printed
  from the last one back, and `0` is printed as a lone `'0'` (`print`);
- `from_str_radix(src, 10)` of an unsigned integer type whose largest value
  is `max` (`parseUnsigned`): an optional leading `+`, then digits, each one
  taken in by `acc * 10 + d` (`accumulate`), refused once that passes `max`.

**The laws.** Parsing reads back what printing prints, for every value the
type holds (`parseUnsigned_print`), and parsing accepts exactly an optional
`+` followed by a non-empty string of ASCII digits whose value is at most
`max`, leading zeros included (`parseUnsigned_eq_some_iff`).

Nothing here names the program that prints or parses.
-/

namespace OspabOs.Decimal

/-- The digit loop, for at most `fuel` turns: the ASCII bytes of the digits
of `n`, least significant first. -/
def digitLoop : Nat → Nat → List UInt8
  | 0, _ => []
  | fuel + 1, n => if n = 0 then [] else (48 + (n % 10).toUInt8) :: digitLoop fuel (n / 10)

/-- What the printer prints: `'0'` for zero, else the stored bytes from the
last one back, each `as char`. -/
def print (fuel n : Nat) : List Char :=
  if n = 0 then ['0'] else (digitLoop fuel n).reverse.map fun b => Char.ofNat b.toNat

/-- `char::to_digit(10)`: `(c as u32).wrapping_sub('0' as u32)` when that is
below ten, which it is exactly for `'0'` to `'9'`. -/
def digitValue (c : Char) : Option Nat :=
  if 48 ≤ c.toNat ∧ c.toNat < 58 then some (c.toNat - 48) else none

/-- The loop of `from_str_radix` over the digits: `checked_mul(10)`, then
`checked_add(d)`, both refused past `max`. -/
def accumulate (max : Nat) : Nat → List Char → Option Nat
  | acc, [] => some acc
  | acc, c :: rest =>
    match digitValue c with
    | none => none
    | some d => if acc * 10 + d ≤ max then accumulate max (acc * 10 + d) rest else none

/-- `from_str_radix(src, 10)` for an unsigned type whose largest value is
`max`: empty is refused, a lone sign is refused, a leading `+` is skipped,
and a `-` is no digit. -/
def parseUnsigned (max : Nat) : List Char → Option Nat
  | [] => none
  | ['+'] => none
  | ['-'] => none
  | '+' :: digits => accumulate max 0 digits
  | digits => accumulate max 0 digits

/-- The value of a string of digits, most significant first. -/
def value (digits : List Char) : Nat :=
  digits.foldl (fun acc c => acc * 10 + (c.toNat - 48)) 0

/-- `part` is a decimal numeral of value `n`: an optional `+`, then a
non-empty string of ASCII digits, leading zeros allowed. -/
def Numeral (part : List Char) (n : Nat) : Prop :=
  ∃ sign digits, part = sign ++ digits ∧ (sign = [] ∨ sign = ['+']) ∧ digits ≠ [] ∧
    (∀ c ∈ digits, c.isDigit) ∧ value digits = n

/-! ## The accumulator -/

section Accumulate

variable {max : Nat}

theorem accumulate_append (acc : Nat) (xs ys : List Char) :
    accumulate max acc (xs ++ ys) = (accumulate max acc xs).bind fun mid => accumulate max mid ys := by
  induction xs generalizing acc with
  | nil => rfl
  | cons c rest ih =>
    simp only [List.cons_append, accumulate]
    cases digitValue c with
    | none => rfl
    | some d =>
      dsimp only
      split_ifs
      · exact ih _
      · rfl

theorem isDigit_iff_toNat (c : Char) : c.isDigit = true ↔ 48 ≤ c.toNat ∧ c.toNat < 58 := by
  simp only [Char.isDigit, Bool.and_eq_true, decide_eq_true_eq, ge_iff_le, UInt32.le_iff_toNat_le]
  show 48 ≤ c.val.toNat ∧ c.val.toNat ≤ 57 ↔ 48 ≤ c.val.toNat ∧ c.val.toNat < 58
  omega

theorem digitValue_eq_some_iff {c : Char} {d : Nat} : digitValue c = some d ↔ c.isDigit ∧ c.toNat - 48 = d := by
  unfold digitValue
  rw [isDigit_iff_toNat]
  split_ifs with inside
  · simp only [Option.some.injEq, inside, true_and]
  · simp only [false_iff, not_and]
    intro digit
    exact absurd digit inside

/-- What the accumulator accepts: digits, whose value from `acc` is at most
`max` once any has been read. -/
theorem accumulate_eq_some_iff (acc : Nat) (digits : List Char) (n : Nat) :
    accumulate max acc digits = some n ↔
      (∀ c ∈ digits, c.isDigit) ∧ digits.foldl (fun acc c => acc * 10 + (c.toNat - 48)) acc = n ∧
        (digits = [] ∨ n ≤ max) := by
  induction digits generalizing acc with
  | nil =>
    constructor
    · intro read
      cases read
      exact ⟨fun _ absent => absurd absent List.not_mem_nil, rfl, .inl rfl⟩
    · rintro ⟨-, total, -⟩
      rw [← total]
      rfl
  | cons c rest ih =>
    simp only [accumulate, List.forall_mem_cons, List.foldl_cons, reduceCtorEq, false_or]
    cases found : digitValue c with
    | none =>
      have notDigit : ¬ c.isDigit := fun digit => by
        rw [show digitValue c = some (c.toNat - 48) from digitValue_eq_some_iff.mpr ⟨digit, rfl⟩] at found
        cases found
      simp [notDigit]
    | some d =>
      obtain ⟨digit, rfl⟩ := digitValue_eq_some_iff.mp found
      dsimp only
      split_ifs with fits
      · rw [ih]
        constructor
        · rintro ⟨digits, total, bounded⟩
          refine ⟨⟨digit, digits⟩, total, ?_⟩
          rcases bounded with empty | le
          · subst empty
            rw [← total]
            exact fits
          · exact le
        · rintro ⟨⟨-, digits⟩, total, le⟩
          exact ⟨digits, total, .inr le⟩
      · simp only [false_iff, not_and]
        intro _ total le
        -- the value only grows as digits are read
        have grows : acc * 10 + (c.toNat - 48) ≤
            rest.foldl (fun acc c => acc * 10 + (c.toNat - 48)) (acc * 10 + (c.toNat - 48)) :=
          foldl_ge rest _
        omega
where
  foldl_ge (rest : List Char) (start : Nat) :
      start ≤ rest.foldl (fun acc c => acc * 10 + (c.toNat - 48)) start := by
    induction rest generalizing start with
    | nil => exact Nat.le_refl _
    | cons c more ih =>
      have first : start ≤ start * 10 + (c.toNat - 48) := by omega
      exact Nat.le_trans first (ih _)

end Accumulate

/-! ## Printing then parsing -/

theorem toNat_digitByte {d : Nat} (lt : d < 10) : (48 + d.toUInt8 : UInt8).toNat = 48 + d := by
  rw [UInt8.toNat_add, Nat.toUInt8_eq, UInt8.toNat_ofNat_of_lt' (show d < 256 by omega)]
  show (48 + d) % 256 = 48 + d
  omega

theorem digitValue_digitByte {d : Nat} (lt : d < 10) :
    digitValue (Char.ofNat (48 + d.toUInt8 : UInt8).toNat) = some d := by
  rw [toNat_digitByte lt]
  have valid : (48 + d).isValidChar := Or.inl (by omega)
  unfold digitValue
  rw [Char.toNat_ofNat, if_pos valid, if_pos (by omega), Nat.add_sub_cancel_left]

/-- The accumulator reads back the digits the loop stored, when the loop
ran to its end. -/
theorem accumulate_digitLoop (max : Nat) (fuel n : Nat) (ended : n < 10 ^ fuel) (le : n ≤ max) :
    accumulate max 0 ((digitLoop fuel n).reverse.map fun b => Char.ofNat b.toNat) = some n := by
  -- on the fuel: the loop's first digit is the last one read
  induction fuel generalizing n with
  | zero =>
    have zero : n = 0 := by simpa using ended
    subst zero
    rfl
  | succ fuel ih =>
    by_cases zero : n = 0
    · subst zero
      rfl
    · have below : n / 10 < 10 ^ fuel := by
        rw [Nat.pow_succ] at ended
        omega
      have loop : digitLoop (fuel + 1) n = (48 + (n % 10).toUInt8) :: digitLoop fuel (n / 10) := by
        rw [digitLoop, if_neg zero]
      rw [loop, List.reverse_cons, List.map_append, accumulate_append, ih (n / 10) below (by omega),
        Option.bind_some, List.map_singleton, accumulate, digitValue_digitByte (Nat.mod_lt _ (by omega))]
      dsimp only
      rw [Nat.div_add_mod' n 10, if_pos le]
      rfl

/-! ## Parsing past the sign -/

/-- A string that does not open with a sign is read by the accumulator
from its first character. -/
theorem parseUnsigned_cons_of_not_sign (max : Nat) {first : Char} (more : List Char)
    (notPlus : first ≠ '+') (notMinus : first ≠ '-') :
    parseUnsigned max (first :: more) = accumulate max 0 (first :: more) := by
  -- every pattern before the last one needs a sign in front
  unfold parseUnsigned
  split
  · contradiction
  · rename_i only
    cases only
    exact absurd rfl notPlus
  · rename_i only
    cases only
    exact absurd rfl notMinus
  · rename_i plus
    cases plus
    exact absurd rfl notPlus
  · rfl

theorem parseUnsigned_plus (max : Nat) {digits : List Char} (nonempty : digits ≠ []) :
    parseUnsigned max ('+' :: digits) = accumulate max 0 digits := by
  obtain ⟨first, more, rfl⟩ := List.exists_cons_of_ne_nil nonempty
  rfl

theorem parseUnsigned_minus (max : Nat) (digits : List Char) : parseUnsigned max ('-' :: digits) = none := by
  cases digits with
  | nil => rfl
  | cons first more => rfl

/-- Parsing reads back every printed value the type holds. -/
theorem parseUnsigned_print (max : Nat) {fuel n : Nat} (ended : n < 10 ^ fuel) (le : n ≤ max) :
    parseUnsigned max (print fuel n) = some n := by
  unfold print
  split_ifs with zero
  · subst zero
    rfl
  · have loop : ∃ rest, digitLoop fuel n = (48 + (n % 10).toUInt8) :: rest := by
      cases fuel with
      | zero => simp at ended; omega
      | succ fuel => exact ⟨_, by rw [digitLoop, if_neg zero]⟩
    obtain ⟨rest, isLoop⟩ := loop
    have read := accumulate_digitLoop max fuel n ended le
    rw [isLoop] at read ⊢
    -- the first character printed is a digit, so no sign is skipped
    obtain ⟨first, more, printed⟩ : ∃ first more, (((48 + (n % 10).toUInt8) :: rest).reverse.map
        fun b => Char.ofNat b.toNat) = first :: more := by
      cases h : (((48 + (n % 10).toUInt8) :: rest).reverse.map fun b => Char.ofNat b.toNat) with
      | nil => simp at h
      | cons first more => exact ⟨first, more, rfl⟩
    have firstDigit : (digitValue first).isSome := by
      rw [printed, accumulate] at read
      cases found : digitValue first with
      | none => rw [found] at read; cases read
      | some d => rfl
    have notPlus : first ≠ '+' := fun plus => by rw [plus] at firstDigit; cases firstDigit
    have notMinus : first ≠ '-' := fun minus => by rw [minus] at firstDigit; cases firstDigit
    rw [printed] at read ⊢
    rw [parseUnsigned_cons_of_not_sign max more notPlus notMinus]
    exact read

/-! ## What parsing accepts -/

/-- `from_str_radix` accepts exactly an optional `+` and a non-empty string
of digits whose value is at most `max`. -/
theorem parseUnsigned_eq_some_iff (max : Nat) (src : List Char) (n : Nat) :
    parseUnsigned max src = some n ↔ Numeral src n ∧ n ≤ max := by
  have read : ∀ digits, digits ≠ [] → (accumulate max 0 digits = some n ↔
      (∀ c ∈ digits, c.isDigit) ∧ value digits = n ∧ n ≤ max) := by
    intro digits nonempty
    rw [accumulate_eq_some_iff]
    simp only [value, nonempty, false_or]
  constructor
  · intro parsed
    -- on the first character: a `+` is skipped, a `-` is refused
    obtain ⟨first, more, rfl⟩ : ∃ first more, src = first :: more := by
      cases src with
      | nil => cases parsed
      | cons first more => exact ⟨first, more, rfl⟩
    by_cases plus : first = '+'
    · subst plus
      have nonempty : more ≠ [] := by
        rintro rfl
        cases parsed
      rw [parseUnsigned_plus max nonempty] at parsed
      obtain ⟨digits, total, le⟩ := (read more nonempty).mp parsed
      exact ⟨⟨['+'], more, rfl, .inr rfl, nonempty, digits, total⟩, le⟩
    · by_cases minus : first = '-'
      · subst minus
        rw [parseUnsigned_minus] at parsed
        cases parsed
      · rw [parseUnsigned_cons_of_not_sign max more plus minus] at parsed
        obtain ⟨digits, total, le⟩ := (read _ (List.cons_ne_nil _ _)).mp parsed
        exact ⟨⟨[], first :: more, rfl, .inl rfl, List.cons_ne_nil _ _, digits, total⟩, le⟩
  · rintro ⟨⟨sign, digits, rfl, sign_eq, nonempty, isDigits, total⟩, le⟩
    have accepted := (read digits nonempty).mpr ⟨isDigits, total, le⟩
    rcases sign_eq with rfl | rfl
    · obtain ⟨first, more, rfl⟩ := List.exists_cons_of_ne_nil nonempty
      have digit := isDigits first List.mem_cons_self
      have notPlus : first ≠ '+' := by
        rintro rfl
        cases digit
      have notMinus : first ≠ '-' := by
        rintro rfl
        cases digit
      rw [List.nil_append, parseUnsigned_cons_of_not_sign max more notPlus notMinus]
      exact accepted
    · rw [List.singleton_append, parseUnsigned_plus max nonempty]
      exact accepted

/-- Every printed value is a numeral of itself. -/
theorem numeral_print {fuel n : Nat} (ended : n < 10 ^ fuel) : Numeral (print fuel n) n :=
  ((parseUnsigned_eq_some_iff n _ n).mp (parseUnsigned_print n ended (Nat.le_refl n))).1

/-- A numeral holds nothing but its sign and its digits. -/
theorem mem_numeral {part : List Char} {n : Nat} (numeral : Numeral part n) {c : Char} (mem : c ∈ part) :
    c = '+' ∨ c.isDigit := by
  obtain ⟨sign, digits, rfl, sign_eq, -, isDigits, -⟩ := numeral
  rcases List.mem_append.mp mem with inSign | inDigits
  · rcases sign_eq with rfl | rfl
    · cases inSign
    · exact .inl (List.mem_singleton.mp inSign)
  · exact .inr (isDigits c inDigits)

end OspabOs.Decimal
