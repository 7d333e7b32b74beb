import Mathlib.Data.List.DropRight

/-!
# Text: the `str` and UTF-8 operations a Rust program leans on

A Rust `&str` is modelled by the list of its characters, and a `&[u8]` by
the list of its bytes. This module gives the standard-library operations
that have no exact counterpart in Lean's own list API, each following the
documented behaviour of the Rust function it is named after:

- `isWhitespace`, `trim` and `splitWhitespace`: Unicode `White_Space`, as
  `char::is_whitespace`, `str::trim` and `str::split_whitespace` read it;
- `trimStartMatchesStr`: `str::trim_start_matches` with a string pattern,
  which strips the pattern again and again;
- `afterLast`: what follows the last occurrence of a character, the slice
  `&s[s.rfind(c)? + 1..]` with the whole string when there is none;
- `lines`: `str::lines`, which also drops the `'\r'` of a `"\r\n"`;
  joining its lines with `'\n'` gives the text back exactly when the text
  has no `"\r\n"` and does not end in `'\n'` (`intercalate_lines`);
- the UTF-8 codec: `encode`, and a decoder that splits bytes into
  characters and MAXIMAL ILL-FORMED SUBPARTS (Unicode §3.9, Table 3-7).
  `fromUtf8` refuses any ill-formed subpart, as `str::from_utf8` does;
  `fromUtf8Lossy` replaces each one by U+FFFD, as `String::from_utf8_lossy`
  does. The two directions of the codec are inverse: `fromUtf8` is
  `some s` exactly on `encode s` (`fromUtf8_eq_some_iff`).

`str::split` with a character pattern is `List.splitOn`, `starts_with` and
`ends_with` are `List.isPrefixOf` and `List.isSuffixOf`, and
`trim_start_matches` with a character is `List.dropWhile`: those are used
from the library under their own names.
-/

namespace OspabOs.Text

/-! ## `str` operations -/

/-- No part `str::split` cuts out of a string holds the separator. -/
theorem not_mem_of_mem_splitOn {c : Char} {s part : List Char} (mem : part ∈ s.splitOn c) :
    c ∉ part := by
  induction s generalizing part with
  | nil => simp_all
  | cons x rest ih =>
    rw [List.splitOn_cons_eq_if_modifyHead] at mem
    by_cases sep : x = c
    · simp only [sep, beq_self_eq_true, if_true, List.mem_cons] at mem
      rcases mem with rfl | later
      · simp
      · exact ih later
    · have hx : (x == c) = false := beq_eq_false_iff_ne.mpr sep
      rw [if_neg (by simp [hx])] at mem
      obtain ⟨first, others, split⟩ := List.exists_cons_of_ne_nil (List.splitOn_ne_nil c rest)
      rw [split, List.modifyHead_cons, List.mem_cons] at mem
      rcases mem with rfl | later
      · have : c ∉ first := ih (by rw [split]; exact List.mem_cons_self)
        simp [this, Ne.symm sep]
      · exact ih (by rw [split]; exact List.mem_cons_of_mem _ later)

/-- `char::is_whitespace`: the Unicode `White_Space` property. -/
def isWhitespace (c : Char) : Bool :=
  let n := c.toNat
  (0x09 ≤ n && n ≤ 0x0D) || n == 0x20 || n == 0x85 || n == 0xA0 || n == 0x1680 ||
    (0x2000 ≤ n && n ≤ 0x200A) || n == 0x2028 || n == 0x2029 || n == 0x202F ||
    n == 0x205F || n == 0x3000

/-- `str::trim`: drop leading and trailing whitespace. -/
def trim (s : List Char) : List Char :=
  (s.dropWhile isWhitespace).rdropWhile isWhitespace

/-- `trim` drops the whitespace around a string whose two ends are not
whitespace, and nothing else. -/
theorem trim_append {lead body trail : List Char} (blankLead : ∀ x ∈ lead, isWhitespace x = true)
    (blankTrail : ∀ x ∈ trail, isWhitespace x = true)
    (first : (body.head?.all fun x => !isWhitespace x) = true)
    (last : (body.getLast?.all fun x => !isWhitespace x) = true) :
    trim (lead ++ body ++ trail) = body := by
  unfold trim
  rw [List.append_assoc, List.dropWhile_append_of_pos blankLead]
  cases body with
  | nil => rw [List.nil_append, List.dropWhile_eq_nil_iff.mpr blankTrail, List.rdropWhile_nil]
  | cons x rest =>
    have keep : isWhitespace x = false := by simpa using first
    have front : ((x :: rest) ++ trail).dropWhile isWhitespace = (x :: rest) ++ trail := by
      rw [List.cons_append, List.dropWhile_cons, if_neg (by simp [keep])]
    -- from the back, the trailing whitespace goes and the body's last character stops the drop
    have back : ((x :: rest) ++ trail).rdropWhile isWhitespace = (x :: rest).rdropWhile isWhitespace := by
      simp only [List.rdropWhile, List.reverse_append]
      rw [List.dropWhile_append_of_pos fun y mem => blankTrail y (List.mem_reverse.mp mem)]
    have kept : (x :: rest).rdropWhile isWhitespace = x :: rest :=
      List.rdropWhile_eq_self_iff.mpr fun ne => by simpa [List.getLast?_eq_some_getLast ne] using last
    rw [front, back, kept]

/-- A string whose first and last characters are not whitespace is its own
`trim`. -/
theorem trim_enclosed {first last : Char} (firstShown : isWhitespace first = false)
    (lastShown : isWhitespace last = false) (body : List Char) :
    trim (first :: body ++ [last]) = first :: body ++ [last] := by
  have kept := @trim_append [] (first :: body ++ [last]) [] nofun nofun (by simp [firstShown])
    (by rw [List.getLast?_concat]; simp [lastShown])
  rwa [List.nil_append, List.append_nil] at kept

/-- `str::split_whitespace`: the non-empty pieces between runs of
whitespace. -/
def splitWhitespace (s : List Char) : List (List Char) :=
  (s.splitOnP isWhitespace).filter (!·.isEmpty)

/-- A word with no whitespace in it is its own `split_whitespace`. -/
theorem splitWhitespace_word {w : List Char} (nonempty : w ≠ []) (word : ∀ c ∈ w, isWhitespace c = false) :
    splitWhitespace w = [w] := by
  unfold splitWhitespace
  rw [List.splitOnP_eq_singleton word]
  simp [nonempty]

/-- Whitespace after a first word splits it from the rest. -/
theorem splitWhitespace_append_cons {first : List Char} (nonempty : first ≠ [])
    (word : ∀ c ∈ first, isWhitespace c = false) {sep : Char} (blank : isWhitespace sep = true) (rest : List Char) :
    splitWhitespace (first ++ sep :: rest) = first :: splitWhitespace rest := by
  unfold splitWhitespace
  rw [List.splitOnP_append_cons_of_forall_mem word sep blank rest]
  simp [nonempty]

/-- `str::trim_start_matches` with a string pattern: strip `pat` from the
front for as long as it is there. The fuel is the length of the input,
which bounds the number of strips of a non-empty pattern; an empty pattern
strips nothing, as in Rust. -/
def trimStartMatchesStr (pat : List Char) (s : List Char) : List Char :=
  go s.length s
where
  go : Nat → List Char → List Char
    | 0, s => s
    | fuel + 1, s =>
      if pat.isEmpty then s
      else match s.dropPrefix? pat with
        | some rest => go fuel rest
        | none => s

/-- What follows the last `c` of `s`, or all of `s` when it has none. -/
def afterLast (c : Char) (s : List Char) : List Char :=
  (s.reverse.takeWhile (· ≠ c)).reverse

/-- `str::lines`: the string cut after each `'\n'`, each piece without its
`'\n'` and one `'\r'` before it. A last piece with no `'\n'` keeps a
trailing `'\r'`, and is no line at all when it is empty. `acc` holds the
current line reversed. -/
def lines (s : List Char) : List (List Char) :=
  go [] s
where
  go (acc : List Char) : List Char → List (List Char)
    | [] => if acc.isEmpty then [] else [acc.reverse]
    | '\n' :: rest =>
      (match acc with
        | '\r' :: line => line.reverse
        | _ => acc.reverse) :: go [] rest
    | c :: rest => go (c :: acc) rest

example : lines "a\r\n\nb\r".toList = ["a".toList, [], "b\r".toList] := by decide

/-- `lines` reads a run without newlines into its current line. -/
theorem lines_go_append {l : List Char} (noNewline : '\n' ∉ l) (acc rest : List Char) :
    lines.go acc (l ++ rest) = lines.go (l.reverse ++ acc) rest := by
  induction l generalizing acc with
  | nil => rfl
  | cons c l ih =>
    have other : c ≠ '\n' := fun same => noNewline (same ▸ List.mem_cons_self)
    rw [List.cons_append, lines.go, ih (fun mem => noNewline (List.mem_cons_of_mem c mem))]
    · simp
    · exact other

/-- A line ended by a newline comes out whole when it holds no newline and
does not end in a carriage return. -/
theorem lines_go_line {l : List Char} (noNewline : '\n' ∉ l) (noReturn : l.getLast? ≠ some '\r')
    (rest : List Char) : lines.go [] (l ++ '\n' :: rest) = l :: lines.go [] rest := by
  rw [lines_go_append noNewline, List.append_nil, lines.go, List.reverse_reverse]
  -- the equation for a newline after anything but a carriage return
  intro line carriage
  exact noReturn (by rw [← List.head?_reverse, carriage, List.head?_cons])

theorem lines_flatMap_newline {ls : List (List Char)} (noNewline : ∀ l ∈ ls, '\n' ∉ l)
    (noReturn : ∀ l ∈ ls, l.getLast? ≠ some '\r') : lines (ls.flatMap (· ++ ['\n'])) = ls := by
  unfold lines
  induction ls with
  | nil => rfl
  | cons l ls ih =>
    rw [List.flatMap_cons, List.append_assoc, List.singleton_append,
      lines_go_line (noNewline l List.mem_cons_self) (noReturn l List.mem_cons_self),
      ih (fun l' mem => noNewline l' (List.mem_cons_of_mem l mem))
        (fun l' mem => noReturn l' (List.mem_cons_of_mem l mem))]

/-! ## Joining the lines again

`lines` loses two things: the `'\r'` of each `"\r\n"`, and a last
`'\n'`. Joining its lines with `'\n'` therefore gives the text back
exactly when the text has neither (`intercalate_lines`). The proof walks
the text as `lines.go` does, with the current line as an invariant that
holds no newline. -/

/-- Two texts split at their first newline are equal exactly when the
parts are. -/
theorem append_newline_inj {x x' y y' : List Char} (hx : '\n' ∉ x) (hx' : '\n' ∉ x') :
    x ++ '\n' :: y = x' ++ '\n' :: y' ↔ x = x' ∧ y = y' := by
  constructor
  · intro same
    induction x generalizing x' with
    | nil =>
      cases x' with
      | nil => exact ⟨rfl, (List.cons.inj same).2⟩
      | cons c x' =>
        have first : '\n' = c := (List.cons.inj same).1
        exact absurd (first ▸ List.mem_cons_self) hx'
    | cons c x ih =>
      cases x' with
      | nil =>
        have first : c = '\n' := (List.cons.inj same).1
        exact absurd (first ▸ List.mem_cons_self) hx
      | cons c' x' =>
        obtain ⟨head, tail⟩ := List.cons.inj same
        obtain ⟨rfl, rfl⟩ := ih (fun m => hx (List.mem_cons_of_mem c m)) (fun m => hx' (List.mem_cons_of_mem c' m)) tail
        exact ⟨by rw [head], rfl⟩
  · rintro ⟨rfl, rfl⟩
    rfl

/-- A newline ends the current line, without one carriage return before it. -/
theorem lines_go_newline (acc s : List Char) :
    lines.go acc ('\n' :: s) = (if acc.head? = some '\r' then acc.tail.reverse else acc.reverse) :: lines.go [] s := by
  cases acc with
  | nil => rfl
  | cons x acc =>
    by_cases carriage : x = '\r'
    · subst carriage
      rfl
    · rw [lines.go]
      · simp [carriage]
      · intro line same
        exact carriage (List.cons.inj same).1

/-- Text that is not empty is at least one line. -/
theorem lines_go_ne_nil (acc : List Char) (c : Char) (s : List Char) : lines.go acc (c :: s) ≠ [] := by
  induction s generalizing acc c with
  | nil =>
    by_cases newline : c = '\n'
    · subst newline
      rw [lines_go_newline]
      exact List.cons_ne_nil _ _
    · rw [lines.go]
      · simp [lines.go]
      · exact newline
  | cons c' s ih =>
    by_cases newline : c = '\n'
    · subst newline
      rw [lines_go_newline]
      exact List.cons_ne_nil _ _
    · rw [lines.go]
      · exact ih _ _
      · exact newline

/-- Where a `"\r\n"` can stand around the first newline of a text. -/
theorem crlf_infix_append_newline {a : List Char} (noNewline : '\n' ∉ a) (r : List Char) :
    ['\r', '\n'] <:+: a ++ '\n' :: r ↔ a.getLast? = some '\r' ∨ ['\r', '\n'] <:+: r := by
  induction a with
  | nil => simp [List.infix_cons_iff]
  | cons x a ih =>
    have rest := ih (fun m => noNewline (List.mem_cons_of_mem x m))
    rw [List.cons_append, List.infix_cons_iff, rest]
    cases a with
    | nil => simp [eq_comm]
    | cons y a =>
      have notNewline : y ≠ '\n' := fun same => noNewline (same ▸ List.mem_cons_of_mem x List.mem_cons_self)
      simp only [List.cons_append, List.cons_prefix_cons, List.getLast?_cons_cons]
      constructor
      · rintro (⟨-, same, -⟩ | found)
        · exact absurd same.symm notNewline
        · exact found
      · intro found
        exact .inr found

/-- The line a newline ends is the line so far exactly when it does not end
in a carriage return. -/
theorem lineOf_eq_iff (acc : List Char) :
    (if acc.head? = some '\r' then acc.tail.reverse else acc.reverse) = acc.reverse ↔ acc.head? ≠ some '\r' := by
  split_ifs with carriage
  · obtain ⟨line, rfl⟩ : ∃ line, acc = '\r' :: line := by
      cases acc with
      | nil => cases carriage
      | cons x line => exact ⟨line, by rw [Option.some.inj carriage]⟩
    simp
  · simpa using carriage

/-- The join of what `lines.go` reads, from any current line without a
newline. -/
theorem intercalate_lines_go {acc : List Char} (noNewline : '\n' ∉ acc) (s : List Char) :
    ['\n'].intercalate (lines.go acc s) = acc.reverse ++ s ↔
      ¬ ['\r', '\n'] <:+: acc.reverse ++ s ∧ (acc.reverse ++ s).getLast? ≠ some '\n' := by
  have reversed : '\n' ∉ acc.reverse := by simpa using noNewline
  induction s generalizing acc with
  | nil =>
    -- at most one line, and no newline anywhere
    have joined : ['\n'].intercalate (lines.go acc []) = acc.reverse := by
      rw [lines.go]
      split_ifs with empty
      · rw [List.isEmpty_iff.mp empty]
        rfl
      · exact List.intercalate_singleton
    rw [joined, List.append_nil]
    refine ⟨fun _ => ⟨fun found => reversed (found.subset (by simp)), fun last => reversed ?_⟩, fun _ => rfl⟩
    exact List.mem_of_getLast? last
  | cons c rest ih =>
    by_cases newline : c = '\n'
    · subst newline
      have line : '\n' ∉ (if acc.head? = some '\r' then acc.tail.reverse else acc.reverse) := by
        split_ifs
        · exact fun mem => noNewline (List.mem_of_mem_tail (List.mem_reverse.mp mem))
        · exact reversed
      rw [lines_go_newline, crlf_infix_append_newline reversed, List.getLast?_reverse]
      cases rest with
      | nil =>
        -- a newline at the very end: the last line comes back without it
        rw [show lines.go [] [] = [] from rfl, List.intercalate_singleton]
        constructor
        · intro same
          exact absurd (same ▸ List.mem_append_right _ List.mem_cons_self) line
        · rintro ⟨-, last⟩
          exact absurd (by simp) last
      | cons d rest =>
        obtain ⟨l, ls, split⟩ := List.exists_cons_of_ne_nil (lines_go_ne_nil [] d rest)
        have inner := ih List.not_mem_nil List.not_mem_nil
        rw [split, List.intercalate_cons_cons, ← split, List.append_assoc, List.singleton_append,
          append_newline_inj line reversed, lineOf_eq_iff]
        simp only [List.reverse_nil, List.nil_append] at inner
        simp only [inner, List.getLast?_append_cons, List.getLast?_cons_cons]
        tauto
    · rw [lines.go]
      · have moved := @ih (c :: acc) (by simp [Ne.symm newline, noNewline])
          (by simp [Ne.symm newline, reversed])
        simpa using moved
      · exact newline

/-- Joining the lines of a text with `'\n'` gives it back exactly when it
has no `"\r\n"` and does not end in `'\n'`. -/
theorem intercalate_lines (s : List Char) :
    ['\n'].intercalate (lines s) = s ↔ ¬ ['\r', '\n'] <:+: s ∧ s.getLast? ≠ some '\n' := by
  unfold lines
  simpa using intercalate_lines_go List.not_mem_nil s

/-! ## UTF-8 -/

/-- The encoding of a character list: each character's UTF-8 bytes. -/
def encode (s : List Char) : List UInt8 :=
  s.flatMap String.utf8EncodeChar

/-- What a lead byte asks of a well-formed sequence (Table 3-7): its total
length and the range its SECOND byte must lie in. Bytes that start no
well-formed sequence (`80..C1`, `F5..FF`) ask nothing. -/
def leadInfo (b : UInt8) : Option (Nat × UInt8 × UInt8) :=
  if b < 0x80 then some (1, 0, 0)
  else if 0xC2 ≤ b && b ≤ 0xDF then some (2, 0x80, 0xBF)
  else if b == 0xE0 then some (3, 0xA0, 0xBF)
  else if 0xE1 ≤ b && b ≤ 0xEC then some (3, 0x80, 0xBF)
  else if b == 0xED then some (3, 0x80, 0x9F)
  else if 0xEE ≤ b && b ≤ 0xEF then some (3, 0x80, 0xBF)
  else if b == 0xF0 then some (4, 0x90, 0xBF)
  else if 0xF1 ≤ b && b ≤ 0xF3 then some (4, 0x80, 0xBF)
  else if b == 0xF4 then some (4, 0x80, 0x8F)
  else none

/-- How many of the next `k` bytes continue a sequence: the first must lie
in `[lo, hi]`, the later ones in `[80, BF]`; the count stops at the first
byte that does not. -/
def contCount (lo hi : UInt8) : Nat → List UInt8 → Nat
  | 0, _ => 0
  | _ + 1, [] => 0
  | k + 1, b :: rest => if lo ≤ b && b ≤ hi then contCount 0x80 0xBF k rest + 1 else 0

/-- The scalar value a well-formed sequence of length `n` spells. -/
def scalar (n : Nat) (bytes : List UInt8) : Nat :=
  let low := fun (b : UInt8) => b.toNat % 64
  match n, bytes with
  | 2, b₀ :: b₁ :: _ => (b₀.toNat % 32) * 64 + low b₁
  | 3, b₀ :: b₁ :: b₂ :: _ => (b₀.toNat % 16) * 4096 + low b₁ * 64 + low b₂
  | 4, b₀ :: b₁ :: b₂ :: b₃ :: _ =>
    (b₀.toNat % 8) * 262144 + low b₁ * 4096 + low b₂ * 64 + low b₃
  | _, b₀ :: _ => b₀.toNat
  | _, [] => 0

/-- Split bytes into characters (`some c`) and maximal ill-formed subparts
(`none`, one per subpart). A sequence that breaks off after `j` good bytes
is one subpart of `j + 1` bytes, and decoding resumes at the byte that
broke it. The fuel is the byte count: every piece consumes a byte. -/
def decode (bytes : List UInt8) : List (Option Char) :=
  go bytes.length bytes
where
  go : Nat → List UInt8 → List (Option Char)
    | 0, _ => []
    | _ + 1, [] => []
    | fuel + 1, b :: rest =>
      match leadInfo b with
      | none => none :: go fuel rest
      | some (n, lo, hi) =>
        let good := contCount lo hi (n - 1) rest
        if good = n - 1 then some (Char.ofNat (scalar n (b :: rest))) :: go fuel (rest.drop good)
        else none :: go fuel (rest.drop good)

/-- `str::from_utf8`: the characters, when no subpart is ill-formed. -/
def fromUtf8 (bytes : List UInt8) : Option (List Char) :=
  (decode bytes).mapM id

/-- `String::from_utf8_lossy`: every ill-formed subpart becomes U+FFFD. -/
def fromUtf8Lossy (bytes : List UInt8) : List Char :=
  (decode bytes).map (·.getD '�')

/-! ## The UTF-8 round trip

`decode` reads back what `encode` writes: the lead byte of each
character's encoding asks for exactly the continuation bytes that follow
it, each in the range Table 3-7 gives, and they spell the character. The
encoder's bytes are `UInt8.ofNat` of `Nat` expressions in the scalar
value, so each step is a fact about `Nat` division and remainder. -/

theorem leadInfo_one {b : UInt8} (lt : b.toNat < 0x80) : leadInfo b = some (1, 0, 0) := by
  unfold leadInfo
  rw [if_pos (UInt8.lt_iff_toNat_lt.mpr lt)]

theorem leadInfo_two {b : UInt8} (lo : 0xC2 ≤ b.toNat) (hi : b.toNat ≤ 0xDF) :
    leadInfo b = some (2, 0x80, 0xBF) := by
  unfold leadInfo
  simp only [UInt8.lt_iff_toNat_lt, UInt8.le_iff_toNat_le, Bool.and_eq_true, decide_eq_true_eq,
    UInt8.reduceToNat]
  rw [if_neg (by omega), if_pos ⟨lo, hi⟩]

/-- Three-byte leads: `E0` and `ED` narrow the second byte's range, so as
to refuse overlong forms and surrogates. -/
theorem leadInfo_three {b : UInt8} (lo : 0xE0 ≤ b.toNat) (hi : b.toNat ≤ 0xEF) :
    leadInfo b = some (3, if b.toNat = 0xE0 then 0xA0 else 0x80, if b.toNat = 0xED then 0x9F else 0xBF) := by
  unfold leadInfo
  simp only [UInt8.lt_iff_toNat_lt, UInt8.le_iff_toNat_le, beq_iff_eq, ← UInt8.toNat_inj,
    Bool.and_eq_true, decide_eq_true_eq, UInt8.reduceToNat]
  split_ifs <;> first | omega | rfl

/-- Four-byte leads: `F0` and `F4` narrow the second byte's range, so as
to refuse overlong forms and scalars past `10FFFF`. -/
theorem leadInfo_four {b : UInt8} (lo : 0xF0 ≤ b.toNat) (hi : b.toNat ≤ 0xF4) :
    leadInfo b = some (4, if b.toNat = 0xF0 then 0x90 else 0x80, if b.toNat = 0xF4 then 0x8F else 0xBF) := by
  unfold leadInfo
  simp only [UInt8.lt_iff_toNat_lt, UInt8.le_iff_toNat_le, beq_iff_eq, ← UInt8.toNat_inj,
    Bool.and_eq_true, decide_eq_true_eq, UInt8.reduceToNat]
  split_ifs <;> first | omega | rfl

theorem contCount_cons {lo hi b : UInt8} (inLo : lo.toNat ≤ b.toNat) (inHi : b.toNat ≤ hi.toNat)
    (k : Nat) (rest : List UInt8) : contCount lo hi (k + 1) (b :: rest) = contCount 0x80 0xBF k rest + 1 := by
  rw [contCount, if_pos (by simp [UInt8.le_iff_toNat_le, inLo, inHi])]

/-- Every continuation byte the encoder writes, `10xxxxxx`, lies in
`[80, BF]`. -/
theorem contCount_continuation (y k : Nat) (rest : List UInt8) :
    contCount 0x80 0xBF (k + 1) (UInt8.ofNat (y % 64 + 128) :: rest) = contCount 0x80 0xBF k rest + 1 :=
  contCount_cons (by simp only [UInt8.toNat_ofNat', UInt8.reduceToNat]; omega)
    (by simp only [UInt8.toNat_ofNat', UInt8.reduceToNat]; omega) k rest

/-- One character's bytes decode to it, and decoding goes on after them. -/
theorem decode_go_utf8EncodeChar (c : Char) (fuel : Nat) (rest : List UInt8) :
    decode.go (fuel + 1) (String.utf8EncodeChar c ++ rest) = some c :: decode.go fuel rest := by
  have valid : c.val.toNat < 0xD800 ∨ 0xDFFF < c.val.toNat ∧ c.val.toNat < 0x110000 := c.valid
  have back : Char.ofNat c.val.toNat = c := Char.ofNat_toNat c
  unfold String.utf8EncodeChar
  dsimp only
  generalize c.val.toNat = v at valid back ⊢
  -- the encoder's four branches; in each, the lead byte, the continuation
  -- bytes, and the scalar they spell
  split_ifs with one two three
  · rw [List.singleton_append, decode.go, leadInfo_one (by rw [UInt8.toNat_ofNat']; omega)]
    simp only [Nat.sub_self, contCount, if_true, scalar, UInt8.toNat_ofNat', List.drop_zero]
    rw [Nat.mod_eq_of_lt (by omega), back]
  · simp only [List.cons_append, List.nil_append, decode.go]
    rw [leadInfo_two (by rw [UInt8.toNat_ofNat']; omega) (by rw [UInt8.toNat_ofNat']; omega)]
    dsimp only
    rw [contCount_continuation, contCount]
    simp only [scalar, UInt8.toNat_ofNat', if_true, Nat.zero_add, List.drop_one, List.tail_cons]
    have spelled : (v / 64 % 32 + 192) % 2 ^ 8 % 32 * 64 + (v % 64 + 128) % 2 ^ 8 % 64 = v := by omega
    rw [spelled, back]
  · simp only [List.cons_append, List.nil_append, decode.go]
    rw [leadInfo_three (by rw [UInt8.toNat_ofNat']; omega) (by rw [UInt8.toNat_ofNat']; omega)]
    dsimp only
    -- the second byte meets the narrowed ranges: no overlong form, no surrogate
    rw [contCount_cons (by split_ifs <;> simp only [UInt8.toNat_ofNat', UInt8.reduceToNat] at * <;> omega)
        (by split_ifs <;> simp only [UInt8.toNat_ofNat', UInt8.reduceToNat] at * <;> omega),
      contCount_continuation, contCount]
    simp only [scalar, UInt8.toNat_ofNat', if_true]
    have spelled : (v / 4096 % 16 + 224) % 2 ^ 8 % 16 * 4096 + (v / 64 % 64 + 128) % 2 ^ 8 % 64 * 64 +
        (v % 64 + 128) % 2 ^ 8 % 64 = v := by omega
    rw [spelled, back]
    rfl
  · simp only [List.cons_append, List.nil_append, decode.go]
    rw [leadInfo_four (by rw [UInt8.toNat_ofNat']; omega) (by rw [UInt8.toNat_ofNat']; omega)]
    dsimp only
    -- the second byte meets the narrowed ranges: no overlong form, nothing past 10FFFF
    rw [contCount_cons (by split_ifs <;> simp only [UInt8.toNat_ofNat', UInt8.reduceToNat] at * <;> omega)
        (by split_ifs <;> simp only [UInt8.toNat_ofNat', UInt8.reduceToNat] at * <;> omega),
      contCount_continuation, contCount_continuation, contCount]
    simp only [scalar, UInt8.toNat_ofNat', if_true]
    have spelled : (v / 262144 % 8 + 240) % 2 ^ 8 % 8 * 262144 + (v / 4096 % 64 + 128) % 2 ^ 8 % 64 * 4096 +
        (v / 64 % 64 + 128) % 2 ^ 8 % 64 * 64 + (v % 64 + 128) % 2 ^ 8 % 64 = v := by omega
    rw [spelled, back]
    rfl

theorem encode_cons (c : Char) (s : List Char) : encode (c :: s) = String.utf8EncodeChar c ++ encode s :=
  List.flatMap_cons

@[simp] theorem length_encode_cons (c : Char) (s : List Char) :
    (encode (c :: s)).length = c.utf8Size + (encode s).length := by
  rw [encode_cons, List.length_append, String.length_utf8EncodeChar]

/-- Decoding reads back every encoded character. -/
theorem decode_encode (s : List Char) : decode (encode s) = s.map some := by
  unfold decode
  -- the fuel counts turns, one per character, and the bytes outnumber them
  suffices run : ∀ fuel, (encode s).length ≤ fuel → decode.go fuel (encode s) = s.map some from
    run _ (Nat.le_refl _)
  induction s with
  | nil =>
    intro fuel _
    cases fuel <;> rfl
  | cons c s ih =>
    intro fuel enough
    have size := Char.utf8Size_pos c
    rw [length_encode_cons] at enough
    obtain ⟨fuel, rfl⟩ : ∃ f, fuel = f + 1 := ⟨fuel - 1, by omega⟩
    rw [encode_cons, decode_go_utf8EncodeChar, ih fuel (by omega), List.map_cons]

@[simp] theorem fromUtf8Lossy_encode (s : List Char) : fromUtf8Lossy (encode s) = s := by
  rw [fromUtf8Lossy, decode_encode, List.map_map]
  exact List.map_id'' (fun _ => rfl) s

/-- Only NUL encodes to a zero byte. -/
theorem eq_zero_of_mem_utf8EncodeChar {c : Char} (zero : (0 : UInt8) ∈ String.utf8EncodeChar c) :
    c = '\x00' := by
  have back : Char.ofNat c.val.toNat = c := Char.ofNat_toNat c
  unfold String.utf8EncodeChar at zero
  dsimp only at zero
  generalize c.val.toNat = v at back zero
  -- every byte of a longer encoding has its top bit set
  split_ifs at zero <;>
    simp only [List.mem_cons, List.not_mem_nil, or_false, ← UInt8.toNat_inj, UInt8.toNat_ofNat',
      UInt8.reduceToNat] at zero <;> try omega
  rw [← back, show v = 0 by omega]

theorem zero_not_mem_encode {s : List Char} (noNul : '\x00' ∉ s) : (0 : UInt8) ∉ encode s := by
  intro zero
  obtain ⟨c, mem, inChar⟩ := List.mem_flatMap.mp zero
  exact noNul (eq_zero_of_mem_utf8EncodeChar inChar ▸ mem)

/-! ## Decoding inverts encoding

A piece the decoder reads as a character is a lead byte and the
continuation bytes it asks for, and that is the encoding of the character
they spell (`utf8EncodeChar_scalar`); so bytes that decode with no
ill-formed subpart are the encoding of what they decode to. -/

theorem leadInfo_eq_some {b : UInt8} {n : Nat} {lo hi : UInt8} (lead : leadInfo b = some (n, lo, hi)) :
    (n = 1 ∧ b.toNat < 0x80) ∨
    (n = 2 ∧ 0xC2 ≤ b.toNat ∧ b.toNat ≤ 0xDF ∧ lo.toNat = 0x80 ∧ hi.toNat = 0xBF) ∨
    (n = 3 ∧ 0xE0 ≤ b.toNat ∧ b.toNat ≤ 0xEF ∧ lo.toNat = (if b.toNat = 0xE0 then 0xA0 else 0x80) ∧
      hi.toNat = (if b.toNat = 0xED then 0x9F else 0xBF)) ∨
    (n = 4 ∧ 0xF0 ≤ b.toNat ∧ b.toNat ≤ 0xF4 ∧ lo.toNat = (if b.toNat = 0xF0 then 0x90 else 0x80) ∧
      hi.toNat = (if b.toNat = 0xF4 then 0x8F else 0xBF)) := by
  by_cases one : b.toNat < 0x80
  · rw [leadInfo_one one, Option.some.injEq, Prod.mk.injEq] at lead
    exact .inl ⟨lead.1.symm, one⟩
  by_cases two : 0xC2 ≤ b.toNat ∧ b.toNat ≤ 0xDF
  · rw [leadInfo_two two.1 two.2, Option.some.injEq] at lead
    simp only [Prod.mk.injEq] at lead
    obtain ⟨rfl, rfl, rfl⟩ := lead
    exact .inr (.inl ⟨rfl, two.1, two.2, rfl, rfl⟩)
  by_cases three : 0xE0 ≤ b.toNat ∧ b.toNat ≤ 0xEF
  · rw [leadInfo_three three.1 three.2, Option.some.injEq] at lead
    simp only [Prod.mk.injEq] at lead
    obtain ⟨rfl, rfl, rfl⟩ := lead
    refine .inr (.inr (.inl ⟨rfl, three.1, three.2, ?_, ?_⟩)) <;> split_ifs <;> rfl
  by_cases four : 0xF0 ≤ b.toNat ∧ b.toNat ≤ 0xF4
  · rw [leadInfo_four four.1 four.2, Option.some.injEq] at lead
    simp only [Prod.mk.injEq] at lead
    obtain ⟨rfl, rfl, rfl⟩ := lead
    refine .inr (.inr (.inr ⟨rfl, four.1, four.2, ?_, ?_⟩)) <;> split_ifs <;> rfl
  -- every other byte starts no sequence
  unfold leadInfo at lead
  simp only [UInt8.lt_iff_toNat_lt, UInt8.le_iff_toNat_le, beq_iff_eq, ← UInt8.toNat_inj,
    Bool.and_eq_true, decide_eq_true_eq, UInt8.reduceToNat] at lead
  rw [if_neg one, if_neg two, if_neg (by omega), if_neg (by omega), if_neg (by omega), if_neg (by omega),
    if_neg (by omega), if_neg (by omega), if_neg (by omega)] at lead
  cases lead

/-- A count that reaches `k + 1` takes the first byte, in range, and `k`
more after it. -/
theorem contCount_eq_succ {lo hi : UInt8} {k : Nat} {bytes : List UInt8}
    (good : contCount lo hi (k + 1) bytes = k + 1) :
    ∃ b rest, bytes = b :: rest ∧ lo.toNat ≤ b.toNat ∧ b.toNat ≤ hi.toNat ∧ contCount 0x80 0xBF k rest = k := by
  cases bytes with
  | nil => simp [contCount] at good
  | cons b rest =>
    unfold contCount at good
    split_ifs at good with inRange
    · simp only [Bool.and_eq_true, decide_eq_true_eq, UInt8.le_iff_toNat_le] at inRange
      exact ⟨b, rest, rfl, inRange.1, inRange.2, by omega⟩

theorem toNat_ofNat_of_valid {v : Nat} (valid : v < 0xD800 ∨ 0xDFFF < v ∧ v < 0x110000) :
    (Char.ofNat v).val.toNat = v := by
  unfold Char.ofNat
  rw [dif_pos valid]
  rfl

theorem ofNat_eq_iff {x : Nat} {b : UInt8} : UInt8.ofNat x = b ↔ x % 256 = b.toNat := by
  rw [← UInt8.toNat_inj, UInt8.toNat_ofNat']

/-- A well-formed sequence is the encoding of the character it spells:
the lead byte and the `n - 1` continuation bytes after it. -/
theorem utf8EncodeChar_scalar {b : UInt8} {rest : List UInt8} {n : Nat} {lo hi : UInt8}
    (lead : leadInfo b = some (n, lo, hi)) (good : contCount lo hi (n - 1) rest = n - 1) :
    String.utf8EncodeChar (Char.ofNat (scalar n (b :: rest))) = b :: rest.take (n - 1) := by
  unfold String.utf8EncodeChar
  dsimp only
  -- one case for each length the lead byte asks for; in each, the bytes
  -- spell a valid scalar in the range the encoder writes with that length
  rcases leadInfo_eq_some lead with ⟨rfl, one⟩ | ⟨rfl, two, two', lo2, hi2⟩ |
      ⟨rfl, three, three', lo3, hi3⟩ | ⟨rfl, four, four', lo4, hi4⟩
  · have spelled : scalar 1 (b :: rest) = b.toNat := rfl
    rw [spelled, toNat_ofNat_of_valid (by omega), if_pos (by omega), UInt8.ofNat_toNat]
    rfl
  · obtain ⟨b₁, r, rfl, lo₁, hi₁, -⟩ := contCount_eq_succ (k := 0) good
    have spelled : scalar 2 (b :: b₁ :: r) = b.toNat % 32 * 64 + b₁.toNat % 64 := rfl
    have small := UInt8.toNat_lt b
    rw [spelled, toNat_ofNat_of_valid (by omega), if_neg (by omega), if_pos (by omega)]
    simp only [List.take_succ_cons, List.take_zero, List.cons.injEq, ofNat_eq_iff, and_true]
    omega
  · obtain ⟨b₁, r, rfl, lo₁, hi₁, good⟩ := contCount_eq_succ (k := 1) good
    obtain ⟨b₂, r, rfl, lo₂, hi₂, -⟩ := contCount_eq_succ (k := 0) good
    simp only [UInt8.reduceToNat] at lo₂ hi₂
    -- the narrowed ranges of E0 and ED: no overlong form, no surrogate
    have second : 0x80 ≤ b₁.toNat ∧ b₁.toNat ≤ 0xBF ∧ (b.toNat = 0xE0 → 0xA0 ≤ b₁.toNat) ∧
        (b.toNat = 0xED → b₁.toNat ≤ 0x9F) := by
      split_ifs at lo3 hi3 <;> omega
    have spelled : scalar 3 (b :: b₁ :: b₂ :: r) =
        b.toNat % 16 * 4096 + b₁.toNat % 64 * 64 + b₂.toNat % 64 := rfl
    have small := UInt8.toNat_lt b
    rw [spelled, toNat_ofNat_of_valid (by omega), if_neg (by omega), if_neg (by omega), if_pos (by omega)]
    simp only [List.take_succ_cons, List.take_zero, List.cons.injEq, ofNat_eq_iff, and_true]
    omega
  · obtain ⟨b₁, r, rfl, lo₁, hi₁, good⟩ := contCount_eq_succ (k := 2) good
    obtain ⟨b₂, r, rfl, lo₂, hi₂, good⟩ := contCount_eq_succ (k := 1) good
    obtain ⟨b₃, r, rfl, lo₃, hi₃, -⟩ := contCount_eq_succ (k := 0) good
    simp only [UInt8.reduceToNat] at lo₂ hi₂ lo₃ hi₃
    -- the narrowed ranges of F0 and F4: no overlong form, nothing past 10FFFF
    have second : 0x80 ≤ b₁.toNat ∧ b₁.toNat ≤ 0xBF ∧ (b.toNat = 0xF0 → 0x90 ≤ b₁.toNat) ∧
        (b.toNat = 0xF4 → b₁.toNat ≤ 0x8F) := by
      split_ifs at lo4 hi4 <;> omega
    have spelled : scalar 4 (b :: b₁ :: b₂ :: b₃ :: r) =
        b.toNat % 8 * 262144 + b₁.toNat % 64 * 4096 + b₂.toNat % 64 * 64 + b₃.toNat % 64 := rfl
    have small := UInt8.toNat_lt b
    rw [spelled, toNat_ofNat_of_valid (by omega), if_neg (by omega), if_neg (by omega), if_neg (by omega)]
    simp only [List.take_succ_cons, List.take_zero, List.cons.injEq, ofNat_eq_iff, and_true]
    omega

theorem mapM_id_some_cons {c : Char} {l : List (Option Char)} {s : List Char}
    (chars : (some c :: l).mapM id = some s) : ∃ s', l.mapM id = some s' ∧ s = c :: s' := by
  simp only [List.mapM_cons, id_eq, Option.pure_def, Option.bind_eq_bind, Option.bind_some] at chars
  obtain ⟨s', found, joined⟩ := Option.bind_eq_some_iff.mp chars
  exact ⟨s', found, (Option.some.inj joined).symm⟩

theorem mapM_id_none_cons (l : List (Option Char)) (s : List Char) : (none :: l).mapM id ≠ some s := by
  simp only [List.mapM_cons, id_eq, Option.pure_def, Option.bind_eq_bind, Option.bind_none, ne_eq,
    reduceCtorEq, not_false_eq_true]

/-- What the decoder reads as characters only is the encoding of them. -/
theorem encode_of_decode_go (fuel : Nat) {bytes : List UInt8} {s : List Char}
    (enough : bytes.length ≤ fuel) (chars : (decode.go fuel bytes).mapM id = some s) : encode s = bytes := by
  -- on the fuel: each turn reads one piece off the front
  induction fuel generalizing bytes s with
  | zero =>
    rw [List.eq_nil_of_length_eq_zero (Nat.le_zero.mp enough)] at chars ⊢
    cases chars
    rfl
  | succ fuel ih =>
    cases bytes with
    | nil =>
      cases chars
      rfl
    | cons b rest =>
      rw [decode.go] at chars
      cases lead : leadInfo b with
      | none =>
        simp only [lead] at chars
        exact absurd chars (mapM_id_none_cons _ _)
      | some info =>
        obtain ⟨n, lo, hi⟩ := info
        simp only [lead] at chars
        by_cases good : contCount lo hi (n - 1) rest = n - 1
        · rw [if_pos good] at chars
          obtain ⟨s', found, rfl⟩ := mapM_id_some_cons chars
          have shorter : (rest.drop (contCount lo hi (n - 1) rest)).length ≤ fuel := by
            rw [List.length_drop]
            simp only [List.length_cons] at enough
            omega
          rw [encode_cons, utf8EncodeChar_scalar lead good, ih shorter found, good, List.cons_append,
            List.take_append_drop]
        · rw [if_neg good] at chars
          exact absurd chars (mapM_id_none_cons _ _)

/-- What `from_utf8` accepts encodes back to the bytes it was given. -/
theorem encode_of_fromUtf8 {bytes : List UInt8} {s : List Char} (decoded : fromUtf8 bytes = some s) :
    encode s = bytes :=
  encode_of_decode_go bytes.length (Nat.le_refl _) decoded

@[simp] theorem fromUtf8_encode (s : List Char) : fromUtf8 (encode s) = some s := by
  rw [fromUtf8, decode_encode]
  induction s with
  | nil => rfl
  | cons c s ih =>
    simp only [List.map_cons, List.mapM_cons, id_eq, Option.pure_def, Option.bind_eq_bind, Option.bind_some, ih]

theorem encode_injective : Function.Injective encode := fun a b same =>
  Option.some.inj (by rw [← fromUtf8_encode a, same, fromUtf8_encode])

/-- `from_utf8` is the inverse of the encoding, on all of its domain. -/
theorem fromUtf8_eq_some_iff {bytes : List UInt8} {s : List Char} : fromUtf8 bytes = some s ↔ encode s = bytes :=
  ⟨encode_of_fromUtf8, fun encoded => encoded ▸ fromUtf8_encode s⟩

end OspabOs.Text
