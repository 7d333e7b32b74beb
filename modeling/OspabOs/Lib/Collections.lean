import OspabOs.Lib.Outcome
import OspabOs.Lib.Text

/-!
# `Vec` and `String` operations that panic

A `Vec<T>` is a list, and a `String` the list of its characters, as in
`Lib.Text`. Rust indexes a `String` by BYTE offsets, though, and asserts
that an offset is a char boundary before it inserts, removes or splits
there; each operation below returns `Outcome.panic` exactly where the
standard library's documentation says it panics:

- `Vec.index` (`v[i]`), `Vec.remove`, `Vec.insert` and `Vec.slice`
  (`&v[lo..hi]`) out of bounds, and `Vec.slice` with `lo > hi`;
- `Str.insert`, `Str.remove` and `Str.splitOff` off a char boundary, and
  `Str.remove` at the end of the string;
- `Str.slice` (`&s[lo..hi]`) off a char boundary or with `lo > hi`.

`Str.charIndex?` turns a byte offset into the index of the character it
starts. The lemmas give each operation's effect on lengths, which is what
a cursor kept as a byte offset needs.
-/

namespace OspabOs

variable {ε α : Type}

namespace Vec

/-- `v[i]`. -/
def index (xs : List α) (i : Nat) : Outcome ε α :=
  match xs[i]? with
  | some x => .ok x
  | none => .panic

/-- `Vec::remove`: the element at `i` and the rest. -/
def remove (xs : List α) (i : Nat) : Outcome ε (α × List α) :=
  match xs[i]? with
  | some x => .ok (x, xs.eraseIdx i)
  | none => .panic

/-- `Vec::insert`: `x` at `i`, for `i ≤ len`. -/
def insert (xs : List α) (i : Nat) (x : α) : Outcome ε (List α) :=
  if i ≤ xs.length then .ok (xs.insertIdx i x) else .panic

/-- `&v[lo..hi]`. -/
def slice (xs : List α) (lo hi : Nat) : Outcome ε (List α) :=
  if lo ≤ hi ∧ hi ≤ xs.length then .ok ((xs.drop lo).take (hi - lo)) else .panic

theorem slice_of_le {xs : List α} {lo hi : Nat} (ordered : lo ≤ hi) (inside : hi ≤ xs.length) :
    (slice xs lo hi : Outcome ε (List α)) = .ok ((xs.drop lo).take (hi - lo)) :=
  if_pos ⟨ordered, inside⟩

@[simp] theorem index_eq_ok {xs : List α} {i : Nat} {x : α} :
    (index xs i : Outcome ε α) = .ok x ↔ xs[i]? = some x := by
  unfold index
  split <;> simp_all

@[simp] theorem index_eq_panic {xs : List α} {i : Nat} :
    (index xs i : Outcome ε α) = .panic ↔ xs.length ≤ i := by
  unfold index
  split
  · next found => simpa using (List.getElem?_eq_some_iff.mp found).1
  · next missing => simpa using missing

theorem index_of_lt {xs : List α} {i : Nat} (lt : i < xs.length) :
    (index xs i : Outcome ε α) = .ok xs[i] :=
  index_eq_ok.mpr (List.getElem?_eq_getElem lt)

theorem remove_eq_ok {xs : List α} {i : Nat} {x : α} {rest : List α} :
    (remove xs i : Outcome ε (α × List α)) = .ok (x, rest) ↔ xs[i]? = some x ∧ rest = xs.eraseIdx i := by
  unfold remove
  cases found : xs[i]? with
  | none => simp
  | some y =>
    simp only [Outcome.ok.injEq, Prod.mk.injEq, Option.some.injEq]
    exact and_congr_right fun _ => eq_comm

theorem insert_eq_ok {xs : List α} {i : Nat} {x : α} {ys : List α} :
    (insert xs i x : Outcome ε (List α)) = .ok ys ↔ i ≤ xs.length ∧ ys = xs.insertIdx i x := by
  unfold insert
  by_cases fits : i ≤ xs.length
  · rw [if_pos fits, Outcome.ok.injEq]
    simp only [fits, true_and]
    exact eq_comm
  · rw [if_neg fits]
    simp only [fits, false_and, reduceCtorEq]

end Vec

namespace Str

/-- `str::len`: the length in bytes. -/
def len (s : List Char) : Nat := (Text.encode s).length

/-- The index of the character that byte offset `i` starts, when `i` is a
char boundary: the offset of some prefix of whole characters. -/
def charIndex? (s : List Char) (i : Nat) : Option Nat :=
  (List.range (s.length + 1)).find? (fun k => len (s.take k) == i)

/-- `str::is_char_boundary`. -/
def isCharBoundary (s : List Char) (i : Nat) : Bool := (charIndex? s i).isSome

/-- `String::insert`. -/
def insert (s : List Char) (i : Nat) (c : Char) : Outcome ε (List Char) :=
  match charIndex? s i with
  | some k => .ok (s.take k ++ c :: s.drop k)
  | none => .panic

/-- `String::remove`: off a boundary the slice `self[idx..]` panics, and at
the end there is no character to remove. -/
def remove (s : List Char) (i : Nat) : Outcome ε (List Char) :=
  match charIndex? s i with
  | some k => if k < s.length then .ok (s.eraseIdx k) else .panic
  | none => .panic

/-- `String::split_off`: the string keeps `[0, i)`, and `[i, len)` is returned. -/
def splitOff (s : List Char) (i : Nat) : Outcome ε (List Char × List Char) :=
  match charIndex? s i with
  | some k => .ok (s.take k, s.drop k)
  | none => .panic

/-- `&s[lo..hi]`: both offsets must be char boundaries, so at most the
length, and `lo ≤ hi`. -/
def slice (s : List Char) (lo hi : Nat) : Outcome ε (List Char) :=
  match charIndex? s lo, charIndex? s hi with
  | some i, some j => if lo ≤ hi then .ok ((s.drop i).take (j - i)) else .panic
  | _, _ => .panic

/-- `str::find(c)`: the byte offset of the first `c`. -/
def find? (c : Char) : List Char → Option Nat
  | [] => none
  | x :: rest => if x = c then some 0 else (find? c rest).map (x.utf8Size + ·)

@[simp] theorem len_nil : len [] = 0 := rfl

@[simp] theorem len_cons (c : Char) (s : List Char) : len (c :: s) = c.utf8Size + len s := by
  simp [len, Text.encode, String.length_utf8EncodeChar]

@[simp] theorem len_append (s t : List Char) : len (s ++ t) = len s + len t := by
  simp [len, Text.encode]

/-- Every character is at least one byte, so a string is at least as long in
bytes as in characters. -/
theorem length_le_len (s : List Char) : s.length ≤ len s := by
  induction s with
  | nil => exact Nat.le_refl 0
  | cons c s ih =>
    have := Char.utf8Size_pos c
    simp only [List.length_cons, len_cons]
    omega

theorem charIndex?_spec {s : List Char} {i k : Nat} (found : charIndex? s i = some k) :
    k ≤ s.length ∧ len (s.take k) = i := by
  have mem := List.mem_of_find?_eq_some found
  have hit := List.find?_some found
  simp only [List.mem_range] at mem
  simp only [beq_iff_eq] at hit
  exact ⟨by omega, hit⟩

/-- A boundary is at most the length. -/
theorem le_len_of_charIndex? {s : List Char} {i k : Nat} (found : charIndex? s i = some k) : i ≤ len s := by
  obtain ⟨_, rfl⟩ := charIndex?_spec found
  have split := len_append (s.take k) (s.drop k)
  rw [List.take_append_drop] at split
  omega

/-- Inserting a character of at least one byte leaves the offset after it
inside the string. -/
theorem succ_le_len_of_insert {s t : List Char} {i : Nat} {c : Char}
    (ok : (insert s i c : Outcome ε (List Char)) = .ok t) : i + 1 ≤ len t := by
  unfold insert at ok
  split at ok
  · next k found =>
    cases ok
    obtain ⟨_, rfl⟩ := charIndex?_spec found
    have := Char.utf8Size_pos c
    simp only [len_append, len_cons]
    omega
  · cases ok

/-- No offset inside a character's bytes is a boundary. -/
theorem charIndex?_inside {c : Char} {s : List Char} {i : Nat} (pos : 0 < i) (inside : i < c.utf8Size) :
    charIndex? (c :: s) i = none := by
  apply List.find?_eq_none.mpr
  intro k _
  cases k with
  | zero => simpa using Nat.ne_of_lt pos
  | succ k =>
    simp only [List.take_succ_cons, len_cons, beq_iff_eq]
    omega

/-- Removing the character at a boundary leaves the boundary inside the
string. -/
theorem le_len_of_remove {s t : List Char} {i : Nat}
    (ok : (remove s i : Outcome ε (List Char)) = .ok t) : i ≤ len t := by
  unfold remove at ok
  split at ok
  · next k found =>
    split at ok
    · cases ok
      obtain ⟨_, rfl⟩ := charIndex?_spec found
      rw [List.eraseIdx_eq_take_drop_succ, len_append]
      omega
    · cases ok
  · cases ok

/-- A prefix of fewer characters is fewer bytes. -/
theorem len_take_lt {s : List Char} {k : Nat} (lt : k < s.length) : len (s.take k) < len s := by
  have split := len_append (s.take k) (s.drop k)
  rw [List.take_append_drop] at split
  have more : 0 < (s.drop k).length := by
    rw [List.length_drop]
    omega
  have := length_le_len (s.drop k)
  omega

/-- The byte length of a prefix is a boundary: the one after its characters. -/
theorem charIndex?_len_append (a b : List Char) : charIndex? (a ++ b) (len a) = some a.length := by
  unfold charIndex?
  rw [List.find?_range_eq_some]
  refine ⟨by simp, List.mem_range.mpr (by simp only [List.length_append]; omega), fun j lt => ?_⟩
  have shorter := len_take_lt lt
  rw [List.take_append_of_le_length (Nat.le_of_lt lt)]
  simpa using Nat.ne_of_lt shorter

/-- Slicing out the middle of a string at its byte offsets. -/
theorem slice_append (a b c : List Char) : (slice (a ++ b ++ c) (len a) (len a + len b) : Outcome ε (List Char)) = .ok b := by
  have lo : charIndex? (a ++ b ++ c) (len a) = some a.length := by
    rw [List.append_assoc]
    exact charIndex?_len_append a (b ++ c)
  have hi : charIndex? (a ++ b ++ c) (len a + len b) = some (a ++ b).length := by
    rw [← len_append]
    exact charIndex?_len_append (a ++ b) c
  unfold slice
  rw [lo, hi]
  dsimp only
  rw [if_pos (Nat.le_add_right _ _), List.length_append, Nat.add_sub_cancel_left, List.append_assoc,
    List.drop_left, List.take_left]

/-- The prefix before a byte offset. -/
theorem slice_prefix (a c : List Char) : (slice (a ++ c) 0 (len a) : Outcome ε (List Char)) = .ok a := by
  have whole := slice_append (ε := ε) [] a c
  rwa [List.nil_append, len_nil, Nat.zero_add] at whole

/-- The suffix after a byte offset. -/
theorem slice_suffix (a c : List Char) :
    (slice (a ++ c) (len a) (len (a ++ c)) : Outcome ε (List Char)) = .ok c := by
  have whole := slice_append (ε := ε) a c []
  rwa [List.append_nil, ← len_append] at whole

/-- A slice that starts after it ends panics. -/
theorem slice_of_lt {s : List Char} {lo hi : Nat} (backwards : hi < lo) : (slice s lo hi : Outcome ε (List Char)) = .panic := by
  unfold slice
  split
  · exact if_neg (Nat.not_le.mpr backwards)
  · rfl

/-- The first `c` is at the byte length of what comes before it. -/
theorem find?_append_cons {c : Char} {a : List Char} (absent : c ∉ a) (rest : List Char) :
    find? c (a ++ c :: rest) = some (len a) := by
  induction a with
  | nil => simp [find?]
  | cons x a ih =>
    have other : x ≠ c := fun same => absent (same ▸ List.mem_cons_self)
    rw [List.cons_append, find?, if_neg other, ih (fun mem => absent (List.mem_cons_of_mem x mem))]
    simp

theorem find?_eq_none {c : Char} {s : List Char} (absent : c ∉ s) : find? c s = none := by
  induction s with
  | nil => rfl
  | cons x s ih =>
    have other : x ≠ c := fun same => absent (same ▸ List.mem_cons_self)
    rw [find?, if_neg other, ih (fun mem => absent (List.mem_cons_of_mem x mem))]
    rfl

/-- A character the string holds has a first occurrence. -/
theorem exists_first_of_mem {c : Char} {s : List Char} (mem : c ∈ s) :
    ∃ a rest, s = a ++ c :: rest ∧ c ∉ a := by
  induction s with
  | nil => cases mem
  | cons x s ih =>
    by_cases same : x = c
    · exact ⟨[], s, by rw [same]; rfl, List.not_mem_nil⟩
    · obtain ⟨a, rest, split, absent⟩ := ih ((List.mem_cons.mp mem).resolve_left (Ne.symm same))
      refine ⟨x :: a, rest, by rw [split]; rfl, fun found => ?_⟩
      rcases List.mem_cons.mp found with here | later
      · exact same here.symm
      · exact absent later

/-- Where `find?` finds `c`, the string is cut at its first `c`. -/
theorem find?_eq_some {c : Char} {s : List Char} {i : Nat} (found : find? c s = some i) :
    ∃ a rest, s = a ++ c :: rest ∧ c ∉ a ∧ i = len a := by
  induction s generalizing i with
  | nil => cases found
  | cons x s ih =>
    unfold find? at found
    by_cases same : x = c
    · rw [if_pos same, Option.some_inj] at found
      exact ⟨[], s, by rw [same]; rfl, List.not_mem_nil, found.symm⟩
    · rw [if_neg same] at found
      obtain ⟨k, later, rfl⟩ := Option.map_eq_some_iff.mp found
      obtain ⟨a, rest, split, absent, rfl⟩ := ih later
      refine ⟨x :: a, rest, by rw [split]; rfl, ?_, by simp⟩
      rintro (_ | ⟨_, mem⟩)
      · exact same rfl
      · exact absent mem

end Str

end OspabOs
