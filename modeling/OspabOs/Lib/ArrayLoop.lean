import Mathlib.Logic.Function.Basic
import Mathlib.Data.List.GetD

/-!
# In-place loops over arrays

A fixed-size array is modelled as a function `Nat → α` from index to
element, and a write `a[i] = x` is `Function.update a i x`; `window a n`
is the slice `a[..n]` as a list. The code this library serves moves
blocks of an array by hand, with loops whose ORDER matters when source
and target overlap:

- `shiftUp a lo hi k` is `for i in (lo..hi).rev() { a[i + k] = a[i] }`;
- `shiftUpPrev a lo hi` is `for i in (lo..hi).rev() { a[i] = a[i - 1] }`;
- `shiftDown a lo hi` is `for i in lo..hi { a[i - 1] = a[i] }`;
- `writeList a start xs` is `for (i, x) in xs.enumerate() { a[start + i] = x }`.

Each loop reads only cells it has not yet written, so each has a closed
form (`shiftUp_apply` and its siblings), and from those the two list
laws a line editor needs: writing `xs` into a gap opened at `start`
inserts it into the window (`window_insert`), and shifting down over a
cell deletes it (`window_delete`).
-/

namespace OspabOs.ArrayLoop

variable {α : Type}

/-- The slice `a[..n]`. -/
def window (a : Nat → α) (n : Nat) : List α :=
  (List.range n).map a

/-- The slice `a[lo..hi]`. -/
def slice (a : Nat → α) (lo hi : Nat) : List α :=
  (List.range' lo (hi - lo)).map a

/-- `for i in (lo..hi).rev() { a[i + k] = a[i] }`. -/
def shiftUp (a : Nat → α) (lo hi k : Nat) : Nat → α :=
  (List.range' lo (hi - lo)).reverse.foldl (fun b i => Function.update b (i + k) (b i)) a

/-- `for i in (lo..hi).rev() { a[i] = a[i - 1] }`. -/
def shiftUpPrev (a : Nat → α) (lo hi : Nat) : Nat → α :=
  (List.range' lo (hi - lo)).reverse.foldl (fun b i => Function.update b i (b (i - 1))) a

/-- `for i in lo..hi { a[i - 1] = a[i] }`. -/
def shiftDown (a : Nat → α) (lo hi : Nat) : Nat → α :=
  (List.range' lo (hi - lo)).foldl (fun b i => Function.update b (i - 1) (b i)) a

/-- `for (i, x) in xs.enumerate() { a[start + i] = x }`. -/
def writeList (a : Nat → α) (start : Nat) : List α → Nat → α
  | [] => a
  | x :: xs => writeList (Function.update a start x) (start + 1) xs

/-! ## Windows -/

@[simp] theorem length_window (a : Nat → α) (n : Nat) : (window a n).length = n := by
  simp [window]

@[simp] theorem getElem_window (a : Nat → α) (n j : Nat) (lt : j < (window a n).length) :
    (window a n)[j] = a j := by
  simp [window]

/-- A window reads only the cells below its length. -/
theorem window_congr {a b : Nat → α} {n : Nat} (agree : ∀ j < n, a j = b j) : window a n = window b n := by
  apply List.ext_getElem (by simp)
  intro j lt _
  simp only [getElem_window]
  exact agree j (by simpa using lt)

theorem window_succ (a : Nat → α) (n : Nat) : window a (n + 1) = window a n ++ [a n] := by
  simp [window, List.range_succ]

theorem getD_window (a : Nat → α) {i n : Nat} (lt : i < n) (d : α) : (window a n).getD i d = a i := by
  rw [List.getD_eq_getElem _ _ (by simpa using lt), getElem_window]

theorem take_window (a : Nat → α) (m n : Nat) : (window a n).take m = window a (min m n) := by
  apply List.ext_getElem (by simp)
  intro j _ _
  simp

@[simp] theorem slice_self (a : Nat → α) (n : Nat) : slice a n n = [] := by
  simp [slice]

theorem slice_succ (a : Nat → α) {lo n : Nat} (le : lo ≤ n) : slice a lo (n + 1) = slice a lo n ++ [a n] := by
  rw [slice, show n + 1 - lo = n - lo + 1 by omega, List.range'_concat, Nat.one_mul,
    show lo + (n - lo) = n by omega, List.map_append, List.map_singleton, slice]

/-! ## Closed forms of the loops -/

/-- `n` steps of `shiftUp`'s loop from `lo`, the last index first. -/
private theorem foldl_shiftUp (lo k : Nat) (j : Nat) :
    ∀ (n : Nat) (a : Nat → α),
      (List.range' lo n).reverse.foldl (fun b i => Function.update b (i + k) (b i)) a j =
        if lo + k ≤ j ∧ j < lo + n + k then a (j - k) else a j := by
  intro n
  induction n with
  | zero =>
    intro a
    rw [if_neg (by omega)]
    rfl
  | succ n ih =>
    intro a
    rw [List.range'_concat, Nat.one_mul, List.reverse_append, List.reverse_singleton, List.singleton_append,
      List.foldl_cons, ih]
    -- the first write is to `lo + n + k`, above every cell the rest reads
    by_cases below : lo + k ≤ j ∧ j < lo + n + k
    · rw [if_pos below, if_pos (by omega), Function.update_of_ne (by omega)]
    · rw [if_neg below, Function.update_apply]
      by_cases top : j = lo + n + k
      · rw [if_pos top, if_pos (by omega)]
        congr 1
        omega
      · rw [if_neg top, if_neg (by omega)]

/-- Moving `[lo, hi)` up by `k` going down: every cell of `[lo + k, hi + k)`
gets what was `k` below it. -/
theorem shiftUp_apply (a : Nat → α) (lo hi k j : Nat) :
    shiftUp a lo hi k j = if lo + k ≤ j ∧ j < hi + k then a (j - k) else a j := by
  unfold shiftUp
  rw [foldl_shiftUp]
  by_cases le : lo ≤ hi
  · rw [show lo + (hi - lo) = hi by omega]
  · have empty : ¬ (lo + k ≤ j ∧ j < hi + k) := by omega
    rw [if_neg (by omega), if_neg empty]

/-- Over an empty range the loop does nothing. -/
theorem shiftUp_of_le (a : Nat → α) {lo hi : Nat} (k : Nat) (le : hi ≤ lo) : shiftUp a lo hi k = a := by
  simp [shiftUp, Nat.sub_eq_zero_of_le le]

/-- `n` steps of `shiftUpPrev`'s loop from `lo`, the last index first. -/
private theorem foldl_shiftUpPrev (lo : Nat) (j : Nat) :
    ∀ (n : Nat) (a : Nat → α),
      (List.range' lo n).reverse.foldl (fun b i => Function.update b i (b (i - 1))) a j =
        if lo ≤ j ∧ j < lo + n then a (j - 1) else a j := by
  intro n
  induction n with
  | zero =>
    intro a
    rw [if_neg (by omega)]
    rfl
  | succ n ih =>
    intro a
    rw [List.range'_concat, Nat.one_mul, List.reverse_append, List.reverse_singleton, List.singleton_append,
      List.foldl_cons, ih]
    by_cases below : lo ≤ j ∧ j < lo + n
    · rw [if_pos below, if_pos (by omega), Function.update_of_ne (by omega)]
    · rw [if_neg below, Function.update_apply]
      by_cases top : j = lo + n
      · rw [if_pos top, if_pos (by omega)]
        congr 1
        omega
      · rw [if_neg top, if_neg (by omega)]

/-- Every cell of `[lo, hi)` gets the one below it. -/
theorem shiftUpPrev_apply (a : Nat → α) (lo hi j : Nat) :
    shiftUpPrev a lo hi j = if lo ≤ j ∧ j < hi then a (j - 1) else a j := by
  unfold shiftUpPrev
  rw [foldl_shiftUpPrev]
  by_cases le : lo ≤ hi
  · rw [show lo + (hi - lo) = hi by omega]
  · have empty : ¬ (lo ≤ j ∧ j < hi) := by omega
    rw [if_neg (by omega), if_neg empty]

/-- Two arrays moved by the same loop, read together, are their pointwise
combination moved by that loop. -/
theorem shiftUpPrev_map₂ {β γ : Type} (f : α → β → γ) (a : Nat → α) (b : Nat → β) (lo hi j : Nat) :
    f (shiftUpPrev a lo hi j) (shiftUpPrev b lo hi j) = shiftUpPrev (fun i => f (a i) (b i)) lo hi j := by
  rw [shiftUpPrev_apply, shiftUpPrev_apply, shiftUpPrev_apply]
  by_cases moved : lo ≤ j ∧ j < hi
  · rw [if_pos moved, if_pos moved, if_pos moved]
  · rw [if_neg moved, if_neg moved, if_neg moved]

/-- `n` steps of `shiftDown`'s loop from `lo`, the first index first. -/
private theorem foldl_shiftDown {lo : Nat} (pos : 0 < lo) :
    ∀ (n : Nat) (a : Nat → α) (j : Nat),
      (List.range' lo n).foldl (fun b i => Function.update b (i - 1) (b i)) a j =
        if lo ≤ j + 1 ∧ j + 1 < lo + n then a (j + 1) else a j := by
  intro n
  induction n with
  | zero =>
    intro a j
    rw [if_neg (by omega)]
    rfl
  | succ n ih =>
    intro a j
    rw [List.range'_concat, Nat.one_mul, List.foldl_append, List.foldl_cons, List.foldl_nil,
      Function.update_apply]
    -- the last write is to `lo + n - 1`, from a cell no earlier write touched
    by_cases top : j = lo + n - 1
    · rw [if_pos top, if_pos (by omega), ih, if_neg (by omega)]
      congr 1
      omega
    · rw [if_neg top, ih]
      by_cases below : lo ≤ j + 1 ∧ j + 1 < lo + n
      · rw [if_pos below, if_pos (by omega)]
      · rw [if_neg below, if_neg (by omega)]

/-- Every cell of `[lo - 1, hi - 1)` gets the one above it. -/
theorem shiftDown_apply (a : Nat → α) {lo : Nat} (pos : 0 < lo) (hi j : Nat) :
    shiftDown a lo hi j = if lo ≤ j + 1 ∧ j + 1 < hi then a (j + 1) else a j := by
  unfold shiftDown
  rw [foldl_shiftDown pos]
  by_cases le : lo ≤ hi
  · rw [show lo + (hi - lo) = hi by omega]
  · have empty : ¬ (lo ≤ j + 1 ∧ j + 1 < hi) := by omega
    rw [if_neg (by omega), if_neg empty]

/-- The cells `[start, start + xs.length)` hold `xs`. -/
theorem writeList_apply (a : Nat → α) (start : Nat) (xs : List α) (j : Nat) :
    writeList a start xs j = if start ≤ j ∧ j < start + xs.length then xs.getD (j - start) (a j) else a j := by
  induction xs generalizing a start with
  | nil => simp [writeList]
  | cons x xs ih =>
    rw [writeList, ih, List.length_cons]
    by_cases here : j = start
    · subst here
      rw [if_neg (by omega), if_pos (by omega), Nat.sub_self, List.getD_cons_zero, Function.update_self]
    · rw [Function.update_of_ne here]
      by_cases inside : start + 1 ≤ j ∧ j < start + 1 + xs.length
      · obtain ⟨m, rfl⟩ : ∃ m, j = start + 1 + m := ⟨j - (start + 1), by omega⟩
        rw [if_pos inside, if_pos (by omega), show start + 1 + m - start = m + 1 by omega,
          List.getD_cons_succ, Nat.add_sub_cancel_left]
      · rw [if_neg inside, if_neg (by omega)]

/-- A window read back where a list was just written is the list. -/
theorem window_writeList (a : Nat → α) (start : Nat) (xs : List α) :
    window (fun i => writeList a start xs (start + i)) xs.length = xs := by
  apply List.ext_getElem (length_window _ _)
  intro j lt _
  rw [length_window] at lt
  rw [getElem_window, writeList_apply, if_pos (by omega), Nat.add_sub_cancel_left, List.getD_eq_getElem]

/-- The front of a window read back where a list was just written. -/
theorem window_writeList_append (a : Nat → α) (start : Nat) (xs ys : List α) :
    window (fun i => writeList a start (xs ++ ys) (start + i)) xs.length = xs := by
  calc window (fun i => writeList a start (xs ++ ys) (start + i)) xs.length
      = (window (fun i => writeList a start (xs ++ ys) (start + i)) (xs ++ ys).length).take xs.length := by
        rw [take_window, Nat.min_eq_left (by simp)]
    _ = xs := by rw [window_writeList, List.take_left' rfl]

/-- A window of `m + n` cells: the first `m`, then the `n` after them. -/
theorem window_add (a : Nat → α) (m n : Nat) : window a (m + n) = window a m ++ window (fun i => a (m + i)) n := by
  unfold window
  rw [List.range_add, List.map_append, List.map_map]
  rfl

/-! ## What the loops do to a window -/

/-- Opening a gap of `xs.length` cells at `start` and writing `xs` into it
inserts `xs` into the window. -/
theorem window_insert (a : Nat → α) {start len : Nat} (le : start ≤ len) (xs : List α) :
    window (writeList (shiftUp a start len xs.length) start xs) (len + xs.length) =
      (window a len).take start ++ xs ++ (window a len).drop start := by
  apply List.ext_getElem (by simp; omega)
  intro j lt _
  simp only [length_window] at lt
  rw [getElem_window, writeList_apply, shiftUp_apply]
  by_cases front : j < start
  · rw [if_neg (by omega), if_neg (by omega), List.getElem_append_left (by simp; omega),
      List.getElem_append_left (by simp; omega), List.getElem_take, getElem_window]
  · by_cases middle : j < start + xs.length
    · rw [if_pos (by omega), List.getElem_append_left (by simp; omega),
        List.getElem_append_right (by simp; omega), List.getD_eq_getElem _ _ (by omega)]
      simp only [List.length_take, length_window, show min start len = start by omega]
    · rw [if_neg (by omega), if_pos (by omega), List.getElem_append_right (by simp; omega)]
      simp only [List.getElem_drop, getElem_window, List.length_append, List.length_take, length_window]
      congr 1
      omega

/-- Moving `[1, n)` up one and writing `x` at 0 pushes `x` on the window,
whose last cell falls off. -/
theorem window_push (a : Nat → α) (x : α) {n : Nat} (pos : 0 < n) :
    window (Function.update (shiftUpPrev a 1 n) 0 x) n = x :: window a (n - 1) := by
  apply List.ext_getElem (by simp; omega)
  intro j lt _
  simp only [length_window] at lt
  rw [getElem_window]
  cases j with
  | zero => rw [Function.update_self, List.getElem_cons_zero]
  | succ j =>
    rw [Function.update_of_ne (Nat.succ_ne_zero j), shiftUpPrev_apply, if_pos ⟨by omega, lt⟩,
      List.getElem_cons_succ, getElem_window]
    rfl

/-- Moving `[pos, len)` down over cell `pos - 1` deletes that cell from the
window. -/
theorem window_delete (a : Nat → α) {pos len : Nat} (positive : 0 < pos) (le : pos ≤ len) :
    window (shiftDown a pos len) (len - 1) = (window a len).take (pos - 1) ++ (window a len).drop pos := by
  apply List.ext_getElem (by simp; omega)
  intro j lt _
  simp only [length_window] at lt
  rw [getElem_window, shiftDown_apply a positive]
  by_cases front : j + 1 < pos
  · rw [if_neg (by omega), List.getElem_append_left (by simp; omega)]
    simp
  · rw [if_pos (by omega), List.getElem_append_right (by simp; omega)]
    simp only [List.getElem_drop, getElem_window, List.length_take, length_window]
    congr 1
    omega

end OspabOs.ArrayLoop
