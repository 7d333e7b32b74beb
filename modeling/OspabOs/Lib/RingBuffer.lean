import Mathlib
import OspabOs.Lib.ArrayLoop

/-!
# Ring buffers with one slot kept empty

A ring of `n` slots is an array `buf : Nat → α` with two indices below
`n`: the consumer's `head` and the producer's `tail`. Both advance by
`(i + 1) % n`. The ring holds the `pending n head tail` slots from `head`
up to `tail`, wrapping at `n`, read off by `occupied`; `tail + 1 ≡ head`
means full, so at most `n - 1` slots are ever in use.

The laws a FIFO needs, each from the index arithmetic alone:

- a store at `tail` followed by the advance of `tail` appends the stored
  value (`occupied_push`, `pending_succ_tail`), and touches no pending
  slot (`mod_ne_of_lt`);
- the advance of `head` drops the value at `head` (`occupied_pop`,
  `pending_succ_head`);
- the producer's test `(tail + 1) % n = head` is "n - 1 pending"
  (`succ_mod_eq_iff`), and the consumer's `head = tail` is "none pending"
  (`pending_eq_zero_iff`).

Nothing here names the system that uses it.
-/

namespace OspabOs.RingBuffer

open ArrayLoop

variable {α : Type} {n : Nat}

/-- How many slots are in use from `head` up to `tail`. -/
def pending (n head tail : Nat) : Nat := (tail + n - head) % n

/-- The values in use, in the order they were stored: `count` slots from
`head`, wrapping at `n`. -/
def occupied (n : Nat) (buf : Nat → α) (head count : Nat) : List α :=
  window (fun i => buf ((head + i) % n)) count

@[simp] theorem length_occupied (buf : Nat → α) (head count : Nat) : (occupied n buf head count).length = count :=
  length_window _ _

/-! ## Index arithmetic -/

section Indices

variable {head tail : Nat}

/-- `pending` without the remainder: the gap, or the gap around the end. -/
theorem pending_eq (hHead : head < n) (hTail : tail < n) :
    pending n head tail = if head ≤ tail then tail - head else tail + n - head := by
  unfold pending
  split_ifs with order
  · rw [show tail + n - head = tail - head + n by omega, Nat.add_mod_right, Nat.mod_eq_of_lt (by omega)]
  · exact Nat.mod_eq_of_lt (by omega)

/-- An index advanced by one: the next slot, or slot 0 after the last. -/
theorem succ_mod_eq (hTail : tail < n) : (tail + 1) % n = if tail + 1 < n then tail + 1 else 0 := by
  split_ifs with inside
  · exact Nat.mod_eq_of_lt inside
  · rw [show tail + 1 = n by omega, Nat.mod_self]

theorem pending_lt (head tail : Nat) (pos : 0 < n) : pending n head tail < n := Nat.mod_lt _ pos

/-- `head` advanced by the pending count is `tail`. -/
theorem add_pending_mod (hHead : head < n) (hTail : tail < n) : (head + pending n head tail) % n = tail := by
  rw [pending_eq hHead hTail]
  split_ifs with order
  · rw [Nat.add_sub_cancel' order, Nat.mod_eq_of_lt hTail]
  · rw [show head + (tail + n - head) = tail + n by omega, Nat.add_mod_right, Nat.mod_eq_of_lt hTail]

theorem pending_eq_zero_iff (hHead : head < n) (hTail : tail < n) : pending n head tail = 0 ↔ head = tail := by
  rw [pending_eq hHead hTail]
  split_ifs <;> omega

/-- The full test of the producer: one more store would meet `head`. -/
theorem succ_mod_eq_iff (hHead : head < n) (hTail : tail < n) :
    (tail + 1) % n = head ↔ pending n head tail = n - 1 := by
  rw [succ_mod_eq hTail, pending_eq hHead hTail]
  split_ifs <;> omega

/-- The producer's advance adds one slot, when there is room. -/
theorem pending_succ_tail (hHead : head < n) (hTail : tail < n) (room : pending n head tail + 1 < n) :
    pending n head ((tail + 1) % n) = pending n head tail + 1 := by
  have next : (tail + 1) % n < n := Nat.mod_lt _ (by omega)
  rw [pending_eq hHead next, pending_eq hHead hTail] at *
  rw [succ_mod_eq hTail] at *
  split_ifs at * <;> omega

/-- The consumer's advance frees one slot, when one is in use. -/
theorem pending_succ_head (hHead : head < n) (hTail : tail < n) (nonempty : head ≠ tail) :
    pending n ((head + 1) % n) tail + 1 = pending n head tail := by
  have next : (head + 1) % n < n := Nat.mod_lt _ (by omega)
  rw [pending_eq next hTail, pending_eq hHead hTail, succ_mod_eq hHead]
  split_ifs <;> omega

/-- Slots fewer than `n` apart are different slots. -/
theorem mod_ne_of_lt (base : Nat) {i j : Nat} (lt : i < j) (inside : j < n) : (base + i) % n ≠ (base + j) % n := by
  intro same
  have cancelled : i % n = j % n := Nat.ModEq.add_left_cancel' base same
  rw [Nat.mod_eq_of_lt (by omega), Nat.mod_eq_of_lt inside] at cancelled
  omega

end Indices

/-! ## What the ring holds -/

/-- A store outside the slots in use changes nothing the ring holds. -/
theorem occupied_update_of_forall_ne (buf : Nat → α) {head count slot : Nat} (x : α)
    (outside : ∀ i < count, (head + i) % n ≠ slot) :
    occupied n (Function.update buf slot x) head count = occupied n buf head count := by
  apply window_congr
  intro i lt
  exact Function.update_of_ne (outside i lt) x buf

/-- A store at the first free slot, counted in, appends the value. -/
theorem occupied_push (buf : Nat → α) {head count : Nat} (room : count < n) (x : α) :
    occupied n (Function.update buf ((head + count) % n) x) head (count + 1) = occupied n buf head count ++ [x] := by
  unfold occupied
  rw [window_succ, Function.update_self]
  congr 1
  exact occupied_update_of_forall_ne buf x fun i lt => mod_ne_of_lt head lt room

/-- The first value in use, then the ones after it. -/
theorem occupied_pop (buf : Nat → α) (head count : Nat) :
    occupied n buf head (count + 1) = buf (head % n) :: occupied n buf ((head + 1) % n) count := by
  unfold occupied window
  rw [List.range_succ_eq_map, List.map_cons, List.map_map, Nat.add_zero]
  congr 1
  apply List.map_congr_left
  intro i _
  show buf ((head + (i + 1)) % n) = buf (((head + 1) % n + i) % n)
  rw [Nat.mod_add_mod, Nat.add_assoc, Nat.add_comm 1 i]

/-! ## The two sides' steps -/

section Steps

variable (buf : Nat → α) {head tail : Nat} (hHead : head < n) (hTail : tail < n)
include hHead hTail

/-- The producer's store at `tail`, then its advance of `tail`, append the
stored value, when there is room. -/
theorem occupied_store_tail (x : α) (room : pending n head tail + 1 < n) :
    occupied n (Function.update buf tail x) head (pending n head ((tail + 1) % n)) =
      occupied n buf head (pending n head tail) ++ [x] := by
  have slot : (head + pending n head tail) % n = tail := add_pending_mod hHead hTail
  rw [pending_succ_tail hHead hTail room]
  calc occupied n (Function.update buf tail x) head (pending n head tail + 1)
      = occupied n (Function.update buf ((head + pending n head tail) % n) x) head (pending n head tail + 1) := by
        rw [slot]
    _ = occupied n buf head (pending n head tail) ++ [x] := occupied_push buf (by omega) x

/-- The consumer's advance of `head` takes the value at `head` off the
front, when one is in use. -/
theorem occupied_advance_head (nonempty : head ≠ tail) :
    occupied n buf head (pending n head tail) = buf head :: occupied n buf ((head + 1) % n) (pending n ((head + 1) % n) tail) := by
  rw [← pending_succ_head hHead hTail nonempty, occupied_pop, Nat.mod_eq_of_lt hHead]

end Steps

end OspabOs.RingBuffer
