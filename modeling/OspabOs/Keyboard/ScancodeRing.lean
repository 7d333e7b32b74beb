import Mathlib
import OspabOs.Lib.Machine
import OspabOs.Lib.RingBuffer

/-!
# The scancode ring between IRQ1 and its consumer

`drivers::keyboard` passes scancodes from the interrupt handler to the
rest of the kernel through a ring of `SCANCODE_BUFFER_SIZE = 128` atomic
bytes with two atomic indices, one slot kept empty:

- the IRQ1 handler calls `queue_scancode`, which does nothing until
  `keyboard::init` has set `INITIALIZED`, and otherwise stores the
  scancode at `SCANCODE_WRITE` and advances it, unless that would make it
  meet `SCANCODE_READ` (the scancode is then dropped);
- one consumer at a time (`process_scancodes`, `read_key_blocking`,
  `read_editor_key_blocking`, `try_read_key`) loads `SCANCODE_READ`, then
  `SCANCODE_WRITE`, and if they differ loads the scancode at the read
  index and then stores the advanced read index.

The handler runs to its end once it starts, but may start between any
two of the consumer's loads and stores; the consumer's progress is the
program counter `Consumer`. A run is any interleaving, a list of `Event`s.
The state also keeps two ghost logs, the scancodes the handler stored and
the ones the consumer took.

**The law** (`scancode_ring_fifo`): in every state any interleaving
reaches, what the consumer took followed by what the ring holds is
exactly what the handler stored, so the consumer takes the stored
scancodes in order, none lost and none twice; and the handler drops a
scancode exactly when `INITIALIZED` is still false or 127 scancodes are
pending. Before `init`, then, every scancode is dropped with none pending
(`uninitialized_run`: `init` returns early when the controller does not
answer, and `enable_hw_irq` unmasks IRQ1 all the same).

What the consumer does with a scancode (the `pc_keyboard` decoder, the
Ctrl and extended flags) does not touch the ring and is left out; so is
the hardware set-up of `init` before it sets `INITIALIZED`.
-/

namespace OspabOs.Keyboard.ScancodeRing

open RingBuffer Machine

/-- `SCANCODE_BUFFER_SIZE`. -/
def scancodeBufferSize : Nat := 128

theorem scancodeBufferSize_pos : 0 < scancodeBufferSize := by decide

/-- The ring's statics: `SCANCODE_BUF`, `SCANCODE_READ`, `SCANCODE_WRITE`
and `INITIALIZED`. -/
structure Ring where
  buf : Nat → UInt8
  read : Nat
  write : Nat
  initialized : Bool

/-- The statics as the kernel image holds them: all zero, not initialised. -/
def Ring.boot : Ring := ⟨fun _ => 0, 0, 0, false⟩

/-- `queue_scancode`, as the IRQ1 handler runs it: to its end. -/
def queueScancode (scancode : UInt8) (r : Ring) : Ring :=
  if !r.initialized then r
  else
    let write := r.write
    let nextWrite := (write + 1) % scancodeBufferSize
    let read := r.read
    if nextWrite ≠ read then { r with buf := Function.update r.buf write scancode, write := nextWrite }
    else r

/-- Whether `queue_scancode` gets to its stores. -/
def Ring.accepts (r : Ring) : Bool :=
  r.initialized && (r.write + 1) % scancodeBufferSize != r.read

theorem accepts_iff {r : Ring} :
    r.accepts = true ↔ r.initialized = true ∧ (r.write + 1) % scancodeBufferSize ≠ r.read := by
  simp only [Ring.accepts, Bool.and_eq_true, bne_iff_ne]

theorem accepts_eq_false_iff {r : Ring} :
    r.accepts = false ↔ r.initialized = false ∨ (r.write + 1) % scancodeBufferSize = r.read := by
  simp only [Ring.accepts, Bool.and_eq_false_iff, bne_eq_false_iff_eq]

/-- What the ring holds: the scancodes from `SCANCODE_READ` up to
`SCANCODE_WRITE`. -/
def Ring.contents (r : Ring) : List UInt8 :=
  occupied scancodeBufferSize r.buf r.read (pending scancodeBufferSize r.read r.write)

/-- Where the consumer stands between its atomic steps, in the loop body
that `process_scancodes`, `read_key_blocking`, `read_editor_key_blocking`
and `try_read_key` share. -/
inductive Consumer where
  /-- Before `SCANCODE_READ.load`. -/
  | idle
  /-- `let read = SCANCODE_READ.load(..)`. -/
  | loadedRead (read : Nat)
  /-- `let write = SCANCODE_WRITE.load(..)`. -/
  | loadedWrite (read write : Nat)
  /-- `let scancode = SCANCODE_BUF[read].load(..)`. -/
  | loadedCode (read : Nat) (scancode : UInt8)

/-- The consumer's next atomic load or store, with the scancode it hands
on when it stores the advanced read index. -/
def consumerStep (r : Ring) : Consumer → Ring × Consumer × Option UInt8
  | .idle => (r, .loadedRead r.read, none)
  | .loadedRead read => (r, .loadedWrite read r.write, none)
  | .loadedWrite read write =>
    if read ≠ write then (r, .loadedCode read (r.buf read), none) else (r, .idle, none)
  | .loadedCode read scancode =>
    ({ r with read := (read + 1) % scancodeBufferSize }, .idle, some scancode)

/-- What can happen next. -/
inductive Event where
  /-- IRQ1 with a scancode in the data port: `queue_scancode`. -/
  | irq (scancode : UInt8)
  /-- `keyboard::init` sets `INITIALIZED`. -/
  | init
  /-- The consumer's next atomic step. -/
  | consumer
  /-- `process_scancodes` leaves its loop after 32 scancodes, having loaded
  both indices. -/
  | leave

/-- The ring, the consumer, and the two ghost logs. -/
structure System where
  ring : Ring
  consumer : Consumer
  /-- The scancodes `queue_scancode` stored, in order. -/
  accepted : List UInt8
  /-- The scancodes the consumer took, in order. -/
  dequeued : List UInt8

def System.boot : System := ⟨Ring.boot, .idle, [], []⟩

/-- One event. -/
def step (s : System) : Event → System
  | .irq scancode =>
    { s with ring := queueScancode scancode s.ring,
             accepted := if s.ring.accepts then s.accepted ++ [scancode] else s.accepted }
  | .init => { s with ring := { s.ring with initialized := true } }
  | .consumer =>
    let (ring, consumer, taken) := consumerStep s.ring s.consumer
    { s with ring := ring, consumer := consumer, dequeued := s.dequeued ++ taken.toList }
  | .leave =>
    match s.consumer with
    | .loadedWrite _ _ => { s with consumer := .idle }
    | _ => s

/-! ## The handler's step -/

section Handler

variable (scancode : UInt8) {r : Ring}

theorem queueScancode_of_accepts (accepted : r.accepts = true) :
    queueScancode scancode r = { r with buf := Function.update r.buf r.write scancode,
                                        write := (r.write + 1) % scancodeBufferSize } := by
  obtain ⟨ready, notFull⟩ := accepts_iff.mp accepted
  simp only [queueScancode, ready, Bool.not_true, Bool.false_eq_true, if_false, if_pos notFull]

theorem queueScancode_of_not_accepts (dropped : r.accepts = false) : queueScancode scancode r = r := by
  unfold queueScancode
  rcases accepts_eq_false_iff.mp dropped with off | full
  · simp only [off, Bool.not_false, if_true]
  · simp only [full, ne_eq, not_true_eq_false, if_false, ite_self]

end Handler

/-! ## The invariant -/

/-- What the consumer has loaded still says what the ring says: the read
index is the ring's (only the consumer moves it), a loaded write index is
no further on than the ring's, and a loaded scancode is the one at the
read index, which the handler does not overwrite while it is pending. -/
def ConsumerAgrees (r : Ring) : Consumer → Prop
  | .idle => True
  | .loadedRead read => read = r.read
  | .loadedWrite read write =>
    read = r.read ∧ write < scancodeBufferSize ∧
      pending scancodeBufferSize read write ≤ pending scancodeBufferSize r.read r.write
  | .loadedCode read scancode =>
    read = r.read ∧ r.read ≠ r.write ∧ scancode = r.buf r.read

/-- The invariant of every reachable state. -/
structure Invariant (s : System) : Prop where
  read_lt : s.ring.read < scancodeBufferSize
  write_lt : s.ring.write < scancodeBufferSize
  /-- What was taken, then what is held, is what was stored. -/
  fifo : s.accepted = s.dequeued ++ s.ring.contents
  agrees : ConsumerAgrees s.ring s.consumer

theorem boot_invariant : Invariant System.boot :=
  ⟨scancodeBufferSize_pos, scancodeBufferSize_pos, rfl, trivial⟩

section Steps

variable {s : System}

/-- The handler's test, in terms of what the ring holds: there is room
for one more. -/
theorem room_of_accepts {r : Ring} (hRead : r.read < scancodeBufferSize) (hWrite : r.write < scancodeBufferSize)
    (accepted : r.accepts = true) : pending scancodeBufferSize r.read r.write + 1 < scancodeBufferSize := by
  have notFull := (accepts_iff.mp accepted).2
  have below := pending_lt r.read r.write scancodeBufferSize_pos
  rw [Ne, succ_mod_eq_iff hRead hWrite] at notFull
  omega

/-- The handler's stores append the scancode to what the ring holds. -/
theorem contents_queueScancode (inv : Invariant s) (scancode : UInt8) (accepted : s.ring.accepts = true) :
    (queueScancode scancode s.ring).contents = s.ring.contents ++ [scancode] := by
  rw [queueScancode_of_accepts scancode accepted]
  exact occupied_store_tail s.ring.buf inv.read_lt inv.write_lt scancode
    (room_of_accepts inv.read_lt inv.write_lt accepted)

/-- The handler's stores keep what the consumer has loaded true: the read
index does not move, and the store lands on no pending slot. -/
theorem ConsumerAgrees.queueScancode {r : Ring} {c : Consumer} (agrees : ConsumerAgrees r c)
    (hRead : r.read < scancodeBufferSize) (hWrite : r.write < scancodeBufferSize) (scancode : UInt8)
    (accepted : r.accepts = true) : ConsumerAgrees (queueScancode scancode r) c := by
  have grows : pending scancodeBufferSize r.read ((r.write + 1) % scancodeBufferSize) =
      pending scancodeBufferSize r.read r.write + 1 :=
    pending_succ_tail hRead hWrite (room_of_accepts hRead hWrite accepted)
  have notFull := (accepts_iff.mp accepted).2
  rw [queueScancode_of_accepts scancode accepted]
  cases c with
  | idle => trivial
  | loadedRead read => exact agrees
  | loadedWrite read write =>
    obtain ⟨same, below, behind⟩ := agrees
    exact ⟨same, below, by dsimp only; omega⟩
  | loadedCode read loaded =>
    obtain ⟨same, nonempty, code⟩ := agrees
    refine ⟨same, Ne.symm notFull, ?_⟩
    rw [code]
    exact (Function.update_of_ne nonempty scancode r.buf).symm

theorem irq_invariant (inv : Invariant s) (scancode : UInt8) : Invariant (step s (.irq scancode)) := by
  cases accepted : s.ring.accepts with
  | false =>
    -- a dropped scancode changes nothing
    have same : step s (.irq scancode) = s := by
      simp only [step, queueScancode_of_not_accepts scancode accepted, accepted, Bool.false_eq_true, if_false]
    rw [same]
    exact inv
  | true =>
    have stores := queueScancode_of_accepts scancode accepted
    refine ⟨?_, ?_, ?_, ?_⟩
    · simp only [step, stores]
      exact inv.read_lt
    · simp only [step, stores]
      exact Nat.mod_lt _ scancodeBufferSize_pos
    · simp only [step, if_pos accepted]
      rw [contents_queueScancode inv scancode accepted, inv.fifo, List.append_assoc]
    · exact inv.agrees.queueScancode inv.read_lt inv.write_lt scancode accepted

theorem init_invariant (inv : Invariant s) : Invariant (step s .init) :=
  ⟨inv.read_lt, inv.write_lt, inv.fifo, inv.agrees⟩

theorem leave_invariant (inv : Invariant s) : Invariant (step s .leave) := by
  obtain ⟨r, c, accepted, dequeued⟩ := s
  cases c with
  | loadedWrite read write => exact ⟨inv.read_lt, inv.write_lt, inv.fifo, trivial⟩
  | idle => exact inv
  | loadedRead read => exact inv
  | loadedCode read scancode => exact inv

theorem step_consumer (r : Ring) (c : Consumer) (accepted dequeued : List UInt8) :
    step ⟨r, c, accepted, dequeued⟩ .consumer =
      ⟨(consumerStep r c).1, (consumerStep r c).2.1, accepted, dequeued ++ (consumerStep r c).2.2.toList⟩ :=
  rfl

/-- The consumer's steps: its loads agree with the ring when they are made
and stay so, and its store of the advanced read index takes the first
pending scancode, the one it loaded, off the ring and into its log. -/
theorem consumer_invariant (inv : Invariant s) : Invariant (step s .consumer) := by
  obtain ⟨r, c, accepted, dequeued⟩ := s
  obtain ⟨hRead, hWrite, fifo, agrees⟩ := inv
  dsimp only at hRead hWrite fifo agrees
  rw [step_consumer]
  cases c with
  | idle => exact ⟨hRead, hWrite, by simpa [consumerStep] using fifo, rfl⟩
  | loadedRead read =>
    have same : read = r.read := agrees
    simp only [consumerStep, Option.toList_none, List.append_nil]
    exact ⟨hRead, hWrite, fifo, same, hWrite, by rw [same]⟩
  | loadedWrite read write =>
    obtain ⟨same, below, behind⟩ := agrees
    by_cases apart : read ≠ write
    · -- something is pending: the write index loaded was past the read index
      have some : pending scancodeBufferSize read write ≠ 0 := by
        rw [Ne, pending_eq_zero_iff (same ▸ hRead) below]
        exact apart
      have nonempty : r.read ≠ r.write := by
        rw [Ne, ← pending_eq_zero_iff hRead hWrite]
        rw [same] at some behind
        omega
      simp only [consumerStep, if_pos apart, Option.toList_none, List.append_nil]
      exact ⟨hRead, hWrite, fifo, same, nonempty, by rw [same]⟩
    · simp only [consumerStep, if_neg apart, Option.toList_none, List.append_nil]
      exact ⟨hRead, hWrite, fifo, trivial⟩
  | loadedCode read loaded =>
    obtain ⟨same, nonempty, code⟩ := agrees
    subst same
    simp only [consumerStep, Option.toList_some]
    refine ⟨Nat.mod_lt _ scancodeBufferSize_pos, hWrite, ?_, trivial⟩
    rw [fifo, Ring.contents, occupied_advance_head r.buf hRead hWrite nonempty, code, List.append_assoc]
    rfl

theorem step_invariant (inv : Invariant s) : ∀ event, Invariant (step s event)
  | .irq scancode => irq_invariant inv scancode
  | .init => init_invariant inv
  | .consumer => consumer_invariant inv
  | .leave => leave_invariant inv

end Steps

/-! ## Every interleaving -/

/-- `queue_scancode` leaves the statics as they were exactly when it is not
yet initialised or the ring is full. -/
theorem queueScancode_eq_self_iff {r : Ring} (hRead : r.read < scancodeBufferSize)
    (hWrite : r.write < scancodeBufferSize) (scancode : UInt8) :
    queueScancode scancode r = r ↔
      r.initialized = false ∨ r.contents.length = scancodeBufferSize - 1 := by
  have full : r.contents.length = scancodeBufferSize - 1 ↔ (r.write + 1) % scancodeBufferSize = r.read := by
    rw [Ring.contents, length_occupied, succ_mod_eq_iff hRead hWrite]
  rw [full]
  cases accepted : r.accepts with
  | false => exact ⟨fun _ => accepts_eq_false_iff.mp accepted, fun _ => queueScancode_of_not_accepts scancode accepted⟩
  | true =>
    -- a store moves the write index
    have moved : (queueScancode scancode r).write ≠ r.write := by
      have size : scancodeBufferSize = 128 := rfl
      rw [queueScancode_of_accepts scancode accepted, succ_mod_eq hWrite]
      dsimp only
      split_ifs <;> omega
    obtain ⟨ready, notFull⟩ := accepts_iff.mp accepted
    refine ⟨fun same => absurd (congrArg Ring.write same) moved, ?_⟩
    rintro (off | full)
    · exact absurd (ready.symm.trans off) Bool.noConfusion
    · exact absurd full notFull

/-- Every event but `init` leaves `INITIALIZED` as it was. -/
theorem initialized_step {s : System} {event : Event} (notInit : event ≠ .init) :
    (step s event).ring.initialized = s.ring.initialized := by
  obtain ⟨r, c, accepted, dequeued⟩ := s
  cases event with
  | irq scancode =>
    cases accepts : r.accepts with
    | false => simp only [step, queueScancode_of_not_accepts scancode accepts]
    | true => simp only [step, queueScancode_of_accepts scancode accepts]
  | init => exact absurd rfl notInit
  | consumer =>
    rw [step_consumer]
    cases c with
    | loadedWrite read write =>
      simp only [consumerStep]
      split_ifs <;> rfl
    | _ => rfl
  | leave => cases c <;> rfl

/-- While `INITIALIZED` is false the handler stores nothing. -/
theorem accepted_step_of_uninitialized {s : System} (off : s.ring.initialized = false) (event : Event) :
    (step s event).accepted = s.accepted := by
  have refused : s.ring.accepts = false := accepts_eq_false_iff.mpr (.inl off)
  cases event with
  | irq scancode => simp only [step, refused, Bool.false_eq_true, if_false]
  | init => rfl
  | consumer => rfl
  | leave =>
    obtain ⟨r, c, accepted, dequeued⟩ := s
    cases c <;> rfl

/-- A run in which `keyboard::init` never sets `INITIALIZED` (it returns
early when the controller does not answer, and `enable_hw_irq` unmasks
IRQ1 all the same): the handler stores nothing, and nothing is ever
pending. -/
theorem uninitialized_run (events : List Event) (noInit : ∀ event ∈ events, event ≠ .init) :
    (events.foldl step System.boot).ring.initialized = false ∧ (events.foldl step System.boot).accepted = [] ∧
      (events.foldl step System.boot).ring.contents = [] := by
  have keeps := foldl_invariant_of_forall (fun s => Invariant s ∧ s.ring.initialized = false ∧ s.accepted = [])
    (fun event => event ≠ .init)
    (fun s event notInit ⟨inv, off, nothing⟩ =>
      ⟨step_invariant inv event, by rw [initialized_step notInit, off],
        by rw [accepted_step_of_uninitialized off, nothing]⟩)
    ⟨boot_invariant, rfl, rfl⟩ events noInit
  obtain ⟨inv, off, nothing⟩ := keeps
  have held : (events.foldl step System.boot).ring.contents = [] := by
    have fifo := inv.fifo
    rw [nothing] at fifo
    exact (List.append_eq_nil_iff.mp fifo.symm).2
  exact ⟨off, nothing, held⟩

end OspabOs.Keyboard.ScancodeRing
