import OspabOs.Mem.Frame

/-!
# Every call of the frame allocator

`Mem.Frame` follows the calls the kernel makes after boot. Here the
allocator is driven through its whole interface, `init`, `allocate`,
`free` and `mark_used`, with any arguments and in any order, from
`FrameAllocator::new()`. Over every such run (`frame_allocator_sound`):

- the representation `Invariant` holds: `used_frames` counts the set bits
  below `total_frames`, and `next_free ≤ total_frames`;
- `allocate` hands out `i * PAGE_SIZE` for a frame `i < total_frames`
  whose bit was clear and is set afterwards, and returns `None` only when
  every frame is marked;
- a set bit is cleared only by a `free` of its frame, so a frame handed
  out once is handed out again only after a `free` of it in between.

No call needs its arguments checked for this: `free` ignores frames past
the end and frames already clear, whatever the address, aligned or not,
and `init` and `mark_used` only set bits.
-/

namespace OspabOs.Mem

namespace FrameAllocator

/-- Every call of the allocator's interface. -/
inductive FrameCall where
  | op (op : FrameOp)
  | init (kernelStart kernelEnd : Nat)
  | markUsed (frame : Nat)
  deriving DecidableEq, Repr

/-- One call, its result dropped. -/
def call (a : FrameAllocator) : FrameCall → FrameAllocator
  | .op op => a.step op
  | .init kernelStart kernelEnd => a.init kernelStart kernelEnd
  | .markUsed frame => a.markUsed frame

/-- The call is a `free` of frame `i`. -/
def FrameCall.Frees (c : FrameCall) (i : Nat) : Prop :=
  ∃ addr, c = .op (.free addr) ∧ addr / pageSize = i

theorem call_invariant {a : FrameAllocator} (inv : Invariant a) : ∀ c, Invariant (a.call c)
  | .op op => step_invariant inv op
  | .init kernelStart kernelEnd => init_invariant inv kernelStart kernelEnd
  | .markUsed frame => markUsed_invariant inv frame

theorem foldl_call_invariant {a : FrameAllocator} (inv : Invariant a) (calls : List FrameCall) :
    Invariant (calls.foldl call a) :=
  Machine.foldl_invariant Invariant (fun _ c inv => call_invariant inv c) inv calls

/-! ## A set bit stays set -/

theorem test_free_of_set {a : FrameAllocator} {i : Nat} (set : Bitmap.test a.bitmap i = true) {addr : Nat}
    (other : addr / pageSize ≠ i) : Bitmap.test (a.free addr).bitmap i = true := by
  rw [test_free, set]
  simp [Ne.symm other]

section
variable {a : FrameAllocator} (inv : Invariant a) {i : Nat} (set : Bitmap.test a.bitmap i = true)
include inv set

theorem test_markUsed_of_set (frame : Nat) : Bitmap.test (a.markUsed frame).bitmap i = true :=
  (test_markUsed inv.total frame i).mpr (.inr set)

theorem test_init_of_set (kernelStart kernelEnd : Nat) :
    Bitmap.test (a.init kernelStart kernelEnd).bitmap i = true := by
  have reserved : ((List.range (1024 * 1024 / pageSize)).foldl markUsed a).totalFrames = Mem.totalFrames :=
    (Machine.foldl_invariant Invariant (fun b frame kept => markUsed_invariant kept frame) inv _).total
  dsimp only [init]
  rw [test_foldl_markUsed _ reserved, test_foldl_markUsed _ inv.total]
  exact .inr (.inr set)

theorem test_allocate_of_set : Bitmap.test (allocate a).2.bitmap i = true := by
  rcases allocate_cases a with ⟨-, same, -⟩ | ⟨j, -, claimed, -, range⟩
  · rw [same]
    exact set
  · rw [claimed, test_claim (lt_of_scanned inv range), set, Bool.or_true]

/-- Every call but a `free` of frame `i` leaves its bit set. -/
theorem test_call_of_set (c : FrameCall) (kept : ¬ c.Frees i) : Bitmap.test (a.call c).bitmap i = true := by
  cases c with
  | op op =>
    cases op with
    | allocate => exact test_allocate_of_set inv set
    | free addr => exact test_free_of_set set fun same => kept ⟨addr, rfl, same⟩
  | init kernelStart kernelEnd => exact test_init_of_set inv set kernelStart kernelEnd
  | markUsed frame => exact test_markUsed_of_set inv set frame

end

/-- Over a run with no `free` of frame `i`, its set bit stays set. -/
theorem test_foldl_call_of_set {a : FrameAllocator} (inv : Invariant a) {i : Nat}
    (set : Bitmap.test a.bitmap i = true) (calls : List FrameCall) (kept : ∀ c ∈ calls, ¬ c.Frees i) :
    Bitmap.test (calls.foldl call a).bitmap i = true := by
  induction calls generalizing a with
  | nil => exact set
  | cons c rest ih =>
    have first := test_call_of_set inv set c (kept c List.mem_cons_self)
    exact ih (call_invariant inv c) first fun c' mem => kept c' (List.mem_cons_of_mem c mem)

/-- A frame `allocate` hands out is handed out again, after any calls,
only if one of them freed it. -/
theorem frees_of_allocate_twice {a : FrameAllocator} (inv : Invariant a) {addr : Nat}
    (first : (allocate a).1 = some addr) (later : List FrameCall)
    (again : (allocate (later.foldl call (allocate a).2)).1 = some addr) :
    ∃ c ∈ later, c.Frees (addr / pageSize) := by
  obtain ⟨i, -, rfl, -, marked⟩ := allocate_some inv first
  have frame : i * pageSize / pageSize = i := by simp [pageSize]
  rw [frame]
  by_contra unfreed
  have stays := test_foldl_call_of_set (allocate_invariant inv) marked later
    fun c mem frees => unfreed ⟨c, mem, frees⟩
  obtain ⟨j, -, same, clear, -⟩ := allocate_some (foldl_call_invariant (allocate_invariant inv) later) again
  have : j = i := by
    simp only [pageSize] at same
    omega
  rw [this, stays] at clear
  cases clear

/-- The bitmap frame allocator over every run of its calls from
`FrameAllocator::new()`: the representation invariant holds; what
`allocate` returns is the address of a frame below `total_frames` whose
bit was clear before and is set after; it returns `None` only with every
frame marked; and a frame it hands out is handed out again only after a
`free` of it. -/
theorem frame_allocator_sound (calls later : List FrameCall) :
    let a := calls.foldl call new
    (a.usedFrames = Bitmap.count a.bitmap a.totalFrames ∧ a.nextFree ≤ a.totalFrames) ∧
    (∀ addr, (allocate a).1 = some addr →
      ∃ i < a.totalFrames, addr = i * pageSize ∧ Bitmap.test a.bitmap i = false ∧
        Bitmap.test (allocate a).2.bitmap i = true) ∧
    ((allocate a).1 = none → ∀ i < a.totalFrames, Bitmap.test a.bitmap i = true) ∧
    (∀ addr, (allocate a).1 = some addr → (allocate (later.foldl call (allocate a).2)).1 = some addr →
      ∃ c ∈ later, c.Frees (addr / pageSize)) := by
  intro a
  have inv : Invariant a := foldl_call_invariant new_invariant calls
  refine ⟨⟨?_, ?_⟩, fun addr returned => ?_, allocate_none, fun addr first again =>
    frees_of_allocate_twice inv first later again⟩
  · rw [inv.total]
    exact inv.used
  · rw [inv.total]
    exact inv.nextFree_le
  · rw [inv.total]
    exact allocate_some inv returned

end FrameAllocator

end OspabOs.Mem
