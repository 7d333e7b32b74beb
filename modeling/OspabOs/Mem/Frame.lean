import OspabOs.Lib.Bitmap
import OspabOs.Lib.Machine

/-!
# The physical frame allocator

`mem::physical::FrameAllocator` hands out 4 KiB frames of a FIXED 128 MiB
of physical memory, 32768 frames, one bit each in a 4096-byte bitmap
(`Lib.Bitmap`). It keeps a cursor `next_free`: `allocate` takes the first
clear frame at or after the cursor, else the first clear frame before it
(the wrap-around loop), marks it and moves the cursor past it; `free`
clears a marked frame and moves the cursor back to it when it is lower.

`kmain` calls `init(0x100000, 0x200000)`, which marks the first MiB and
the frames of `[1 MiB, 2 MiB)`: frames `0..512` (`test_kernelAllocator`).
Nothing else is reserved. The allocator never reads the bootloader's
memory map, so what it hands out is not confined to memory the map calls
usable, nor kept out of the kernel heap, which `heap_allocator::init`
places from that map (`Mem.Heap`).

What does hold, for every run of `allocate` and `free` from the kernel's
allocator whose frees name no frame below 2 MiB:

- the representation `Invariant`: the frame count is the constant, the
  cursor stays within it, and `used_frames` is the number of set bits;
- every address `allocate` returns is page aligned, in `[2 MiB, 128 MiB)`,
  and its frame was clear before and is set after
  (`allocate_frames_above_kernel`).

Machine integers: apart from `init`'s arguments, whose rounding wraps at
`2 ^ 64` as the release build does, every quantity here stays below
`2 ^ 27`, so `usize` arithmetic is `Nat` arithmetic; `used_frames -= 1`
runs only when a bit is set, and then `used_frames` is at least one
(`Invariant`).
-/

namespace OspabOs.Mem

/-- `PAGE_SIZE`. -/
def pageSize : Nat := 4096

/-- `TOTAL_MEMORY`: 128 MiB, fixed. -/
def totalMemory : Nat := 128 * 1024 * 1024

/-- `TOTAL_FRAMES`. -/
def totalFrames : Nat := totalMemory / pageSize

/-- `BITMAP_SIZE`: one bit a frame, rounded up to whole bytes. -/
def bitmapSize : Nat := (totalFrames + 7) / 8

theorem totalFrames_eq : totalFrames = 32768 := rfl

theorem bitmapSize_eq : bitmapSize = 4096 := rfl

/-- `FrameAllocator`. The bitmap is a `[u8; BITMAP_SIZE]`: its length is
part of its type. -/
structure FrameAllocator where
  bitmap : List UInt8
  nextFree : Nat
  totalFrames : Nat
  usedFrames : Nat
  bitmap_length : bitmap.length = bitmapSize

namespace FrameAllocator

/-- `FrameAllocator::new`: nothing marked. -/
def new : FrameAllocator :=
  { bitmap := List.replicate bitmapSize 0, nextFree := 0, totalFrames := Mem.totalFrames,
    usedFrames := 0, bitmap_length := List.length_replicate }

/-- `mark_used`: frames past the end are ignored, a marked frame is left alone. -/
def markUsed (a : FrameAllocator) (frame : Nat) : FrameAllocator :=
  if frame ≥ a.totalFrames then a
  else if !Bitmap.test a.bitmap frame then
    { a with bitmap := Bitmap.set a.bitmap frame, usedFrames := a.usedFrames + 1,
             bitmap_length := (Bitmap.length_set _ _).trans a.bitmap_length }
  else a

/-- `init`: the first MiB, then the kernel's frames, rounded outwards.
The rounding `kernel_end + PAGE_SIZE - 1` is `usize` arithmetic, which
wraps in the release build. -/
def init (a : FrameAllocator) (kernelStart kernelEnd : Nat) : FrameAllocator :=
  let reservedFrames := 1024 * 1024 / pageSize
  let a := (List.range reservedFrames).foldl markUsed a
  let kernelStartFrame := kernelStart / pageSize
  let kernelEndFrame := (kernelEnd + pageSize - 1) % 2 ^ 64 / pageSize
  (List.range' kernelStartFrame (kernelEndFrame - kernelStartFrame)).foldl markUsed a

/-- The allocator after handing out frame `i`. -/
def claim (a : FrameAllocator) (i : Nat) : FrameAllocator :=
  { a with bitmap := Bitmap.set a.bitmap i, usedFrames := a.usedFrames + 1, nextFree := i + 1,
           bitmap_length := (Bitmap.length_set _ _).trans a.bitmap_length }

@[simp] theorem totalFrames_claim (a : FrameAllocator) (i : Nat) : (a.claim i).totalFrames = a.totalFrames := rfl

@[simp] theorem nextFree_claim (a : FrameAllocator) (i : Nat) : (a.claim i).nextFree = i + 1 := rfl

/-- `allocate`: the first clear frame of `next_free..total_frames`, else
of `0..next_free`. -/
def allocate (a : FrameAllocator) : Option Nat × FrameAllocator :=
  match (List.range' a.nextFree (a.totalFrames - a.nextFree)).find? (fun i => !Bitmap.test a.bitmap i) with
  | some i => (some (i * pageSize), a.claim i)
  | none =>
    match (List.range a.nextFree).find? (fun i => !Bitmap.test a.bitmap i) with
    | some i => (some (i * pageSize), a.claim i)
    | none => (none, a)

/-- `free`: frames past the end and clear frames are ignored. -/
def free (a : FrameAllocator) (addr : Nat) : FrameAllocator :=
  let frame := addr / pageSize
  if frame ≥ a.totalFrames then a
  else if Bitmap.test a.bitmap frame then
    { a with bitmap := Bitmap.clear a.bitmap frame, usedFrames := a.usedFrames - 1,
             nextFree := if frame < a.nextFree then frame else a.nextFree,
             bitmap_length := (Bitmap.length_clear _ _).trans a.bitmap_length }
  else a

/-- The calls the rest of the kernel makes. -/
inductive FrameOp where
  | allocate
  | free (addr : Nat)
  deriving DecidableEq, Repr

/-- One call, its result dropped. -/
def step (a : FrameAllocator) : FrameOp → FrameAllocator
  | .allocate => (allocate a).2
  | .free addr => free a addr

/-- The allocator as `kmain` leaves it. -/
def kernelAllocator : FrameAllocator := new.init 0x100000 0x200000

/-! ## What each call does to the bitmap -/

/-- Every frame below the count has its byte in the bitmap. -/
theorem byte_lt (a : FrameAllocator) {i : Nat} (lt : i < Mem.totalFrames) : i / 8 < a.bitmap.length := by
  rw [a.bitmap_length, bitmapSize_eq]
  rw [totalFrames_eq] at lt
  omega

@[simp] theorem totalFrames_markUsed (a : FrameAllocator) (frame : Nat) :
    (a.markUsed frame).totalFrames = a.totalFrames := by
  unfold markUsed
  split_ifs <;> rfl

@[simp] theorem nextFree_markUsed (a : FrameAllocator) (frame : Nat) :
    (a.markUsed frame).nextFree = a.nextFree := by
  unfold markUsed
  split_ifs <;> rfl

/-- `init` marks frames and leaves the cursor where it was. -/
theorem nextFree_kernelAllocator : kernelAllocator.nextFree = 0 := by
  have keeps : ∀ (frames : List Nat) (a : FrameAllocator), (frames.foldl markUsed a).nextFree = a.nextFree :=
    fun frames a => Machine.foldl_invariant (fun b => b.nextFree = a.nextFree)
      (fun b frame same => (nextFree_markUsed b frame).trans same) rfl frames
  simp only [kernelAllocator, init]
  rw [keeps, keeps]
  rfl

theorem test_markUsed {a : FrameAllocator} (total : a.totalFrames = Mem.totalFrames) (frame j : Nat) :
    Bitmap.test (a.markUsed frame).bitmap j = true ↔
      (j = frame ∧ frame < Mem.totalFrames) ∨ Bitmap.test a.bitmap j = true := by
  unfold markUsed
  rw [total]
  split_ifs with past clear
  · simp only [show ¬ frame < Mem.totalFrames by omega, and_false, false_or]
  · rw [Bitmap.test_set (byte_lt a (by omega))]
    simp [show frame < Mem.totalFrames by omega]
  · constructor
    · exact .inr
    · rintro (⟨rfl, -⟩ | set)
      · simpa using clear
      · exact set

theorem test_foldl_markUsed (frames : List Nat) {a : FrameAllocator} (total : a.totalFrames = Mem.totalFrames)
    (j : Nat) : Bitmap.test (frames.foldl markUsed a).bitmap j = true ↔
      (j ∈ frames ∧ j < Mem.totalFrames) ∨ Bitmap.test a.bitmap j = true := by
  induction frames generalizing a with
  | nil => simp
  | cons frame rest ih =>
    rw [List.foldl_cons, ih (by rw [totalFrames_markUsed, total]), test_markUsed total, List.mem_cons]
    constructor
    · rintro (⟨mem, lt⟩ | ⟨same, lt⟩ | set)
      · exact .inl ⟨.inr mem, lt⟩
      · exact .inl ⟨.inl same, same ▸ lt⟩
      · exact .inr set
    · rintro (⟨same | mem, lt⟩ | set)
      · exact .inr (.inl ⟨same, same ▸ lt⟩)
      · exact .inl ⟨mem, lt⟩
      · exact .inr (.inr set)

/-- After `kmain`'s `init`, exactly the frames below 2 MiB are marked. -/
theorem test_kernelAllocator (j : Nat) : Bitmap.test kernelAllocator.bitmap j = true ↔ j < 512 := by
  have total : new.totalFrames = Mem.totalFrames := rfl
  have reserved : ((List.range (1024 * 1024 / pageSize)).foldl markUsed new).totalFrames = Mem.totalFrames := by
    rw [← total]
    exact Machine.foldl_invariant (fun (a : FrameAllocator) => a.totalFrames = new.totalFrames)
      (fun a frame same => (totalFrames_markUsed a frame).trans same) rfl _
  simp only [kernelAllocator, init]
  rw [test_foldl_markUsed _ reserved, test_foldl_markUsed _ total]
  simp only [new, Bitmap.test_replicate_zero, Bool.false_eq_true, or_false, List.mem_range,
    List.mem_range'_1, pageSize, totalFrames_eq]
  omega

/-- What `allocate` can do: find nothing and change nothing, every frame
being marked; or hand out the address of a clear frame `i`, in the range
its loop scanned, and `claim` it. -/
theorem allocate_cases (a : FrameAllocator) :
    ((allocate a).1 = none ∧ (allocate a).2 = a ∧
        ∀ i, (a.nextFree ≤ i ∧ i < a.totalFrames ∨ i < a.nextFree) → Bitmap.test a.bitmap i = true) ∨
      ∃ i, (allocate a).1 = some (i * pageSize) ∧ (allocate a).2 = a.claim i ∧
        Bitmap.test a.bitmap i = false ∧ (a.nextFree ≤ i ∧ i < a.totalFrames ∨ i < a.nextFree) := by
  unfold allocate
  cases upper : (List.range' a.nextFree (a.totalFrames - a.nextFree)).find? (fun i => !Bitmap.test a.bitmap i) with
  | some i =>
    have clear := List.find?_some upper
    have mem := List.mem_range'_1.mp (List.mem_of_find?_eq_some upper)
    exact .inr ⟨i, rfl, rfl, by simpa using clear, .inl ⟨mem.1, by omega⟩⟩
  | none =>
    cases lower : (List.range a.nextFree).find? (fun i => !Bitmap.test a.bitmap i) with
    | some i =>
      have clear := List.find?_some lower
      have mem := List.mem_range.mp (List.mem_of_find?_eq_some lower)
      exact .inr ⟨i, rfl, rfl, by simpa using clear, .inr mem⟩
    | none =>
      refine .inl ⟨rfl, rfl, ?_⟩
      rintro i (⟨above, below⟩ | below)
      · simpa using List.find?_eq_none.mp upper i (List.mem_range'_1.mpr ⟨above, by omega⟩)
      · simpa using List.find?_eq_none.mp lower i (List.mem_range.mpr below)

/-- First fit: with every frame from the cursor up to `i` marked and `i`
clear, `allocate` hands out `i`. -/
theorem allocate_of_first_clear {a : FrameAllocator} {i : Nat} (after : a.nextFree ≤ i) (lt : i < a.totalFrames)
    (marked : ∀ j, a.nextFree ≤ j → j < i → Bitmap.test a.bitmap j = true)
    (clear : Bitmap.test a.bitmap i = false) : allocate a = (some (i * pageSize), a.claim i) := by
  have first : (List.range' a.nextFree (a.totalFrames - a.nextFree)).find? (fun i => !Bitmap.test a.bitmap i) =
      some i := by
    rw [List.find?_range'_eq_some]
    refine ⟨by simpa using clear, List.mem_range'_1.mpr ⟨after, by omega⟩, fun j low high => ?_⟩
    simpa using marked j low high
  unfold allocate
  rw [first]

theorem test_claim {a : FrameAllocator} {i : Nat} (lt : i < Mem.totalFrames) (j : Nat) :
    Bitmap.test (a.claim i).bitmap j = (decide (j = i) || Bitmap.test a.bitmap j) :=
  Bitmap.test_set (byte_lt a lt) j

theorem test_free (a : FrameAllocator) (addr j : Nat) :
    Bitmap.test (a.free addr).bitmap j =
      (!decide (j = addr / pageSize ∧ addr / pageSize < a.totalFrames) && Bitmap.test a.bitmap j) := by
  dsimp only [free]
  by_cases past : addr / pageSize ≥ a.totalFrames
  · rw [if_pos past]
    simp [show ¬ addr / pageSize < a.totalFrames by omega]
  · rw [if_neg past]
    by_cases marked : Bitmap.test a.bitmap (addr / pageSize)
    · rw [if_pos marked]
      show Bitmap.test (Bitmap.clear a.bitmap (addr / pageSize)) j = _
      rw [Bitmap.test_clear]
      simp [show addr / pageSize < a.totalFrames by omega]
    · rw [if_neg marked]
      by_cases same : j = addr / pageSize
      · subst same
        simp [marked]
      · simp [same]

@[simp] theorem totalFrames_free (a : FrameAllocator) (addr : Nat) : (a.free addr).totalFrames = a.totalFrames := by
  dsimp only [free]
  split_ifs <;> rfl

/-- Freeing a marked frame below the cursor brings the cursor back to it. -/
theorem nextFree_free {a : FrameAllocator} {addr : Nat} (lt : addr / pageSize < a.totalFrames)
    (marked : Bitmap.test a.bitmap (addr / pageSize) = true) (below : addr / pageSize < a.nextFree) :
    (a.free addr).nextFree = addr / pageSize := by
  dsimp only [free]
  rw [if_neg (Nat.not_le.mpr lt), if_pos marked]
  exact if_pos below

/-! ## The representation invariant -/

/-- The frame count is the constant, the cursor is within it, and
`used_frames` counts the marked frames. -/
structure Invariant (a : FrameAllocator) : Prop where
  total : a.totalFrames = Mem.totalFrames
  nextFree_le : a.nextFree ≤ Mem.totalFrames
  used : a.usedFrames = Bitmap.count a.bitmap Mem.totalFrames

theorem new_invariant : Invariant new where
  total := rfl
  nextFree_le := Nat.zero_le _
  used := (Bitmap.count_replicate_zero _ _).symm

theorem markUsed_invariant {a : FrameAllocator} (inv : Invariant a) (frame : Nat) :
    Invariant (a.markUsed frame) := by
  unfold markUsed
  split_ifs with past clear
  · exact inv
  · have lt : frame < Mem.totalFrames := by
      rw [← inv.total]
      omega
    refine ⟨inv.total, inv.nextFree_le, ?_⟩
    show a.usedFrames + 1 = Bitmap.count (Bitmap.set a.bitmap frame) Mem.totalFrames
    rw [Bitmap.count_set (byte_lt a lt) (by simpa using clear) lt, inv.used]
  · exact inv

theorem init_invariant {a : FrameAllocator} (inv : Invariant a) (kernelStart kernelEnd : Nat) :
    Invariant (a.init kernelStart kernelEnd) := by
  have marks : ∀ (b : FrameAllocator) frame, Invariant b → Invariant (b.markUsed frame) :=
    fun b frame inv => markUsed_invariant inv frame
  dsimp only [init]
  exact Machine.foldl_invariant Invariant marks (Machine.foldl_invariant Invariant marks inv _) _

theorem kernelAllocator_invariant : Invariant kernelAllocator :=
  init_invariant new_invariant _ _

theorem claim_invariant {a : FrameAllocator} (inv : Invariant a) {i : Nat} (lt : i < Mem.totalFrames)
    (clear : Bitmap.test a.bitmap i = false) : Invariant (a.claim i) where
  total := inv.total
  nextFree_le := lt
  used := by
    show a.usedFrames + 1 = Bitmap.count (Bitmap.set a.bitmap i) Mem.totalFrames
    rw [Bitmap.count_set (byte_lt a lt) clear lt, inv.used]

/-- The frame `allocate` hands out is below the count: both loops stop there. -/
theorem lt_of_scanned {a : FrameAllocator} (inv : Invariant a) {i : Nat}
    (range : a.nextFree ≤ i ∧ i < a.totalFrames ∨ i < a.nextFree) : i < Mem.totalFrames := by
  have := inv.nextFree_le
  have := inv.total
  omega

theorem allocate_invariant {a : FrameAllocator} (inv : Invariant a) : Invariant (allocate a).2 := by
  rcases allocate_cases a with ⟨-, same, -⟩ | ⟨i, -, claimed, clear, range⟩
  · rw [same]
    exact inv
  · rw [claimed]
    exact claim_invariant inv (lt_of_scanned inv range) clear

theorem free_invariant {a : FrameAllocator} (inv : Invariant a) (addr : Nat) : Invariant (a.free addr) := by
  dsimp only [free]
  by_cases past : addr / pageSize ≥ a.totalFrames
  · rw [if_pos past]
    exact inv
  · rw [if_neg past]
    by_cases marked : Bitmap.test a.bitmap (addr / pageSize)
    · rw [if_pos marked]
      have lt : addr / pageSize < Mem.totalFrames := by
        rw [← inv.total]
        omega
      have cleared := Bitmap.count_clear marked lt
      refine ⟨inv.total, ?_, ?_⟩
      · show (if addr / pageSize < a.nextFree then addr / pageSize else a.nextFree) ≤ Mem.totalFrames
        have := inv.nextFree_le
        split_ifs <;> omega
      · show a.usedFrames - 1 = Bitmap.count (Bitmap.clear a.bitmap (addr / pageSize)) Mem.totalFrames
        have := inv.used
        omega
    · rw [if_neg marked]
      exact inv

theorem step_invariant {a : FrameAllocator} (inv : Invariant a) : ∀ op, Invariant (a.step op)
  | .allocate => allocate_invariant inv
  | .free addr => free_invariant inv addr

/-! ## The first 2 MiB -/

/-- The frames `init` reserved for the firmware and the kernel are marked. -/
def LowReserved (a : FrameAllocator) : Prop :=
  ∀ i < 512, Bitmap.test a.bitmap i = true

/-- The guard on runs: a free never names a frame of the first 2 MiB. -/
def FreeAbove : FrameOp → Prop
  | .allocate => True
  | .free addr => 0x200000 ≤ addr

theorem kernelAllocator_lowReserved : LowReserved kernelAllocator :=
  fun i lt => (test_kernelAllocator i).mpr lt

theorem allocate_lowReserved {a : FrameAllocator} (inv : Invariant a) (low : LowReserved a) :
    LowReserved (allocate a).2 := by
  rcases allocate_cases a with ⟨-, same, -⟩ | ⟨i, -, claimed, -, range⟩
  · rw [same]
    exact low
  · intro j lt
    rw [claimed, test_claim (lt_of_scanned inv range), low j lt, Bool.or_true]

theorem free_lowReserved {a : FrameAllocator} {addr : Nat} (above : 0x200000 ≤ addr) (low : LowReserved a) :
    LowReserved (a.free addr) := by
  intro j lt
  have other : j ≠ addr / pageSize := by
    simp only [pageSize]
    omega
  rw [test_free, low j lt]
  simp [other]

theorem step_lowReserved {a : FrameAllocator} (inv : Invariant a) (low : LowReserved a) :
    ∀ op, FreeAbove op → LowReserved (a.step op)
  | .allocate, _ => allocate_lowReserved inv low
  | .free _, above => free_lowReserved above low

/-- What `allocate` returns names a frame below the count that was clear
and is marked now. -/
theorem allocate_some {a : FrameAllocator} (inv : Invariant a) {addr : Nat} (returned : (allocate a).1 = some addr) :
    ∃ i < Mem.totalFrames, addr = i * pageSize ∧ Bitmap.test a.bitmap i = false ∧
      Bitmap.test (allocate a).2.bitmap i = true := by
  rcases allocate_cases a with ⟨nothing, -, -⟩ | ⟨i, result, claimed, clear, range⟩
  · rw [nothing] at returned
    cases returned
  · rw [result, Option.some_inj] at returned
    have lt := lt_of_scanned inv range
    refine ⟨i, lt, returned.symm, clear, ?_⟩
    rw [claimed, test_claim lt]
    simp

/-- `allocate` finds nothing only when every frame is marked. -/
theorem allocate_none {a : FrameAllocator} (returned : (allocate a).1 = none) :
    ∀ i < a.totalFrames, Bitmap.test a.bitmap i = true := by
  rcases allocate_cases a with ⟨-, -, marked⟩ | ⟨i, result, -⟩
  · intro i lt
    apply marked i
    omega
  · rw [result] at returned
    cases returned

/-- With every frame in use, `allocate` finds none and changes nothing. -/
theorem allocate_of_full {a : FrameAllocator} (below : a.nextFree ≤ a.totalFrames)
    (full : ∀ i < a.totalFrames, Bitmap.test a.bitmap i = true) : allocate a = (none, a) := by
  rcases allocate_cases a with ⟨nothing, same, -⟩ | ⟨i, -, -, clear, range⟩
  · exact Prod.ext nothing same
  · have inside : i < a.totalFrames := by omega
    rw [full i inside] at clear
    cases clear

/-- One call of `allocate` with the first 2 MiB reserved: what it returns
is the page-aligned address of a frame above them that was clear and is
marked now. -/
theorem allocate_some_above {a : FrameAllocator} (inv : Invariant a) (low : LowReserved a) {addr : Nat}
    (returned : (allocate a).1 = some addr) :
    addr % pageSize = 0 ∧ 0x200000 ≤ addr ∧ addr < totalMemory ∧
      Bitmap.test a.bitmap (addr / pageSize) = false ∧
      Bitmap.test (allocate a).2.bitmap (addr / pageSize) = true := by
  obtain ⟨i, lt, rfl, clear, marked⟩ := allocate_some inv returned
  have above : 512 ≤ i := by
    by_contra below
    have reserved := low i (by omega)
    rw [clear] at reserved
    cases reserved
  have frame : i * pageSize / pageSize = i := by simp [pageSize]
  rw [totalFrames_eq] at lt
  refine ⟨by simp [pageSize], ?_, ?_, by rw [frame]; exact clear, by rw [frame]; exact marked⟩
  · simp only [pageSize]
    omega
  · simp only [totalMemory, pageSize]
    omega

theorem allocate_frames_above_kernel (ops : List FrameOp) (above : ∀ op ∈ ops, FreeAbove op) :
    Invariant (ops.foldl step kernelAllocator) ∧
      ∀ addr, (allocate (ops.foldl step kernelAllocator)).1 = some addr →
        addr % pageSize = 0 ∧ 0x200000 ≤ addr ∧ addr < totalMemory ∧
          Bitmap.test (ops.foldl step kernelAllocator).bitmap (addr / pageSize) = false ∧
          Bitmap.test (allocate (ops.foldl step kernelAllocator)).2.bitmap (addr / pageSize) = true := by
  have both : Invariant (ops.foldl step kernelAllocator) ∧ LowReserved (ops.foldl step kernelAllocator) :=
    Machine.foldl_invariant_of_forall (fun a => Invariant a ∧ LowReserved a) FreeAbove
      (fun a op guard kept => ⟨step_invariant kept.1 op, step_lowReserved kept.1 kept.2 op guard⟩)
      ⟨kernelAllocator_invariant, kernelAllocator_lowReserved⟩ ops above
  exact ⟨both.1, fun addr returned => allocate_some_above both.1 both.2 returned⟩

/-! ## The first frames `kmain`'s allocator hands out -/

theorem test_kernelAllocator_of_le {j : Nat} (high : 512 ≤ j) :
    Bitmap.test kernelAllocator.bitmap j = false :=
  Bool.eq_false_iff.mpr fun set => absurd ((test_kernelAllocator j).mp set) (Nat.not_lt.mpr high)

private theorem lt_totalFrames_kernelAllocator {j : Nat} (lt : j < 32768) : j < kernelAllocator.totalFrames := by
  rw [kernelAllocator_invariant.total, Mem.totalFrames_eq]
  exact lt

/-- Frame 512, the first past 2 MiB. -/
theorem allocate_kernelAllocator :
    allocate kernelAllocator = (some (512 * pageSize), kernelAllocator.claim 512) := by
  apply allocate_of_first_clear
  · rw [nextFree_kernelAllocator]
    exact Nat.zero_le 512
  · exact lt_totalFrames_kernelAllocator (by decide)
  · intro j _ below
    exact (test_kernelAllocator j).mpr below
  · exact test_kernelAllocator_of_le (Nat.le_refl 512)

/-- Then frame 513. -/
theorem allocate_kernelAllocator_claim :
    allocate (kernelAllocator.claim 512) = (some (513 * pageSize), (kernelAllocator.claim 512).claim 513) := by
  apply allocate_of_first_clear
  · exact Nat.le_refl 513
  · rw [totalFrames_claim]
    exact lt_totalFrames_kernelAllocator (by decide)
  · intro j low high
    exact absurd high (Nat.not_lt.mpr low)
  · rw [test_claim (by decide), test_kernelAllocator_of_le (by decide)]
    rfl

/-- A run that frees the first frame it was given: the next allocation
hands out the same, lowest, frame again. -/
theorem allocate_frames_above_kernel_after_free :
    let ops := [FrameOp.allocate, .free 0x200000]
    (∀ op ∈ ops, FreeAbove op) ∧ (allocate (ops.foldl step kernelAllocator)).1 = some 0x200000 ∧
      0x200000 % pageSize = 0 ∧ 0x200000 < totalMemory := by
  intro ops
  have guard : ∀ op ∈ ops, FreeAbove op := by
    simp [ops, FreeAbove]
  have again : (allocate (ops.foldl step kernelAllocator)).1 = some 0x200000 := by
    -- the run over any allocator, so that nothing evaluates `kernelAllocator`'s bitmap
    have steps : ∀ a : FrameAllocator, ops.foldl step a = (allocate a).2.free 0x200000 := fun _ => rfl
    have run : ops.foldl step kernelAllocator = (kernelAllocator.claim 512).free 0x200000 := by
      rw [steps, allocate_kernelAllocator]
    have frame : 0x200000 / pageSize = 512 := rfl
    have lt : 512 < (kernelAllocator.claim 512).totalFrames := by
      rw [totalFrames_claim]
      exact lt_totalFrames_kernelAllocator (by decide)
    have marked : Bitmap.test (kernelAllocator.claim 512).bitmap 512 = true := by
      rw [test_claim (by decide)]
      rfl
    -- the freed frame is clear again, and the cursor is back on it
    have cursor : ((kernelAllocator.claim 512).free 0x200000).nextFree = 512 :=
      nextFree_free (frame ▸ lt) (frame ▸ marked) (by rw [frame]; exact Nat.lt_succ_self 512)
    have clear : Bitmap.test ((kernelAllocator.claim 512).free 0x200000).bitmap 512 = false := by
      rw [test_free, frame, decide_eq_true ⟨rfl, lt⟩]
      rfl
    have inside : 512 < ((kernelAllocator.claim 512).free 0x200000).totalFrames := by
      rw [totalFrames_free]
      exact lt
    have freed := allocate_of_first_clear (Nat.le_of_eq cursor) inside
      (fun j low high => absurd high (Nat.not_lt.mpr (cursor ▸ low))) clear
    rw [run, freed]
    rfl
  obtain ⟨aligned, -, below, -⟩ := (allocate_frames_above_kernel ops guard).2 _ again
  exact ⟨guard, again, aligned, below⟩

end FrameAllocator

end OspabOs.Mem
