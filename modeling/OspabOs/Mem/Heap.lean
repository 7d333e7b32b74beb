import OspabOs.Lib.Align
import OspabOs.Mem.Frame

/-!
# The kernel heap

`mm::heap_allocator` is the kernel's global allocator: a bump allocator
over one region of physical memory, seen through the higher-half direct
map. `init` scans the bootloader's memory map for the LARGEST usable entry
of at least 16 MiB that starts at or above 1 MiB (the first one on ties)
and gives the heap its first `min(length, 32 MiB)` bytes; with no such
entry it panics, which is `none` here.

The frame allocator of `Mem.Frame` is set up independently, from
constants, and does not look at this choice: on a machine whose one
usable region starts at 2 MiB the first frame it hands out is the heap's
first page (`first_frame_inside_heap`).

The map is the list of entries Limine reports; `memory_map()` returning
`None` is the empty list, which `init` treats the same way.

`alloc` bumps a cursor: it rounds `allocated` up to the layout's
alignment with a mask and takes `size` bytes there if they fit below
`heap_size`; `dealloc` does nothing. Layouts carry Rust's own invariant
(a power-of-two alignment, the rounded-up size within `isize::MAX`), and
with a heap of at most 32 MiB none of the unchecked additions wraps, so
`alloc` is the round-up of `Lib.Align` on `Nat` (`alloc_cases`). Over
every sequence of layouts from the state `init` leaves, the blocks come
out in address order, each in bounds and each aligned when the heap
starts on a page and the alignment is at most a page
(`alloc_blocks_sound`).
-/

namespace OspabOs.Mem

open OspabOs.Align OspabOs.Machine

/-- `limine::MemmapEntry`. -/
structure MemmapEntry where
  base : UInt64
  length : UInt64
  typ : UInt64
  deriving DecidableEq, Repr

/-- `limine::MEMMAP_USABLE`. -/
def memmapUsable : UInt64 := 0

namespace HeapAllocator

/-- The loop of `init`: the base and length of the best entry so far. -/
def bestUsable (memmap : List MemmapEntry) : Option UInt64 × UInt64 :=
  memmap.foldl
    (fun best entry =>
      if entry.typ = memmapUsable then
        if entry.base < 0x100000 then best
        else if entry.length ≥ 16 * 1024 * 1024 ∧ entry.length > best.2 then (some entry.base, entry.length)
        else best
      else best)
    (none, 0)

/-- `heap_size`: the best length, capped at 32 MiB. -/
def heapSizeOf (bestSize : UInt64) : Nat :=
  min bestSize.toNat (32 * 1024 * 1024)

/-- `SimpleAllocator`'s three cells. -/
structure SimpleAllocator where
  heapStart : Option UInt64
  heapSize : UInt64
  allocated : UInt64
  deriving DecidableEq, Repr

/-- `heap_allocator::init`, given the map and the direct-map offset. -/
def init (memmap : List MemmapEntry) (hhdm : Option UInt64) : Option SimpleAllocator :=
  match bestUsable memmap with
  | (some base, bestSize) =>
    some { heapStart := some (base + hhdm.getD 0), heapSize := (heapSizeOf bestSize).toUInt64, allocated := 0 }
  | (none, _) => none

/-- The physical memory `init` gives the heap, `[best_base, best_base + heap_size)`. -/
def physicalRange (memmap : List MemmapEntry) : Option (Nat × Nat) :=
  match bestUsable memmap with
  | (some base, bestSize) => some (base.toNat, base.toNat + heapSizeOf bestSize)
  | (none, _) => none

/-- `SimpleAllocator::alloc`: round the bump pointer up to the alignment
and take `size` bytes if they fit. -/
def alloc (a : SimpleAllocator) (size align : UInt64) : Option UInt64 × SimpleAllocator :=
  match a.heapStart with
  | some start =>
    let aligned := (a.allocated + align - 1) &&& ~~~(align - 1)
    if aligned + size ≤ a.heapSize then (some (start + aligned), { a with allocated := aligned + size })
    else (none, a)
  | none => (none, a)

/-- One usable region of 16 MiB at 2 MiB: `init` gives the heap all of
it, and the first frame `kmain`'s frame allocator hands out is the
heap's first page. -/
theorem first_frame_inside_heap :
    physicalRange [⟨0x200000, 0x1000000, memmapUsable⟩] = some (0x200000, 0x1200000) ∧
      (FrameAllocator.allocate FrameAllocator.kernelAllocator).1 = some 0x200000 := by
  refine ⟨by decide, ?_⟩
  rw [FrameAllocator.allocate_kernelAllocator]
  rfl

/-! ## Layouts -/

/-- `core::alloc::Layout`: a size and a power-of-two alignment, with the
size rounded up to the alignment no larger than `isize::MAX`. -/
structure Layout where
  size : UInt64
  align : UInt64
  pow : ∃ k, align.toNat = 2 ^ k
  bounded : roundUp size.toNat align.toNat ≤ 2 ^ 63 - 1

namespace Layout

variable (l : Layout)

theorem align_pos : 0 < l.align.toNat := by
  obtain ⟨k, pow⟩ := l.pow
  rw [pow]
  exact Nat.two_pow_pos k

/-- A layout's size and alignment together stay far below `2 ^ 64`: a
non-empty block rounds up to at least its alignment, so both are within
`isize::MAX`, and the alignment, a power of two, is then at most `2 ^ 62`. -/
theorem size_add_align : l.size.toNat + l.align.toNat < 2 ^ 63 + 2 ^ 62 := by
  obtain ⟨k, pow⟩ := l.pow
  have word : 2 ^ k < 2 ^ 64 := pow ▸ UInt64.toNat_lt l.align
  have roundedUp := le_roundUp (n := l.size.toNat) l.align_pos
  have bounded := l.bounded
  by_cases empty : l.size.toNat = 0
  · have atMost : 2 ^ k ≤ 2 ^ 63 :=
      Nat.pow_le_pow_right (by decide) (Nat.le_of_lt_succ ((Nat.pow_lt_pow_iff_right (by decide)).mp word))
    omega
  · have alignFits := le_roundUp_of_pos l.align_pos (Nat.pos_of_ne_zero empty)
    have below : 2 ^ k < 2 ^ 63 := by omega
    have atMost : 2 ^ k ≤ 2 ^ 62 :=
      Nat.pow_le_pow_right (by decide) (Nat.le_of_lt_succ ((Nat.pow_lt_pow_iff_right (by decide)).mp below))
    omega

end Layout

/-! ## `alloc` on a started heap -/

/-- The allocator `init` leaves, at any later point: the heap at `start`
of `heapSize` bytes, the cursor within it. -/
def Started (start heapSize : UInt64) (a : SimpleAllocator) : Prop :=
  a.heapStart = some start ∧ a.heapSize = heapSize ∧ a.allocated.toNat ≤ heapSize.toNat

section Started

variable {start heapSize : UInt64} {a : SimpleAllocator}

/-- What `alloc` does on a started heap of at most 32 MiB: the cursor
rounded up by the mask is `roundUp` of `Nat`, and the block is taken
exactly when it fits. -/
theorem alloc_cases (l : Layout) (started : Started start heapSize a)
    (small : heapSize.toNat ≤ 32 * 1024 * 1024) :
    (roundUp a.allocated.toNat l.align.toNat + l.size.toNat ≤ heapSize.toNat ∧
      ∃ aligned : UInt64, aligned.toNat = roundUp a.allocated.toNat l.align.toNat ∧
        (aligned + l.size).toNat = aligned.toNat + l.size.toNat ∧
        alloc a l.size l.align = (some (start + aligned), { a with allocated := aligned + l.size })) ∨
    (heapSize.toNat < roundUp a.allocated.toNat l.align.toNat + l.size.toNat ∧ alloc a l.size l.align = (none, a)) := by
  obtain ⟨begun, sized, within⟩ := started
  obtain ⟨k, pow⟩ := l.pow
  have sizes := l.size_add_align
  have rounded : ((a.allocated + l.align - 1) &&& ~~~(l.align - 1)).toNat =
      roundUp a.allocated.toNat l.align.toNat :=
    UInt64Mask.toNat_alignUp _ _ pow (by omega)
  have upper := roundUp_lt (n := a.allocated.toNat) l.align_pos
  -- the end of the block does not wrap either
  have noWrap : (((a.allocated + l.align - 1) &&& ~~~(l.align - 1)) + l.size).toNat =
      roundUp a.allocated.toNat l.align.toNat + l.size.toNat := by
    rw [UInt64.toNat_add, rounded, Nat.mod_eq_of_lt (by simpa using (by omega : _ < 2 ^ 64))]
  unfold alloc
  rw [begun, sized]
  dsimp only
  by_cases fits : roundUp a.allocated.toNat l.align.toNat + l.size.toNat ≤ heapSize.toNat
  · refine .inl ⟨fits, _, rounded, by rw [noWrap, rounded], ?_⟩
    rw [if_pos (by rw [UInt64.le_iff_toNat_le, noWrap]; exact fits)]
  · refine .inr ⟨Nat.lt_of_not_le fits, ?_⟩
    rw [if_neg (by rw [UInt64.le_iff_toNat_le, noWrap]; exact fits)]

/-- One call of `alloc`, as a step of the allocator's state. -/
def allocStep (a : SimpleAllocator) (l : Layout) : SimpleAllocator := (alloc a l.size l.align).2

/-- A sequence of `alloc` calls. -/
def allocRun (a : SimpleAllocator) (layouts : List Layout) : SimpleAllocator := layouts.foldl allocStep a

/-- A non-null pointer is the heap start plus the rounded-up cursor, and
the cursor moves to the end of the block. -/
theorem alloc_some (l : Layout) (started : Started start heapSize a)
    (small : heapSize.toNat ≤ 32 * 1024 * 1024) {p : UInt64} (returned : (alloc a l.size l.align).1 = some p) :
    ∃ aligned : UInt64, p = start + aligned ∧ aligned.toNat = roundUp a.allocated.toNat l.align.toNat ∧
      (allocStep a l).allocated.toNat = aligned.toNat + l.size.toNat ∧
      aligned.toNat + l.size.toNat ≤ heapSize.toNat := by
  rcases alloc_cases l started small with ⟨fits, aligned, rounded, sum, taken⟩ | ⟨-, refused⟩
  · rw [taken, Option.some.injEq] at returned
    refine ⟨aligned, returned.symm, rounded, ?_, rounded ▸ fits⟩
    unfold allocStep
    rw [taken]
    exact sum
  · rw [refused] at returned
    cases returned

/-- `alloc` returns null exactly when the rounded-up request does not fit. -/
theorem alloc_none_iff (l : Layout) (started : Started start heapSize a)
    (small : heapSize.toNat ≤ 32 * 1024 * 1024) :
    (alloc a l.size l.align).1 = none ↔ heapSize.toNat < roundUp a.allocated.toNat l.align.toNat + l.size.toNat := by
  rcases alloc_cases l started small with ⟨fits, _, _, _, taken⟩ | ⟨tooBig, refused⟩
  · rw [taken]
    simp only [reduceCtorEq, false_iff, Nat.not_lt]
    exact fits
  · rw [refused]
    exact ⟨fun _ => tooBig, fun _ => rfl⟩

/-- A step keeps the heap started and never moves the cursor back. -/
theorem allocStep_started (l : Layout) (started : Started start heapSize a)
    (small : heapSize.toNat ≤ 32 * 1024 * 1024) :
    Started start heapSize (allocStep a l) ∧ a.allocated.toNat ≤ (allocStep a l).allocated.toNat := by
  rcases alloc_cases l started small with ⟨fits, aligned, rounded, sum, taken⟩ | ⟨-, refused⟩
  · obtain ⟨begun, sized, -⟩ := started
    have up := le_roundUp (n := a.allocated.toNat) l.align_pos
    unfold allocStep
    rw [taken]
    refine ⟨⟨begun, sized, ?_⟩, ?_⟩
    · show (aligned + l.size).toNat ≤ heapSize.toNat
      omega
    · show a.allocated.toNat ≤ (aligned + l.size).toNat
      omega
  · unfold allocStep
    rw [refused]
    exact ⟨started, Nat.le_refl _⟩

/-- Over a whole sequence of calls the heap stays started and the cursor
never moves back. -/
theorem allocRun_started (layouts : List Layout) (started : Started start heapSize a)
    (small : heapSize.toNat ≤ 32 * 1024 * 1024) :
    Started start heapSize (allocRun a layouts) ∧ a.allocated.toNat ≤ (allocRun a layouts).allocated.toNat := by
  apply foldl_invariant (fun b => Started start heapSize b ∧ a.allocated.toNat ≤ b.allocated.toNat)
  · rintro b l ⟨startedB, behind⟩
    obtain ⟨startedNext, forward⟩ := allocStep_started l startedB small
    exact ⟨startedNext, Nat.le_trans behind forward⟩
  · exact ⟨started, Nat.le_refl _⟩

end Started

/-- The allocator `init` leaves is started at its heap, with the cursor at
0 and at most 32 MiB to hand out. -/
theorem init_started {memmap : List MemmapEntry} {hhdm : Option UInt64} {a : SimpleAllocator}
    (found : init memmap hhdm = some a) :
    ∃ start, a = ⟨some start, a.heapSize, 0⟩ ∧ a.heapSize.toNat ≤ 32 * 1024 * 1024 := by
  unfold init at found
  split at found
  · next base bestSize _ =>
    cases found
    have capped : heapSizeOf bestSize ≤ 32 * 1024 * 1024 := Nat.min_le_right _ _
    refine ⟨base + hhdm.getD 0, rfl, ?_⟩
    show (heapSizeOf bestSize).toUInt64.toNat ≤ _
    rw [Nat.toUInt64_eq, UInt64.toNat_ofNat_of_lt' (by unfold UInt64.size; omega)]
    exact capped
  · cases found

/-- From the state `init` leaves, for every sequence of layouts: a block
is in bounds, and aligned when the heap starts on a page and the
alignment is at most a page; a later block starts after the end of an
earlier one; the cursor never moves back and stays within the heap; and
`alloc` returns null exactly when the rounded-up request does not fit. -/
theorem alloc_blocks_sound (start heapSize : UInt64) (page : start.toNat % 4096 = 0)
    (small : heapSize.toNat ≤ 32 * 1024 * 1024) :
    (∀ (pre : List Layout) (l : Layout) (p : UInt64), l.align.toNat ≤ 4096 →
      (alloc (allocRun ⟨some start, heapSize, 0⟩ pre) l.size l.align).1 = some p →
        p.toNat % l.align.toNat = 0 ∧ (p - start).toNat + l.size.toNat ≤ heapSize.toNat) ∧
    (∀ (pre mid : List Layout) (l l' : Layout) (p q : UInt64),
      (alloc (allocRun ⟨some start, heapSize, 0⟩ pre) l.size l.align).1 = some p →
      (alloc (allocRun ⟨some start, heapSize, 0⟩ (pre ++ l :: mid)) l'.size l'.align).1 = some q →
        (p - start).toNat + l.size.toNat ≤ (q - start).toNat) ∧
    (∀ pre post : List Layout,
      (allocRun ⟨some start, heapSize, 0⟩ pre).allocated.toNat ≤
          (allocRun ⟨some start, heapSize, 0⟩ (pre ++ post)).allocated.toNat ∧
        (allocRun ⟨some start, heapSize, 0⟩ (pre ++ post)).allocated.toNat ≤ heapSize.toNat) ∧
    (∀ (pre : List Layout) (l : Layout),
      (alloc (allocRun ⟨some start, heapSize, 0⟩ pre) l.size l.align).1 = none ↔
        heapSize.toNat < roundUp (allocRun ⟨some start, heapSize, 0⟩ pre).allocated.toNat l.align.toNat + l.size.toNat) := by
  have initial : Started start heapSize ⟨some start, heapSize, 0⟩ := ⟨rfl, rfl, Nat.zero_le _⟩
  have reached := fun pre => (allocRun_started pre initial small).1
  refine ⟨fun pre l p pageAlign returned => ?_, fun pre mid l l' p q first second => ?_,
    fun pre post => ?_, fun pre l => alloc_none_iff l (reached pre) small⟩
  · -- in bounds, and aligned: the start is a multiple of 4096, hence of the alignment
    obtain ⟨aligned, rfl, rounded, -, fits⟩ := alloc_some l (reached pre) small returned
    obtain ⟨k, pow⟩ := l.pow
    have atMostPage : k ≤ 12 := by
      have bound : 2 ^ k ≤ 2 ^ 12 := by
        rw [← pow]
        exact pageAlign
      exact (Nat.pow_le_pow_iff_right (by decide)).mp bound
    have startAligned : start.toNat % 2 ^ k = 0 :=
      Nat.mod_eq_zero_of_dvd (Nat.dvd_trans (Nat.pow_dvd_pow 2 atMostPage) (Nat.dvd_of_mod_eq_zero page))
    have offsetAligned : aligned.toNat % 2 ^ k = 0 := by
      rw [rounded, ← pow]
      exact roundUp_mod
    refine ⟨?_, ?_⟩
    · rw [pow]
      exact UInt64Mask.toNat_add_mod_eq_zero (by omega) startAligned offsetAligned
    · rw [add_sub_cancel_left]
      exact fits
  · -- the second call starts at or after the cursor, which is past the first block
    obtain ⟨aligned, rfl, -, moved, -⟩ := alloc_some l (reached pre) small first
    obtain ⟨aligned', rfl, rounded', -, -⟩ := alloc_some l' (reached (pre ++ l :: mid)) small second
    have later : (allocStep (allocRun ⟨some start, heapSize, 0⟩ pre) l).allocated.toNat ≤
        (allocRun ⟨some start, heapSize, 0⟩ (pre ++ l :: mid)).allocated.toNat := by
      have split : allocRun ⟨some start, heapSize, 0⟩ (pre ++ l :: mid) =
          allocRun (allocStep (allocRun ⟨some start, heapSize, 0⟩ pre) l) mid := by
        unfold allocRun
        rw [List.foldl_append, List.foldl_cons]
      rw [split]
      exact (allocRun_started mid (allocStep_started l (reached pre) small).1 small).2
    have up := le_roundUp (n := (allocRun ⟨some start, heapSize, 0⟩ (pre ++ l :: mid)).allocated.toNat) l'.align_pos
    rw [add_sub_cancel_left, add_sub_cancel_left]
    omega
  · have split : allocRun ⟨some start, heapSize, 0⟩ (pre ++ post) =
        allocRun (allocRun ⟨some start, heapSize, 0⟩ pre) post := List.foldl_append
    rw [split]
    obtain ⟨⟨-, -, within⟩, forward⟩ := allocRun_started post (reached pre) small
    exact ⟨forward, within⟩

theorem alloc_blocks_sound_at_2MiB :
    (0x200000 : UInt64).toNat % 4096 = 0 ∧ (0x1000000 : UInt64).toNat ≤ 32 * 1024 * 1024 ∧
      ∀ pre post : List Layout,
        (allocRun ⟨some 0x200000, 0x1000000, 0⟩ pre).allocated.toNat ≤
            (allocRun ⟨some 0x200000, 0x1000000, 0⟩ (pre ++ post)).allocated.toNat ∧
          (allocRun ⟨some 0x200000, 0x1000000, 0⟩ (pre ++ post)).allocated.toNat ≤ (0x1000000 : UInt64).toNat :=
  ⟨by decide, by decide, (alloc_blocks_sound 0x200000 0x1000000 (by decide) (by decide)).2.2.1⟩

end HeapAllocator

end OspabOs.Mem
