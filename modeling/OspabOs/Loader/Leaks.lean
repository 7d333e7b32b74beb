import Mathlib
import OspabOs.Loader.Elf

/-!
# What a failed mapping leaves behind

None of `allocate_pages`, `allocate_user_memory` and `load_user_elf` undoes
its work when it fails.

- `load_user_elf` creates the whole address space, and takes the frame of
  its root table, before it reads the first program header; an error after
  that (a segment out of range, a page that cannot be mapped, the stack)
  drops the address space without freeing anything, so the frame stays
  marked in `FRAME_ALLOCATOR` (`loadUserElf_rangeElf`).
- `allocate_user_memory` moves `next_user_heap` past the request BEFORE it
  maps the pages, so a request the frame allocator cannot serve still uses
  up its share of the user heap (`allocateUserMemory_exhausted`).
- `allocate_pages` maps page after page; frames taken and pages mapped
  before a failure stay (`allocatePagesFrom` returns the address space as
  it was when the loop stopped).
-/

namespace OspabOs.Loader

open Mem FrameAllocator

variable {τ : Type}

/-! ## An ELF file whose segment lies past its end -/

/-- A 120-byte x86-64 ELF file whose one `PT_LOAD` program header has
`p_offset = 0x1000` and `p_filesz = 1`: past the end of the file. -/
def rangeElf : List UInt8 :=
  [0x7F, 0x45, 0x4C, 0x46, 2, 1, 1, 0, 0, 0, 0, 0, 0, 0, 0, 0,
   2, 0, 0x3E, 0, 1, 0, 0, 0,
   0, 0, 0x40, 0, 0, 0, 0, 0,
   64, 0, 0, 0, 0, 0, 0, 0,
   0, 0, 0, 0, 0, 0, 0, 0,
   0, 0, 0, 0, 64, 0, 56, 0,
   1, 0, 0, 0, 0, 0, 0, 0,
   1, 0, 0, 0, 5, 0, 0, 0,
   0, 0x10, 0, 0, 0, 0, 0, 0,
   0, 0, 0x40, 0, 0, 0, 0, 0,
   0, 0, 0x40, 0, 0, 0, 0, 0,
   1, 0, 0, 0, 0, 0, 0, 0,
   0, 0x10, 0, 0, 0, 0, 0, 0,
   0, 0x10, 0, 0, 0, 0, 0, 0]

theorem checkHeader_rangeElf :
    checkHeader rangeElf = .ok ⟨rangeElf.take 16, 0x3E, 0x400000, 64, 56, 1⟩ := by
  decide

/-- The loop over the program headers of `rangeElf` stops at its one
header, whatever the state: the segment is out of range. -/
theorem loadProgramHeaders_rangeElf (P : Paging τ) (st : LoadState τ) :
    loadProgramHeaders P rangeElf 64 56 [0] st = (.err "ELF segment out of range", st) := by
  have length : rangeElf.length = 120 := rfl
  have inTable : ¬ ((64 : UInt64) + (0 : Nat).toUInt64 * 56 + programHeaderSize.toUInt64 >
      rangeElf.length.toUInt64) := by
    rw [length]
    decide
  have inData : ¬ (((64 : UInt64) + (0 : Nat).toUInt64 * 56).toNat + programHeaderSize > rangeElf.length) := by
    rw [length]
    decide
  have read : Elf64ProgramHeader.read rangeElf ((64 : UInt64) + (0 : Nat).toUInt64 * 56).toNat =
      ⟨1, 0x1000, 0x400000, 1, 0x1000⟩ := by
    decide
  have outOfRange : (0x1000 : UInt64) + 1 > rangeElf.length.toUInt64 := by
    rw [length]
    decide
  simp only [loadProgramHeaders, loadProgramHeader_of_load P st inTable inData read rfl]
  simp only [loadSegment, if_pos outOfRange]

/-- `load_user_elf` of `rangeElf`, for every paging layer and every frame
allocator with a free frame: the address space is created, taking a
frame, and the loader then fails on the segment with that frame still
marked. -/
theorem loadUserElf_rangeElf (P : Paging τ) (vmm : VirtualMemoryManager) (hhdm : UInt64) {fa : FrameAllocator}
    {addr : Nat} (free : (allocate fa).1 = some addr) :
    loadUserElf P (some vmm) (some hhdm) fa rangeElf = (.err "ELF segment out of range", (allocate fa).2, []) := by
  have table : List.range (1 : UInt16).toNat = [0] := rfl
  have entrySize : (56 : UInt16).toUInt64 = 56 := rfl
  have taken : allocate fa = (some addr, (allocate fa).2) := Prod.ext free rfl
  have created : createUserAddressSpace P (some hhdm) fa =
      (.ok ⟨addr.toUInt64, P.fresh addr.toUInt64⟩, (allocate fa).2) := by
    unfold createUserAddressSpace
    dsimp only
    rw [taken]
  simp only [loadUserElf, checkHeader_rangeElf, created, table, entrySize, loadProgramHeaders_rangeElf]

/-! ## A heap request with no frame to serve it -/

/-- `allocate_user_memory` with the frame allocator exhausted: the request
fails on its first page, and `next_user_heap` has moved past it all the
same. The address space and the frames are as they were. -/
theorem allocateUserMemory_exhausted (P : Paging τ) (vmm : VirtualMemoryManager) {size next : UInt64}
    (nonzero : size ≠ 0) (pages : (size + 4095) / 4096 ≠ 0)
    (keepsStart : P.virtAddrNew vmm.nextUserHeap = some vmm.nextUserHeap)
    (keepsEnd : P.virtAddrNew (vmm.nextUserHeap + (size + 4095) / 4096 * 4096) = some next)
    (space : AddressSpace τ) {fa : FrameAllocator} (exhausted : allocate fa = (none, fa)) :
    allocateUserMemory P vmm size space fa = (.err "Out of physical memory", ⟨next⟩, space, fa) := by
  -- the page loop starts at index 0, the cursor itself
  obtain ⟨rest, range⟩ : ∃ rest, List.range ((size + 4095) / 4096).toNat = 0 :: rest := by
    have positive : 0 < ((size + 4095) / 4096).toNat := by
      rw [Nat.pos_iff_ne_zero, Ne, ← UInt64.toNat_zero, UInt64.toNat_inj]
      exact pages
    obtain ⟨k, hk⟩ := Nat.exists_eq_succ_of_ne_zero (Nat.pos_iff_ne_zero.mp positive)
    exact ⟨(List.range k).map Nat.succ, by rw [hk, List.range_succ_eq_map]⟩
  have first : vmm.nextUserHeap + (0 : Nat).toUInt64 * 4096 = vmm.nextUserHeap := by simp
  have failed : allocatePages P space vmm.nextUserHeap ((size + 4095) / 4096).toNat userPageFlags fa =
      (.err "Out of physical memory", space, fa) := by
    simp only [allocatePages, range, allocatePagesFrom, first, keepsStart, exhausted]
  simp only [allocateUserMemory, nonzero, if_false, keepsEnd, failed]

/-! ## The frame allocator with every frame in use -/

/-- Every one of the 32768 frames marked. -/
def fullAllocator : FrameAllocator where
  bitmap := List.replicate bitmapSize 0xFF
  nextFree := Mem.totalFrames
  totalFrames := Mem.totalFrames
  usedFrames := Mem.totalFrames
  bitmap_length := List.length_replicate

theorem allocate_fullAllocator : allocate fullAllocator = (none, fullAllocator) := by
  apply allocate_of_full (Nat.le_refl _)
  intro i inside
  apply Bitmap.test_replicate_allSet
  have frames : Mem.totalFrames = 32768 := totalFrames_eq
  change i < Mem.totalFrames at inside
  rw [bitmapSize_eq]
  omega

/-! ## Failures that change the state -/

/-- Failed calls keep what they did: `load_user_elf` of `rangeElf` fails
with the frame of the new address space's root table still marked, for
every allocator with a free frame; and `allocate_user_memory` with no free
frame fails with `next_user_heap` moved to the end of the request. -/
theorem failed_mapping_leaks (P : Paging τ) (vmm : VirtualMemoryManager) :
    (∀ (hhdm : UInt64) (fa : FrameAllocator) (addr : Nat), Invariant fa → (allocate fa).1 = some addr →
      (loadUserElf P (some vmm) (some hhdm) fa rangeElf).1 = .err "ELF segment out of range" ∧
        ∃ i, Bitmap.test fa.bitmap i = false ∧
          Bitmap.test (loadUserElf P (some vmm) (some hhdm) fa rangeElf).2.1.bitmap i = true) ∧
    (∀ (size next : UInt64) (space : AddressSpace τ) (fa : FrameAllocator),
      size ≠ 0 → (size + 4095) / 4096 ≠ 0 →
      P.virtAddrNew vmm.nextUserHeap = some vmm.nextUserHeap →
      P.virtAddrNew (vmm.nextUserHeap + (size + 4095) / 4096 * 4096) = some next →
      allocate fa = (none, fa) →
      (allocateUserMemory P vmm size space fa).1 = .err "Out of physical memory" ∧
        (allocateUserMemory P vmm size space fa).2.1.nextUserHeap = next) := by
  refine ⟨fun hhdm fa addr inv free => ?_, fun size next space fa nonzero pages keepsStart keepsEnd exhausted => ?_⟩
  · obtain ⟨i, -, -, clear, marked⟩ := allocate_some inv free
    rw [loadUserElf_rangeElf P vmm hhdm free]
    exact ⟨rfl, i, clear, marked⟩
  · rw [allocateUserMemory_exhausted P vmm nonzero pages keepsStart keepsEnd space exhausted]
    exact ⟨rfl, rfl⟩

theorem failed_mapping_leaks_at_boot :
    (loadUserElf keepAllPaging (some VirtualMemoryManager.init) (some 0) kernelAllocator rangeElf).1 =
        .err "ELF segment out of range" ∧
      Bitmap.test kernelAllocator.bitmap 512 = false ∧
      Bitmap.test (loadUserElf keepAllPaging (some VirtualMemoryManager.init) (some 0) kernelAllocator
        rangeElf).2.1.bitmap 512 = true ∧
      (allocateUserMemory keepAllPaging VirtualMemoryManager.init 1 ⟨0, ()⟩ fullAllocator).1 =
        .err "Out of physical memory" ∧
      (allocateUserMemory keepAllPaging VirtualMemoryManager.init 1 ⟨0, ()⟩ fullAllocator).2.1.nextUserHeap =
        0x0000_4000_0000_1000 := by
  have leaks := failed_mapping_leaks keepAllPaging VirtualMemoryManager.init
  have elf := leaks.1 0 kernelAllocator (512 * pageSize) kernelAllocator_invariant
    (by rw [allocate_kernelAllocator])
  have heap := leaks.2 1 0x0000_4000_0000_1000 ⟨0, ()⟩ fullAllocator (by decide) (by decide) rfl rfl
    allocate_fullAllocator
  have loaded : (loadUserElf keepAllPaging (some VirtualMemoryManager.init) (some 0) kernelAllocator
      rangeElf).2.1 = kernelAllocator.claim 512 := by
    rw [loadUserElf_rangeElf keepAllPaging _ 0 (by rw [allocate_kernelAllocator]), allocate_kernelAllocator]
  refine ⟨elf.1, test_kernelAllocator_of_le (Nat.le_refl 512), ?_, heap⟩
  rw [loaded, test_claim (by decide)]
  rfl

end OspabOs.Loader
