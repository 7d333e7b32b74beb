import Mathlib
import OspabOs.Lib.Outcome
import OspabOs.Mem.Frame

/-!
# The virtual memory manager

`mem::vmm`: an `AddressSpace` is a root page table; `allocate_pages` maps
`count` consecutive pages, taking one frame of the frame allocator for
each; `VirtualMemoryManager::allocate_user_memory` is the bump allocator
behind `sys_malloc`, whose cursor `next_user_heap` starts at 64 TiB.

The page-table walking itself is the x86_64 crate's (`Mapper::map_to`,
`VirtAddr::new`), which is not in the repository. It is the parameter
`Paging τ` over an abstract type `τ` of page tables; a result that needs
more than that it exists names what it relies on as a hypothesis.

Every mutable object the code touches is passed and returned: the frame
allocator, the address space (mutated in place, so a failed
`allocate_pages` keeps the pages it mapped before failing) and the
manager's cursor. Machine words are `UInt64`: `usize` is 64 bits wide and
the release build wraps on overflow.

`sys_malloc` rounds its size up to pages with `(size + 4095) / 4096`; for a
size within 4095 of `2 ^ 64` the sum wraps and the page count is 0. The
call then maps nothing, does not move the cursor, and returns the cursor
(`sysMalloc_huge_maps_nothing`).
-/

namespace OspabOs.Mem

open FrameAllocator (allocate)

/-- The `PageTableFlags` bits the kernel sets. -/
structure PageFlags where
  present : Bool
  writable : Bool
  userAccessible : Bool
  deriving DecidableEq, Repr

/-- `USER_PAGE_FLAGS`: present, writable, user accessible. -/
def userPageFlags : PageFlags := ⟨true, true, true⟩

/-- `USER_SPACE_END`. -/
def userSpaceEnd : UInt64 := 0x0000_7FFF_FFFF_FFFF

/-- What the kernel uses of the x86_64 crate's paging code, over page tables
of type `τ`. -/
structure Paging (τ : Type) where
  /-- `VirtAddr::new` (also behind `VirtAddr + u64`): `none` where it panics. -/
  virtAddrNew : UInt64 → Option UInt64
  /-- The tables of a new address space: its zeroed root frame, the
  kernel's upper half copied in (`AddressSpace::new`, then
  `clone_kernel_mappings`). -/
  fresh : UInt64 → τ
  /-- `map_to` of the page holding a virtual address to the frame holding a
  physical one, through `FrameAllocatorWrapper`, which may take frames for
  new tables: `none` where it returns an error. -/
  mapTo : τ → UInt64 → UInt64 → PageFlags → FrameAllocator → Option τ × FrameAllocator

variable {τ : Type}

/-- `AddressSpace`: the frame of its root table and the tables below it. -/
structure AddressSpace (τ : Type) where
  cr3 : UInt64
  tables : τ

/-- The loop of `allocate_pages` from page index `i` on: for each page a
frame, then `map_to`. The address space is mutated in place, so it comes
back with whatever was mapped before an error. -/
def allocatePagesFrom (P : Paging τ) (start : UInt64) (flags : PageFlags) :
    List Nat → AddressSpace τ → FrameAllocator → Outcome String Unit × AddressSpace τ × FrameAllocator
  | [], space, fa => (.ok (), space, fa)
  | i :: rest, space, fa =>
    match P.virtAddrNew (start + i.toUInt64 * 4096) with
    | none => (.panic, space, fa)
    | some virt =>
      match allocate fa with
      | (none, fa) => (.err "Out of physical memory", space, fa)
      | (some frame, fa) =>
        match P.mapTo space.tables virt frame.toUInt64 flags fa with
        | (none, fa) => (.err "Failed to map page", space, fa)
        | (some tables, fa) => allocatePagesFrom P start flags rest { space with tables := tables } fa

/-- `AddressSpace::allocate_pages`. -/
def allocatePages (P : Paging τ) (space : AddressSpace τ) (start : UInt64) (count : Nat) (flags : PageFlags)
    (fa : FrameAllocator) : Outcome String Unit × AddressSpace τ × FrameAllocator :=
  allocatePagesFrom P start flags (List.range count) space fa

/-- `VirtualMemoryManager::create_user_address_space`: a frame for the root
table (`AddressSpace::new`), the kernel half copied in; both steps need the
direct-map offset. -/
def createUserAddressSpace (P : Paging τ) (hhdm : Option UInt64) (fa : FrameAllocator) :
    Outcome String (AddressSpace τ) × FrameAllocator :=
  match hhdm with
  | none => (.err "HHDM offset not available", fa)
  | some _ =>
    match allocate fa with
    | (none, fa) => (.err "Failed to allocate frame for PML4", fa)
    | (some frame, fa) => (.ok { cr3 := frame.toUInt64, tables := P.fresh frame.toUInt64 }, fa)

/-- `VirtualMemoryManager`, as far as user allocations go. -/
structure VirtualMemoryManager where
  nextUserHeap : UInt64
  deriving DecidableEq, Repr

/-- `VirtualMemoryManager::init`: the cursor at 64 TiB. -/
def VirtualMemoryManager.init : VirtualMemoryManager := ⟨0x0000_4000_0000_0000⟩

/-- `allocate_user_memory`: round up to pages, bump the cursor FIRST, then
map. -/
def allocateUserMemory (P : Paging τ) (vmm : VirtualMemoryManager) (size : UInt64) (space : AddressSpace τ)
    (fa : FrameAllocator) :
    Outcome String UInt64 × VirtualMemoryManager × AddressSpace τ × FrameAllocator :=
  if size = 0 then (.err "Cannot allocate 0 bytes", vmm, space, fa)
  else
    let pages := (size + 4095) / 4096
    let startAddr := vmm.nextUserHeap
    match P.virtAddrNew (vmm.nextUserHeap + pages * 4096) with
    | none => (.panic, vmm, space, fa)
    | some next =>
      let vmm := { vmm with nextUserHeap := next }
      match allocatePages P space startAddr pages.toNat userPageFlags fa with
      | (.ok (), space, fa) => (.ok startAddr, vmm, space, fa)
      | (.err e, space, fa) => (.err e, vmm, space, fa)
      | (.panic, space, fa) => (.panic, vmm, space, fa)
      | (.fault, space, fa) => (.fault, vmm, space, fa)

/-- `sys_malloc`, given the current task (`none` when there is none) with
its address space (`none` when it has none) and the manager (`none` before
`init`). Every failure answers `!0`. -/
def sysMalloc (P : Paging τ) (current : Option (Option (AddressSpace τ))) (vmm : Option VirtualMemoryManager)
    (fa : FrameAllocator) (size : UInt64) :
    Outcome String UInt64 × Option VirtualMemoryManager × Option (Option (AddressSpace τ)) × FrameAllocator :=
  if size = 0 then (.ok 0, vmm, current, fa)
  else
    match current, vmm with
    | some (some space), some vmm =>
      match allocateUserMemory P vmm size space fa with
      | (.ok addr, vmm, space, fa) => (.ok addr, some vmm, some (some space), fa)
      | (.err _, vmm, space, fa) => (.ok (~~~0), some vmm, some (some space), fa)
      | (.panic, vmm, space, fa) => (.panic, some vmm, some (some space), fa)
      | (.fault, vmm, space, fa) => (.fault, some vmm, some (some space), fa)
    | _, _ => (.ok (~~~0), vmm, current, fa)

/-- `allocate_pages` of one page at an address `VirtAddr::new` keeps: one
frame, then one `map_to`. -/
theorem allocatePages_one (P : Paging τ) (space : AddressSpace τ) {start : UInt64}
    (keeps : P.virtAddrNew start = some start) (flags : PageFlags) (fa : FrameAllocator) :
    allocatePages P space start 1 flags fa =
      match allocate fa with
      | (none, fa) => (.err "Out of physical memory", space, fa)
      | (some frame, fa) =>
        match P.mapTo space.tables start frame.toUInt64 flags fa with
        | (none, fa) => (.err "Failed to map page", space, fa)
        | (some tables, fa) => (.ok (), { space with tables := tables }, fa) := by
  have first : start + (0 : Nat).toUInt64 * 4096 = start := by simp
  simp only [allocatePages, List.range_one, allocatePagesFrom, first, keeps]

/-- A paging layer that keeps every address and maps every page without
taking frames, as the crate does for a page of a fresh user address space
with the kernel's tables in place. -/
def keepAllPaging : Paging Unit where
  virtAddrNew := some
  fresh := fun _ => ()
  mapTo := fun tables _ _ _ fa => (some tables, fa)

/-! ## A size that wraps -/

/-- Mapping no page does nothing. -/
@[simp] theorem allocatePages_zero (P : Paging τ) (space : AddressSpace τ) (start : UInt64) (flags : PageFlags)
    (fa : FrameAllocator) : allocatePages P space start 0 flags fa = (.ok (), space, fa) := rfl

/-- The page count of a size within 4095 of `2 ^ 64` wraps to 0. -/
theorem pages_of_huge {size : UInt64} (huge : 2 ^ 64 - 4096 < size.toNat) : (size + 4095) / 4096 = 0 := by
  rw [← UInt64.toNat_inj, UInt64.toNat_div, UInt64.toNat_add]
  have lt := size.toNat_lt
  have four : (4096 : UInt64).toNat = 4096 := rfl
  have round : (4095 : UInt64).toNat = 4095 := rfl
  rw [four, round, UInt64.toNat_zero]
  omega

/-- For a size within 4095 of `2 ^ 64`, `allocate_user_memory` returns the
cursor, leaves it where it is, and maps nothing, provided `VirtAddr::new`
keeps the cursor (as it does every canonical address). -/
theorem allocateUserMemory_huge (P : Paging τ) (vmm : VirtualMemoryManager) {size : UInt64}
    (huge : 2 ^ 64 - 4096 < size.toNat) (keeps : P.virtAddrNew vmm.nextUserHeap = some vmm.nextUserHeap)
    (space : AddressSpace τ) (fa : FrameAllocator) :
    allocateUserMemory P vmm size space fa = (.ok vmm.nextUserHeap, vmm, space, fa) := by
  have nonzero : size ≠ 0 := by
    intro zero
    rw [zero] at huge
    simp at huge
  simp only [allocateUserMemory, nonzero, if_false, pages_of_huge huge, UInt64.zero_mul, UInt64.add_zero,
    keeps, UInt64.toNat_zero, allocatePages_zero]

/-- `sys_malloc(size)` for a size within 4095 of `2 ^ 64`, in a task with an
address space: it answers the cursor as a valid allocation, with no page
mapped for it, the cursor, the address space and the frames unchanged. -/
theorem sysMalloc_huge_maps_nothing (P : Paging τ) (vmm : VirtualMemoryManager) {size : UInt64}
    (huge : 2 ^ 64 - 4096 < size.toNat) (keeps : P.virtAddrNew vmm.nextUserHeap = some vmm.nextUserHeap)
    (space : AddressSpace τ) (fa : FrameAllocator) :
    sysMalloc P (some (some space)) (some vmm) fa size = (.ok vmm.nextUserHeap, some vmm, some (some space), fa) := by
  have nonzero : size ≠ 0 := by
    intro zero
    rw [zero] at huge
    simp at huge
  simp only [sysMalloc, nonzero, if_false, allocateUserMemory_huge P vmm huge keeps]

/-- `sys_malloc(usize::MAX)` as the first user allocation: it answers the
cursor, not `!0`, as the address of `2 ^ 64 - 1` bytes, with nothing mapped
and nothing moved, and the range it names runs past `USER_SPACE_END`. The
next allocation starts at the same address. -/
theorem sysMalloc_max_returns_unmapped_cursor (P : Paging τ)
    (keeps : P.virtAddrNew 0x0000_4000_0000_0000 = some 0x0000_4000_0000_0000)
    (space : AddressSpace τ) (fa : FrameAllocator) :
    sysMalloc P (some (some space)) (some VirtualMemoryManager.init) fa (~~~0) =
        (.ok 0x0000_4000_0000_0000, some VirtualMemoryManager.init, some (some space), fa) ∧
      (0x0000_4000_0000_0000 : UInt64) ≠ ~~~0 ∧
      userSpaceEnd.toNat < (0x0000_4000_0000_0000 : UInt64).toNat + (~~~0 : UInt64).toNat :=
  ⟨sysMalloc_huge_maps_nothing P VirtualMemoryManager.init (by decide) keeps space fa, by decide, by decide⟩

/-- The same call with the paging layer that keeps every address. -/
theorem sysMalloc_max_keepAll :
    sysMalloc keepAllPaging (some (some ⟨0, ()⟩)) (some VirtualMemoryManager.init) FrameAllocator.new (~~~0) =
        (.ok 0x0000_4000_0000_0000, some VirtualMemoryManager.init, some (some ⟨0, ()⟩), FrameAllocator.new) ∧
      (0x0000_4000_0000_0000 : UInt64) ≠ ~~~0 ∧
      userSpaceEnd.toNat < (0x0000_4000_0000_0000 : UInt64).toNat + (~~~0 : UInt64).toNat :=
  sysMalloc_max_returns_unmapped_cursor keepAllPaging rfl _ _

end OspabOs.Mem
