import Mathlib
import OspabOs.Mem.Vmm

/-!
# The ELF loader

`loader::elf::load_user_elf`: check the ELF header, create an address
space, then for each `PT_LOAD` program header map its pages, zero them
and copy the segment's bytes in, and last map and zero a 16 KiB stack.

The header fields are read little-endian from the bytes at their
`repr(C)` offsets. Every bound the loader checks is a sum or a product of
64-bit fields computed with wrapping arithmetic, so each check can pass on
a sum that wrapped:

- `p_offset + p_filesz > len` lets through an offset near `2 ^ 64` whose
  sum wraps small; the slice `data[p_offset..p_offset + p_filesz]` that
  follows then starts after it ends and PANICS (`overflowElf` and
  `loadUserElf_overflowElf`);
- `phoff + phentsize * phnum > len` and `off + 56 > len` do the same for
  the program-header table, and the unaligned read that follows is past
  the slice, a FAULT.

What the loader writes through the new address space is recorded as a
list of `(address, bytes)`, so that a statement can say where it wrote.
-/

namespace OspabOs.Loader

open Mem

/-- The number held little-endian in `width` bytes of `data` from `off`. -/
def readLE (data : List UInt8) (off width : Nat) : Nat :=
  ((data.drop off).take width).foldr (fun b acc => b.toNat + 256 * acc) 0

/-- `ELF_MAGIC`. -/
def elfMagic : List UInt8 := [0x7F, 0x45, 0x4C, 0x46]

/-- `ELF_CLASS_64`. -/
def elfClass64 : UInt8 := 2

/-- `ELF_DATA_LITTLE`. -/
def elfDataLittle : UInt8 := 1

/-- `ELF_MACHINE_X86_64`. -/
def elfMachineX86_64 : UInt16 := 0x3E

/-- `PT_LOAD`. -/
def ptLoad : UInt32 := 1

/-- `USER_STACK_SIZE`. -/
def userStackSize : Nat := 4096 * 4

/-- `USER_STACK_TOP`. -/
def userStackTop : UInt64 := 0x0000_7FFF_FFFF_F000

/-- `size_of::<Elf64Header>()`. -/
def headerSize : Nat := 64

/-- `size_of::<Elf64ProgramHeader>()`. -/
def programHeaderSize : Nat := 56

/-- The flags segments and the stack are mapped with: present, user
accessible, writable. -/
def loadFlags : PageFlags := ⟨true, true, true⟩

/-- `Elf64Header`, the fields the loader reads. -/
structure Elf64Header where
  eIdent : List UInt8
  eMachine : UInt16
  eEntry : UInt64
  ePhoff : UInt64
  ePhentsize : UInt16
  ePhnum : UInt16
  deriving DecidableEq, Repr

/-- The header at the start of `data` (`read_unaligned` at offset 0). -/
def Elf64Header.read (data : List UInt8) : Elf64Header where
  eIdent := data.take 16
  eMachine := (readLE data 18 2).toUInt16
  eEntry := (readLE data 24 8).toUInt64
  ePhoff := (readLE data 32 8).toUInt64
  ePhentsize := (readLE data 54 2).toUInt16
  ePhnum := (readLE data 56 2).toUInt16

/-- `Elf64ProgramHeader`, the fields the loader reads. -/
structure Elf64ProgramHeader where
  pType : UInt32
  pOffset : UInt64
  pVaddr : UInt64
  pFilesz : UInt64
  pMemsz : UInt64
  deriving DecidableEq, Repr

/-- The program header at `off`. -/
def Elf64ProgramHeader.read (data : List UInt8) (off : Nat) : Elf64ProgramHeader where
  pType := (readLE data off 4).toUInt32
  pOffset := (readLE data (off + 8) 8).toUInt64
  pVaddr := (readLE data (off + 16) 8).toUInt64
  pFilesz := (readLE data (off + 32) 8).toUInt64
  pMemsz := (readLE data (off + 40) 8).toUInt64

/-- The checks before any memory is touched: the header's size, magic,
class, byte order and machine, and the program-header table's bound. -/
def checkHeader (data : List UInt8) : Except String Elf64Header :=
  if data.length < headerSize then .error "ELF header too small"
  else
    let header := Elf64Header.read data
    if header.eIdent.take 4 ≠ elfMagic then .error "Invalid ELF magic"
    else if header.eIdent.getD 4 0 ≠ elfClass64 then .error "Not ELF64"
    else if header.eIdent.getD 5 0 ≠ elfDataLittle then .error "Not little endian ELF"
    else if header.eMachine ≠ elfMachineX86_64 then .error "Unsupported ELF machine"
    else if header.ePhoff + header.ePhentsize.toUInt64 * header.ePhnum.toUInt64 > data.length.toUInt64 then
      .error "ELF program headers out of range"
    else .ok header

/-- What the loader has done so far: the address space it builds, the frame
allocator, and what it wrote where, oldest first. -/
structure LoadState (τ : Type) where
  space : AddressSpace τ
  frames : FrameAllocator
  writes : List (UInt64 × List UInt8)

variable {τ : Type}

/-- Map one `PT_LOAD` segment and fill it: zeros over `p_memsz` bytes, then
the file's bytes `data[p_offset..p_offset + p_filesz]` at its start. -/
def loadSegment (P : Paging τ) (data : List UInt8) (ph : Elf64ProgramHeader) (st : LoadState τ) :
    Outcome String Unit × LoadState τ :=
  if ph.pOffset + ph.pFilesz > data.length.toUInt64 then (.err "ELF segment out of range", st)
  else
    let segStart := ph.pVaddr &&& ~~~0xFFF
    let segEnd := (ph.pVaddr + ph.pMemsz + 0xFFF) &&& ~~~0xFFF
    let pages := (segEnd - segStart) / 4096
    match P.virtAddrNew segStart with
    | none => (.panic, st)
    | some start =>
      match allocatePages P st.space start pages.toNat loadFlags st.frames with
      | (.ok (), space, frames) =>
        let st := { st with space := space, frames := frames }
        -- the slice of the file, then the prefix of the segment it is copied into
        let lo := ph.pOffset.toNat
        let hi := (ph.pOffset + ph.pFilesz).toNat
        if lo > hi ∨ hi > data.length then (.panic, st)
        else if hi - lo > ph.pMemsz.toNat then (.panic, st)
        else
          let src := (data.drop lo).take (hi - lo)
          (.ok (), { st with writes := st.writes ++ [(ph.pVaddr, src ++ List.replicate (ph.pMemsz.toNat - src.length) 0)] })
      | (other, space, frames) => (other, { st with space := space, frames := frames })

/-- The body of the loop over program headers, for header `idx`. -/
def loadProgramHeader (P : Paging τ) (data : List UInt8) (phoff phentsize : UInt64) (idx : Nat)
    (st : LoadState τ) : Outcome String Unit × LoadState τ :=
  let off := phoff + idx.toUInt64 * phentsize
  if off + programHeaderSize.toUInt64 > data.length.toUInt64 then (.err "ELF program header truncated", st)
  -- the check wrapped: the unaligned read is past the slice
  else if off.toNat + programHeaderSize > data.length then (.fault, st)
  else
    let ph := Elf64ProgramHeader.read data off.toNat
    if ph.pType ≠ ptLoad then (.ok (), st)
    else loadSegment P data ph st

/-- The loop `for idx in 0..phnum`, stopping at the first error. -/
def loadProgramHeaders (P : Paging τ) (data : List UInt8) (phoff phentsize : UInt64) :
    List Nat → LoadState τ → Outcome String Unit × LoadState τ
  | [], st => (.ok (), st)
  | idx :: rest, st =>
    match loadProgramHeader P data phoff phentsize idx st with
    | (.ok (), st) => loadProgramHeaders P data phoff phentsize rest st
    | other => other

/-- `ElfLoadResult`. -/
structure ElfLoadResult (τ : Type) where
  entry : UInt64
  userStack : UInt64
  addressSpace : AddressSpace τ

/-- `load_user_elf`, given the manager (`none` before `init`), the direct-map
offset and the frame allocator. It returns the outcome with the frames and
the writes as they are when it stops. -/
def loadUserElf (P : Paging τ) (vmm : Option VirtualMemoryManager) (hhdm : Option UInt64) (fa : FrameAllocator)
    (data : List UInt8) : Outcome String (ElfLoadResult τ) × FrameAllocator × List (UInt64 × List UInt8) :=
  match checkHeader data with
  | .error e => (.err e, fa, [])
  | .ok header =>
    match vmm with
    | none => (.err "VMM not initialized", fa, [])
    | some _ =>
      match createUserAddressSpace P hhdm fa with
      | (.ok space, fa) =>
        match loadProgramHeaders P data header.ePhoff header.ePhentsize.toUInt64
            (List.range header.ePhnum.toNat) ⟨space, fa, []⟩ with
        | (.ok (), st) =>
          let stackStart := userStackTop - userStackSize.toUInt64
          match P.virtAddrNew stackStart with
          | none => (.panic, st.frames, st.writes)
          | some start =>
            match allocatePages P st.space start (userStackSize / 4096) loadFlags st.frames with
            | (.ok (), space, frames) =>
              (.ok ⟨header.eEntry, userStackTop - 16, space⟩, frames,
                st.writes ++ [(stackStart, List.replicate userStackSize 0)])
            | (.err e, _, frames) => (.err e, frames, st.writes)
            | (.panic, _, frames) => (.panic, frames, st.writes)
            | (.fault, _, frames) => (.fault, frames, st.writes)
        | (.err e, st) => (.err e, st.frames, st.writes)
        | (.panic, st) => (.panic, st.frames, st.writes)
        | (.fault, st) => (.fault, st.frames, st.writes)
      | (.err e, fa) => (.err e, fa, [])
      | (.panic, fa) => (.panic, fa, [])
      | (.fault, fa) => (.fault, fa, [])

/-! ## One program header -/

/-- A program header that lies inside the file, by both of the loader's
checks, and is `PT_LOAD` is loaded as a segment. -/
theorem loadProgramHeader_of_load (P : Paging τ) {data : List UInt8} {phoff phentsize : UInt64} {idx : Nat}
    (st : LoadState τ) {ph : Elf64ProgramHeader}
    (inTable : ¬ (phoff + idx.toUInt64 * phentsize + programHeaderSize.toUInt64 > data.length.toUInt64))
    (inData : ¬ ((phoff + idx.toUInt64 * phentsize).toNat + programHeaderSize > data.length))
    (read : Elf64ProgramHeader.read data (phoff + idx.toUInt64 * phentsize).toNat = ph) (load : ph.pType = ptLoad) :
    loadProgramHeader P data phoff phentsize idx st = loadSegment P data ph st := by
  dsimp only [loadProgramHeader]
  rw [if_neg inTable, if_neg inData, read, if_neg (not_not.mpr load)]

/-! ## A segment whose end wraps -/

/-- A `PT_LOAD` header whose `p_offset + p_filesz` wraps past `2 ^ 64` to at
most the file's length passes the range check; once its pages are mapped,
the slice of the file that follows starts after it ends, and the loader
panics. -/
theorem loadSegment_wrapped (P : Paging τ) (data : List UInt8) (ph : Elf64ProgramHeader) (st : LoadState τ)
    (passes : ph.pOffset + ph.pFilesz ≤ data.length.toUInt64)
    (wraps : 2 ^ 64 ≤ ph.pOffset.toNat + ph.pFilesz.toNat) {start : UInt64}
    (canonical : P.virtAddrNew (ph.pVaddr &&& ~~~0xFFF) = some start) {space : AddressSpace τ}
    {frames : FrameAllocator}
    (mapped : allocatePages P st.space start
      ((((ph.pVaddr + ph.pMemsz + 0xFFF) &&& ~~~0xFFF) - (ph.pVaddr &&& ~~~0xFFF)) / 4096).toNat loadFlags
        st.frames = (.ok (), space, frames)) :
    (loadSegment P data ph st).1 = .panic := by
  -- the wrapped end is below the start, whatever the file holds
  have backwards : (ph.pOffset + ph.pFilesz).toNat < ph.pOffset.toNat := by
    rw [UInt64.toNat_add]
    have := ph.pFilesz.toNat_lt
    omega
  dsimp only [loadSegment]
  rw [if_neg (fun beyond => absurd passes (UInt64.not_le.mpr beyond))]
  simp only [canonical, mapped]
  rw [if_pos (.inl backwards)]

/-- A 120-byte x86-64 ELF file: the header, then one `PT_LOAD` program
header with `p_offset = 2 ^ 64 - 1`, `p_filesz = 1`, `p_vaddr = 0x400000`
and `p_memsz = 0x1000`. -/
def overflowElf : List UInt8 :=
  [0x7F, 0x45, 0x4C, 0x46, 2, 1, 1, 0, 0, 0, 0, 0, 0, 0, 0, 0,
   2, 0, 0x3E, 0, 1, 0, 0, 0,
   0, 0, 0x40, 0, 0, 0, 0, 0,
   64, 0, 0, 0, 0, 0, 0, 0,
   0, 0, 0, 0, 0, 0, 0, 0,
   0, 0, 0, 0, 64, 0, 56, 0,
   1, 0, 0, 0, 0, 0, 0, 0,
   1, 0, 0, 0, 5, 0, 0, 0,
   0xFF, 0xFF, 0xFF, 0xFF, 0xFF, 0xFF, 0xFF, 0xFF,
   0, 0, 0x40, 0, 0, 0, 0, 0,
   0, 0, 0x40, 0, 0, 0, 0, 0,
   1, 0, 0, 0, 0, 0, 0, 0,
   0, 0x10, 0, 0, 0, 0, 0, 0,
   0, 0x10, 0, 0, 0, 0, 0, 0]

/-- Its program header, as the loader reads it. -/
def overflowHeader : Elf64ProgramHeader := ⟨1, 0xFFFF_FFFF_FFFF_FFFF, 0x400000, 1, 0x1000⟩

theorem checkHeader_overflowElf :
    checkHeader overflowElf = .ok ⟨overflowElf.take 16, 0x3E, 0x400000, 64, 56, 1⟩ := by
  decide

theorem loadProgramHeader_overflowElf (P : Paging τ) (st : LoadState τ) :
    loadProgramHeader P overflowElf 64 56 0 st = loadSegment P overflowElf overflowHeader st := by
  have length : overflowElf.length = 120 := rfl
  have inTable : ¬ ((64 : UInt64) + (0 : Nat).toUInt64 * 56 + programHeaderSize.toUInt64 >
      overflowElf.length.toUInt64) := by
    rw [length]
    decide
  have inData : ¬ (((64 : UInt64) + (0 : Nat).toUInt64 * 56).toNat + programHeaderSize > overflowElf.length) := by
    rw [length]
    decide
  have read : Elf64ProgramHeader.read overflowElf ((64 : UInt64) + (0 : Nat).toUInt64 * 56).toNat =
      overflowHeader := by
    decide
  exact loadProgramHeader_of_load P st inTable inData read rfl

/-- The segment of `overflowElf`, with a frame to spare: it panics once its
page is mapped, and otherwise `map_to` failed. -/
theorem loadSegment_overflowHeader (P : Paging τ) (start : P.virtAddrNew 0x400000 = some 0x400000)
    (st : LoadState τ) {frame : Nat} {frames : FrameAllocator}
    (free : FrameAllocator.allocate st.frames = (some frame, frames)) :
    (loadSegment P overflowElf overflowHeader st).1 = .panic ∨
      (loadSegment P overflowElf overflowHeader st).1 = .err "Failed to map page" := by
  have segStart : overflowHeader.pVaddr &&& ~~~0xFFF = 0x400000 := by decide
  have pages : ((((overflowHeader.pVaddr + overflowHeader.pMemsz + 0xFFF) &&& ~~~0xFFF) - 0x400000) /
      4096).toNat = 1 := by decide
  have passes : overflowHeader.pOffset + overflowHeader.pFilesz ≤ overflowElf.length.toUInt64 := by
    rw [show overflowElf.length = 120 from rfl]
    decide
  have one := allocatePages_one P st.space start loadFlags st.frames
  rw [free] at one
  rcases mapped : P.mapTo st.space.tables 0x400000 frame.toUInt64 loadFlags frames with ⟨_ | tables, frames'⟩
  · right
    dsimp only at one
    rw [mapped] at one
    dsimp only at one
    dsimp only [loadSegment]
    rw [if_neg (fun beyond => absurd passes (UInt64.not_le.mpr beyond))]
    simp only [segStart, start, pages, one]
  · left
    dsimp only at one
    rw [mapped] at one
    dsimp only at one
    have canonical : P.virtAddrNew (overflowHeader.pVaddr &&& ~~~0xFFF) = some 0x400000 := by
      rw [segStart]
      exact start
    have mappedPages : allocatePages P st.space 0x400000 ((((overflowHeader.pVaddr + overflowHeader.pMemsz +
        0xFFF) &&& ~~~0xFFF) - (overflowHeader.pVaddr &&& ~~~0xFFF)) / 4096).toNat loadFlags st.frames =
          (.ok (), { st.space with tables := tables }, frames') := by
      rw [segStart, pages]
      exact one
    exact loadSegment_wrapped P overflowElf overflowHeader st passes (by decide) canonical mappedPages

/-- `load_user_elf` on `overflowElf`, with the frame allocator as `kmain`
leaves it and the manager initialized: the header checks and the range
check pass, and unless `map_to` refuses the segment's one page the loader
PANICS on the slice `data[2 ^ 64 - 1..0]`. The one fact used of the crate
is that `VirtAddr::new` keeps an address below `2 ^ 47`. -/
theorem loadUserElf_overflowElf (P : Paging τ) (keeps : ∀ a : UInt64, a.toNat < 2 ^ 47 → P.virtAddrNew a = some a)
    (vmm : VirtualMemoryManager) (hhdm : UInt64) :
    (loadUserElf P (some vmm) (some hhdm) FrameAllocator.kernelAllocator overflowElf).1 = .panic ∨
      (loadUserElf P (some vmm) (some hhdm) FrameAllocator.kernelAllocator overflowElf).1 =
        .err "Failed to map page" := by
  have segment := loadSegment_overflowHeader P (keeps _ (by decide))
    ⟨⟨(512 * pageSize).toUInt64, P.fresh (512 * pageSize).toUInt64⟩, FrameAllocator.kernelAllocator.claim 512, []⟩
    FrameAllocator.allocate_kernelAllocator_claim
  have table : List.range (1 : UInt16).toNat = [0] := rfl
  have entrySize : (56 : UInt16).toUInt64 = 56 := rfl
  simp only [loadUserElf, checkHeader_overflowElf, createUserAddressSpace, FrameAllocator.allocate_kernelAllocator, table,
    entrySize, loadProgramHeaders, loadProgramHeader_overflowElf]
  -- the rest of the run only passes the segment's outcome on
  generalize loadSegment P overflowElf overflowHeader _ = result at segment ⊢
  obtain ⟨outcome, after⟩ := result
  rcases segment with panicked | failed
  · left
    dsimp only at panicked
    subst panicked
    rfl
  · right
    dsimp only at failed
    subst failed
    rfl

/-- With a paging layer that maps the page, as the crate does in a fresh
address space, the loader panics. -/
theorem loadUserElf_overflowElf_keepAll :
    (loadUserElf keepAllPaging (some VirtualMemoryManager.init) (some 0) FrameAllocator.kernelAllocator
        overflowElf).1 = .panic ∨
      (loadUserElf keepAllPaging (some VirtualMemoryManager.init) (some 0) FrameAllocator.kernelAllocator
        overflowElf).1 = .err "Failed to map page" :=
  loadUserElf_overflowElf keepAllPaging (fun _ _ => rfl) _ _

end OspabOs.Loader
