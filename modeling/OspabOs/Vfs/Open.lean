import Mathlib
import OspabOs.Fs.Handle
import OspabOs.Vfs.Service

/-!
# Opening a file, and reading it to the end

`VFSService::open_handle` is the descriptor path to a file: it writes out
the relative-path join of `ReadFile` once more, resolves the path the same
way, and hands back a `MemFileHandle` over a copy of a regular file's
bytes. `services::vfs::open` reaches it through the global `VFS` cell, and
`exec_user_path` reads the handle into a vector with a 4096-byte buffer
until a read returns 0, before it loads the bytes as an ELF image.

For every path that `ReadFile` resolves to a regular file with content
`d`, `open(p, 0)` is a handle over `d` from its start (`vfsOpen_regular`);
successive reads of it return the consecutive chunks `chunkReads` names,
and then 0 forever (`readEach_mem`, `chunkReads_nil`); and the loop of
`exec_user_path` ends with exactly `d` after `⌈|d| / 4096⌉ + 1` reads
(`readToEnd_mem`). What `exec_user_path` does with the bytes afterwards
(the ELF loader and the switch to user mode) is not modelled here.
-/

namespace OspabOs.Vfs

open OspabOs.Text OspabOs.Fs

/-- `VFSService::open_handle`. -/
def openHandle (s : VfsState) (path : List Char) (flags : OpenFlags) : Except FsError FileHandle :=
  match resolvePath s.root (normalizePath (joinCwd s.currentDir path)) with
  | none => .error .notFound
  | some node =>
    match node.fileType with
    | .regular =>
      if flags = .writeOnly ∨ flags = .readWrite then .error .permission
      else .ok (.mem (MemFileHandle.new (node.data.getD [])))
    | .device =>
      match node.deviceId.getD 0 with
      | 0 => .ok (.device .null)
      | 1 => .ok (.device .zero)
      | 2 => .ok (.device .keyboard)
      | 3 => .ok (.device .framebuffer)
      | 4 => .ok (.device .serial)
      | _ => .error .invalid
    | .directory => .error .notFile
    | .link => .error .invalid

/-- `services::vfs::open` (a Lean keyword, hence the name): the service in
the global cell, if it has been initialised, opens the path with the
flags read from the low bits. -/
def vfsOpen (vfs : Option VfsState) (path : List Char) (flags : UInt64) : Except FsError FileHandle :=
  match vfs with
  | none => .error .invalid
  | some s => openHandle s path (OpenFlags.fromBits flags)

/-- The read-until-zero loop of `exec_user_path`, for at most `fuel` reads.
`key n` is what `try_read_key` returns at the `n`-th read, which only the
keyboard device looks at. -/
def readToEnd (key : Nat → Option Char) :
    Nat → Nat → FileHandle → List UInt8 → List UInt8 → Option (Except (List Char) (List UInt8))
  | 0, _, _, _, _ => none
  | fuel + 1, n, handle, buf, data =>
    match handle.read buf (key n) with
    | (.error _, _, _) => some (.error "read failed".toList)
    | (.ok read, buf, handle) =>
      if read = 0 then some (.ok data)
      -- `data.extend_from_slice(&buf[..read])`
      else readToEnd key fuel (n + 1) handle buf (data ++ buf.take read)

/-- The bytes `exec_user_path` collects before it calls `load_user_elf`:
open with flags 0, then the loop over `[0u8; 4096]`. -/
def execUserPathData (vfs : Option VfsState) (key : Nat → Option Char) (fuel : Nat)
    (path : List Char) : Option (Except (List Char) (List UInt8)) :=
  match vfsOpen vfs path 0 with
  | .error _ => some (.error "open failed".toList)
  | .ok handle => readToEnd key fuel 0 handle (List.replicate 4096 0) []

/-- Successive `read` calls on one handle, one for each buffer, with what
each returns. -/
def readEach (key : Nat → Option Char) : Nat → FileHandle → List (List UInt8) →
    List (Except FsError Nat × List UInt8)
  | _, _, [] => []
  | n, handle, buf :: bufs =>
    let (result, buf, handle) := handle.read buf (key n)
    (result, buf) :: readEach key (n + 1) handle bufs

/-- What successive reads of `d` are meant to return: the next
`min(buffer length, bytes left)` bytes of `d` at the front of each
buffer, the rest of the buffer as it was. -/
def chunkReads (d : List UInt8) : List (List UInt8) → List (Except FsError Nat × List UInt8)
  | [] => []
  | buf :: bufs =>
    (.ok (min d.length buf.length), d.take buf.length ++ buf.drop (min d.length buf.length)) ::
      chunkReads (d.drop buf.length) bufs

/-- Once `d` is used up, every read returns 0 and leaves its buffer alone. -/
theorem chunkReads_nil (bufs : List (List UInt8)) : chunkReads [] bufs = bufs.map (fun buf => (.ok 0, buf)) := by
  induction bufs with
  | nil => rfl
  | cons buf bufs ih => simp [chunkReads, ih]

/-! ## `open` agrees with `ReadFile` -/

/-- `open` with read-only flags of a path that resolves to a regular file
is a handle over the bytes `ReadFile` returns for it. -/
theorem vfsOpen_regular (s : VfsState) (p : List Char) {node : VNode} {flags : UInt64}
    (resolves : resolvePath s.root (normalizePath (joinCwd s.currentDir p)) = some node)
    (regular : node.fileType = .regular) (readOnly : OpenFlags.fromBits flags = .readOnly) :
    readFile s p = .fileData (node.data.getD []) ∧
      vfsOpen (some s) p flags = .ok (.mem (MemFileHandle.new (node.data.getD []))) := by
  constructor
  · unfold readFile
    rw [resolves]
    simp only [regular]
  · show openHandle s p (OpenFlags.fromBits flags) = _
    unfold openHandle
    rw [resolves, readOnly]
    simp only [regular, reduceCtorEq, or_self, if_false]

/-! ## Reading a file handle -/

/-- Reading a `MemFileHandle` returns the chunks of what it has left. -/
theorem readEach_mem (key : Nat → Option Char) (n : Nat) (h : MemFileHandle) (bufs : List (List UInt8)) :
    readEach key n (.mem h) bufs = chunkReads h.rest bufs := by
  induction bufs generalizing n h with
  | nil => rfl
  | cons buf bufs ih =>
    have step : readEach key n (.mem h) (buf :: bufs) =
        ((h.read buf).1, (h.read buf).2.1) :: readEach key (n + 1) (.mem (h.read buf).2.2) bufs := rfl
    rw [step, ih, MemFileHandle.rest_read, MemFileHandle.read_eq]
    rfl

/-- One turn of the loop on a `MemFileHandle`: a read of nothing ends it
with the data so far, any other read appends the bytes it returned. -/
theorem readToEnd_mem_succ (key : Nat → Option Char) (fuel n : Nat) (h : MemFileHandle)
    (buf data : List UInt8) :
    readToEnd key (fuel + 1) n (.mem h) buf data =
      if min h.rest.length buf.length = 0 then some (.ok data)
      else readToEnd key fuel (n + 1) (.mem (h.read buf).2.2)
        (h.rest.take buf.length ++ buf.drop (min h.rest.length buf.length))
        (data ++ h.rest.take buf.length) := by
  have taken : (h.rest.take buf.length ++ buf.drop (min h.rest.length buf.length)).take
      (min h.rest.length buf.length) = h.rest.take buf.length := by
    rw [List.take_append_of_le_length (by rw [List.length_take, Nat.min_comm]),
      List.take_of_length_le (by rw [List.length_take, Nat.min_comm])]
  simp only [readToEnd, FileHandle.read]
  rw [MemFileHandle.read_eq]
  simp only [taken]

/-- The loop of `exec_user_path` over a `MemFileHandle`, with a 4096-byte
buffer and fuel for `⌈|rest| / 4096⌉ + 1` reads, appends exactly what the
handle has left. -/
theorem readToEnd_mem (key : Nat → Option Char) (fuel n : Nat) (h : MemFileHandle) (buf data : List UInt8)
    (full : buf.length = 4096) (enough : (h.rest.length + 4095) / 4096 + 1 ≤ fuel) :
    readToEnd key fuel n (.mem h) buf data = some (.ok (data ++ h.rest)) := by
  -- on the fuel: each turn takes 4096 bytes off `rest`, or ends the loop
  induction fuel generalizing n h buf data with
  | zero => omega
  | succ fuel ih =>
    rw [readToEnd_mem_succ, full]
    by_cases empty : h.rest.length = 0
    · rw [if_pos (by rw [empty]; rfl), List.eq_nil_of_length_eq_zero empty, List.append_nil]
    · have moved : (h.read buf).2.2.rest = h.rest.drop buf.length := MemFileHandle.rest_read
      rw [full] at moved
      rw [if_neg (by omega), ih]
      · rw [moved, List.append_assoc, List.take_append_drop]
      · rw [List.length_append, List.length_take, List.length_drop, full]
        omega
      · rw [moved, List.length_drop]
        omega

/-! ## The descriptor read path -/

/-- For every state and every path that `ReadFile` resolves to a regular
file with content `d`: `open(p, 0)` is a handle over `d`, successive reads
of it return the consecutive chunks of `d` and then 0, and the loop of
`exec_user_path` ends with exactly `d`. -/
theorem open_read_agrees (s : VfsState) (p : List Char) {node : VNode} {d : List UInt8}
    (resolves : resolvePath s.root (normalizePath (joinCwd s.currentDir p)) = some node)
    (regular : node.fileType = .regular) (content : readFile s p = .fileData d) :
    vfsOpen (some s) p 0 = .ok (.mem (MemFileHandle.new d)) ∧
      (∀ key bufs, readEach key 0 (.mem (MemFileHandle.new d)) bufs = chunkReads d bufs) ∧
      ∀ key fuel, (d.length + 4095) / 4096 + 1 ≤ fuel → execUserPathData (some s) key fuel p = some (.ok d) := by
  obtain ⟨read, opened⟩ := vfsOpen_regular s p resolves regular
    (show OpenFlags.fromBits 0 = .readOnly from rfl)
  have same : node.data.getD [] = d := by
    rw [read] at content
    injection content
  rw [same] at opened
  have whole : (MemFileHandle.new d).rest = d := List.drop_zero
  refine ⟨opened, fun key bufs => ?_, fun key fuel enough => ?_⟩
  · rw [readEach_mem, whole]
  · unfold execUserPathData
    rw [opened]
    dsimp only
    rw [readToEnd_mem key fuel 0 _ _ [] List.length_replicate (by rw [whole]; exact enough), whole,
      List.nil_append]

theorem open_read_agrees_hostname :
    resolvePath (VfsState.init []).root (normalizePath (joinCwd (VfsState.init []).currentDir "/etc/hostname".toList)) =
        some (VNode.newFile "hostname".toList (encode "ospabOS\n".toList)) ∧
      (VNode.newFile "hostname".toList (encode "ospabOS\n".toList)).fileType = .regular ∧
      readFile (VfsState.init []) "/etc/hostname".toList = .fileData (encode "ospabOS\n".toList) ∧
      execUserPathData (some (VfsState.init [])) (fun _ => none) 2 "/etc/hostname".toList =
        some (.ok (encode "ospabOS\n".toList)) :=
  ⟨rfl, rfl, rfl, ((open_read_agrees (VfsState.init []) "/etc/hostname".toList rfl rfl rfl).2.2
    (fun _ => none) 2 (by decide))⟩

end OspabOs.Vfs
