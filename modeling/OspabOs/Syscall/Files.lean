import Mathlib
import OspabOs.Fs.FdTable
import OspabOs.Vfs.Open
import OspabOs.Vfs.Cwd
import OspabOs.Apps.Coreutils
import OspabOs.Lib.ArrayLoop

/-!
# The file system calls

`syscall::dispatch_syscall` hands six calls to the file system: `sys_write`
(2), `sys_read` (3), `sys_open` (7), `sys_chdir` (10), `sys_getcwd` (11) and
`sys_listdir` (12). They act on the three fields of `Kernel`: the VFS
service in its global cell, the descriptor table of the running task
(`none` when `current_task_mut` finds no task), and user memory, one byte
at each address. A path comes in through `read_c_string` (at most
`MAX_LEN` bytes up to a NUL, then `String::from_utf8`), a string goes out
through `write_user_string` (what fits before a NUL), and a descriptor
argument is cast `as u32`.

Between two calls the user program writes its own memory, and the
kernel's other clients (the shell, the coreutils, Grape) send requests to
the VFS. `Event` has a letter for each of the three, and a run is any
interleaving of them.

- **A descriptor is a stream over a snapshot.** `sys_open` of a regular
  file puts a handle over a COPY of its bytes in the lowest free slot.
  Whatever runs afterwards (reads on other descriptors, new opens, writes
  to the same file, stores to memory), the reads on that slot deliver the
  copy in order, nothing lost and nothing twice: the bytes they deliver,
  then what the handle has left, are the file as it was at `open`
  (`delivered_append_restAt`, `open_then_reads_deliver_file`). A
  descriptor argument is read `as u32`, so `fd + 2 ^ 32` reads the same
  slot as `fd`; `delivered` counts those reads too.
- **Calls write user memory only where they report**
  (`syscalls_write_only_reported`): a read only the bytes it counts, a
  string copy only its bytes and the NUL, never past the buffer.
- **`getcwd` then `chdir` on the same buffer** is a successful `chdir` to
  where the task already is, when the buffer holds the whole path
  (`getcwd_then_chdir`).

No call panics: the one index that could fail, `out[to_copy]` of
`write_user_string`, sits behind the `len == 0` checks of both callers
(`Call.exec_isSome`).

Not here: the other ten calls of `dispatch_syscall`; a task switch, which
would change whose table the calls see; and what the devices print on
`write`.
-/

namespace OspabOs.Syscall

open Fs Vfs Text ArrayLoop Coreutils

/-- `!0`, what a failing call returns. -/
def errorCode : UInt64 := ~~~0

/-- What the file system calls read and write. -/
structure Kernel where
  vfs : Option VfsState
  fds : Option FdTable
  mem : Nat → UInt8

/-- `core::slice::from_raw_parts(buf, len)`: `len` bytes of user memory from `buf`. -/
def userBytes (mem : Nat → UInt8) (buf len : Nat) : List UInt8 :=
  window (fun i => mem (buf + i)) len

/-- `MAX_LEN` of `read_c_string`. -/
def maxLen : Nat := 1024

/-- `read_c_string`: no string at a null pointer; otherwise the bytes before
the first NUL among the first `MAX_LEN`, if they are UTF-8. -/
def readCString (mem : Nat → UInt8) (ptr : UInt64) : Option (List Char) :=
  if ptr = 0 then none
  else fromUtf8 ((userBytes mem ptr.toNat maxLen).takeWhile (· != 0))

/-- `write_user_string`: as many bytes of `s` as fit before a NUL, then the
NUL, and the count. `none` is the panic of `out[to_copy] = 0` on an empty
buffer. -/
def writeUserString (mem : Nat → UInt8) (dst : UInt64) (len : Nat) (s : List Char) :
    Option (UInt64 × (Nat → UInt8)) :=
  let bytes := encode s
  -- `len.saturating_sub(1)`
  let toCopy := min bytes.length (len - 1)
  if toCopy < len then some (toCopy.toUInt64, writeList mem dst.toNat (bytes.take toCopy ++ [0]))
  else none

/-- A handle changed through `get_mut`, in its slot again. -/
def writeBack (t : FdTable) (fd : UInt32) (handle : FileHandle) : FdTable :=
  ⟨t.entries.set fd.toNat (some handle)⟩

/-- `sys_write`: the count the handle accepts. No modelled state changes. -/
def sysWrite (k : Kernel) (fd buf len : UInt64) : UInt64 :=
  if buf = 0 ∨ len = 0 then 0
  else
    match k.fds with
    | none => errorCode
    | some t =>
      match t.getMut fd.toUInt32 with
      | .error _ => errorCode
      | .ok handle =>
        match handle.write (userBytes k.mem buf.toNat len.toNat) with
        | .ok written => written.toUInt64
        | .error _ => errorCode

/-- `sys_read`. `key` is what `try_read_key` returns, which only the
keyboard reads. -/
def sysRead (k : Kernel) (key : Option Char) (fd buf len : UInt64) : UInt64 × Kernel :=
  if buf = 0 ∨ len = 0 then (0, k)
  else
    match k.fds with
    | none => (errorCode, k)
    | some t =>
      match t.getMut fd.toUInt32 with
      | .error _ => (errorCode, k)
      | .ok handle =>
        -- the handle fills the slice of user memory in place
        match handle.read (userBytes k.mem buf.toNat len.toNat) key with
        | (result, out, handle) =>
          let after := { k with fds := some (writeBack t fd.toUInt32 handle), mem := writeList k.mem buf.toNat out }
          match result with
          | .ok read => (read.toUInt64, after)
          | .error _ => (errorCode, after)

/-- `sys_open`: the descriptor `insert` returns, `as u64`. A handle opened
while no task runs is dropped. -/
def sysOpen (k : Kernel) (pathPtr flags : UInt64) : UInt64 × Kernel :=
  match readCString k.mem pathPtr with
  | none => (errorCode, k)
  | some path =>
    match vfsOpen k.vfs path flags with
    | .error _ => (errorCode, k)
    | .ok handle =>
      match k.fds with
      | none => (errorCode, k)
      | some t => ((t.insert handle).1.toUInt64, { k with fds := some (t.insert handle).2 })

/-- `sys_chdir`. -/
def sysChdir (k : Kernel) (pathPtr : UInt64) : UInt64 × Kernel :=
  match readCString k.mem pathPtr with
  | none => (errorCode, k)
  | some path =>
    match processRequest k.vfs (.changeDir path) with
    | (.success, vfs) => (0, { k with vfs := vfs })
    | (_, vfs) => (errorCode, { k with vfs := vfs })

/-- `sys_getcwd`. -/
def sysGetcwd (k : Kernel) (buf len : UInt64) : Option (UInt64 × Kernel) :=
  if buf = 0 ∨ len = 0 then some (errorCode, k)
  else
    match processRequest k.vfs .getCwd with
    | (.cwd path, vfs) =>
      (writeUserString k.mem buf len.toNat path).map fun (written, mem) => (written, { k with vfs := vfs, mem := mem })
    | (_, vfs) => some (errorCode, { k with vfs := vfs })

/-- `sys_listdir`: the names joined by `'\n'`. -/
def sysListdir (k : Kernel) (pathPtr buf len : UInt64) : Option (UInt64 × Kernel) :=
  if buf = 0 ∨ len = 0 then some (errorCode, k)
  else
    match readCString k.mem pathPtr with
    | none => some (errorCode, k)
    | some path =>
      match processRequest k.vfs (.listDir path) with
      | (.dirListing entries, vfs) =>
        (writeUserString k.mem buf len.toNat (['\n'].intercalate entries)).map fun (written, mem) =>
          (written, { k with vfs := vfs, mem := mem })
      | (_, vfs) => some (errorCode, { k with vfs := vfs })

/-- The six calls, with the arguments `dispatch_syscall` passes them. -/
inductive Call where
  | write (fd buf len : UInt64)
  | read (fd buf len : UInt64) (key : Option Char)
  | openFile (pathPtr flags : UInt64)
  | chdir (pathPtr : UInt64)
  | getCwd (buf len : UInt64)
  | listDir (pathPtr buf len : UInt64)

/-- What a call returns and the state after it; `none` is a panic. -/
def Call.exec (k : Kernel) : Call → Option (UInt64 × Kernel)
  | .write fd buf len => some (sysWrite k fd buf len, k)
  | .read fd buf len key => some (sysRead k key fd buf len)
  | .openFile pathPtr flags => some (sysOpen k pathPtr flags)
  | .chdir pathPtr => some (sysChdir k pathPtr)
  | .getCwd buf len => sysGetcwd k buf len
  | .listDir pathPtr buf len => sysListdir k pathPtr buf len

/-- What can happen between two states: a call, a store of the user
program to its memory, or a request of another client to the VFS. -/
inductive Event where
  | call (c : Call)
  | store (addr : Nat) (byte : UInt8)
  | request (request : FSRequest)

/-- One event. A call that panicked would stop the kernel; none does
(`Call.exec_isSome`), so the default is never taken. -/
def step (k : Kernel) : Event → Kernel
  | .call c => ((c.exec k).map Prod.snd).getD k
  | .store addr byte => { k with mem := Function.update k.mem addr byte }
  | .request request => { k with vfs := (processRequest k.vfs request).2 }

/-! ## No call panics -/

theorem writeUserString_isSome (mem : Nat → UInt8) (dst : UInt64) {len : Nat} (pos : 0 < len) (s : List Char) :
    (writeUserString mem dst len s).isSome := by
  unfold writeUserString
  rw [if_pos (by omega)]
  rfl

theorem toNat_pos_of_ne_zero {len : UInt64} (ne : len ≠ 0) : 0 < len.toNat :=
  Nat.pos_of_ne_zero fun zero => ne (UInt64.toNat_inj.mp zero)

theorem sysGetcwd_isSome (k : Kernel) (buf len : UInt64) : (sysGetcwd k buf len).isSome := by
  unfold sysGetcwd
  split_ifs with guard
  · rfl
  · split
    · rw [Option.isSome_map]
      exact writeUserString_isSome _ _ (toNat_pos_of_ne_zero (by tauto)) _
    · rfl

theorem sysListdir_isSome (k : Kernel) (pathPtr buf len : UInt64) : (sysListdir k pathPtr buf len).isSome := by
  unfold sysListdir
  split_ifs with guard
  · rfl
  · split
    · rfl
    · split
      · rw [Option.isSome_map]
        exact writeUserString_isSome _ _ (toNat_pos_of_ne_zero (by tauto)) _
      · rfl

theorem Call.exec_isSome (k : Kernel) (c : Call) : (c.exec k).isSome := by
  cases c with
  | getCwd buf len => exact sysGetcwd_isSome k buf len
  | listDir pathPtr buf len => exact sysListdir_isSome k pathPtr buf len
  | _ => rfl

/-! ## The table and user memory -/

/-- `insert` fills a free slot or a new one, never an open one. -/
theorem getElem?_insert_of_isOpen (t : FdTable) (handle : FileHandle) {i : Nat} (isOpen : t.IsOpen i) :
    (t.insert handle).2.entries[i]? = t.entries[i]? := by
  obtain ⟨open', slot⟩ := isOpen
  have inside : i < t.entries.length := by
    by_contra past
    rw [List.getElem?_eq_none (Nat.le_of_not_lt past)] at slot
    cases slot
  rw [FdTable.insert_eq]
  dsimp only
  split
  · have other : t.firstFree ≠ i := fun same => (t.isOpen_firstFree).1 (same ▸ ⟨open', slot⟩)
    exact List.getElem?_set_ne other
  · exact List.getElem?_append_left inside

/-- A copy into user memory leaves every byte from the `n`-th on as it
was, when the copy agrees with memory from there on. -/
theorem writeList_outside (mem : Nat → UInt8) (start : Nat) {out : List UInt8} {n : Nat}
    (same : out.drop n = (userBytes mem start out.length).drop n) (a : Nat)
    (outside : a < start ∨ start + n ≤ a) : writeList mem start out a = mem a := by
  rw [writeList_apply]
  split_ifs with inside
  · -- inside the copy and past `n`: the byte the copy took from memory
    have past : n ≤ a - start := by omega
    have lt : a - start - n < (out.drop n).length := by rw [List.length_drop]; omega
    have read := congrArg (·[a - start - n]?) same
    simp only [List.getElem?_drop] at read
    rw [show n + (a - start - n) = a - start by omega] at read
    rw [List.getD_eq_getElem?_getD, read, userBytes, List.getElem?_eq_getElem (by simp; omega),
      getElem_window, Option.getD_some, show start + (a - start) = a by omega]
  · rfl

/-- `read_c_string` of bytes with no NUL, written with a NUL after them:
the bytes, when `MAX_LEN` covers them. -/
theorem readCString_writeList (mem : Nat → UInt8) {ptr : UInt64} (nonnull : ptr ≠ 0) {bytes : List UInt8}
    (noZero : (0 : UInt8) ∉ bytes) (short : bytes.length ≤ maxLen) :
    readCString (writeList mem ptr.toNat (bytes ++ [0])) ptr = fromUtf8 bytes := by
  have taken : (userBytes (writeList mem ptr.toNat (bytes ++ [0])) ptr.toNat maxLen).takeWhile (· != 0) = bytes := by
    obtain ⟨more, total⟩ : ∃ more, maxLen = bytes.length + more := ⟨maxLen - bytes.length, by omega⟩
    have front : userBytes (writeList mem ptr.toNat (bytes ++ [0])) ptr.toNat bytes.length = bytes :=
      window_writeList_append _ _ _ _
    have nonzero : ∀ b ∈ bytes, (b != 0) = true := fun b mem => bne_iff_ne.mpr fun zero => noZero (zero ▸ mem)
    rw [userBytes, total, window_add, ← userBytes, front, List.takeWhile_append_of_pos nonzero]
    -- after the bytes, nothing or the NUL
    cases more with
    | zero =>
      have none : window (fun i => writeList mem ptr.toNat (bytes ++ [0]) (ptr.toNat + (bytes.length + i))) 0 = [] := rfl
      rw [none, List.takeWhile_nil, List.append_nil]
    | succ more =>
      have nul : writeList mem ptr.toNat (bytes ++ [0]) (ptr.toNat + (bytes.length + 0)) = 0 := by
        rw [writeList_apply, if_pos (by simp), Nat.add_zero, Nat.add_sub_cancel_left,
          List.getD_append_right _ _ _ _ (Nat.le_refl _), Nat.sub_self]
        rfl
      have first : window (fun i => writeList mem ptr.toNat (bytes ++ [0]) (ptr.toNat + (bytes.length + i))) 1 =
          [writeList mem ptr.toNat (bytes ++ [0]) (ptr.toNat + (bytes.length + 0))] := rfl
      rw [Nat.add_comm more 1, window_add, first, nul, List.singleton_append, List.takeWhile_cons,
        if_neg (by decide), List.append_nil]
  unfold readCString
  rw [if_neg nonnull, taken]

/-- A read fills the front of its buffer with the count it returns and
leaves the rest as it was, whatever the handle. -/
theorem FileHandle.read_front (handle : FileHandle) (buf : List UInt8) (key : Option Char) :
    ∃ n, (handle.read buf key).1 = .ok n ∧ n ≤ buf.length ∧ (handle.read buf key).2.1.length = buf.length ∧
      (handle.read buf key).2.1.drop n = buf.drop n := by
  cases handle with
  | mem h =>
    have counted : (h.rest.take buf.length).length = min h.rest.length buf.length := by
      rw [List.length_take, Nat.min_comm]
    refine ⟨min h.rest.length buf.length, ?_, Nat.min_le_right _ _, ?_, ?_⟩
    · show (h.read buf).1 = _
      rw [MemFileHandle.read_eq]
    · show (h.read buf).2.1.length = _
      rw [MemFileHandle.read_eq]
      dsimp only
      rw [List.length_append, counted, List.length_drop]
      omega
    · show (h.read buf).2.1.drop _ = _
      rw [MemFileHandle.read_eq]
      exact List.drop_left' counted
  | device kind =>
    cases kind with
    | zero => exact ⟨buf.length, rfl, Nat.le_refl _, List.length_replicate, by simp [FileHandle.read]⟩
    | keyboard =>
      by_cases empty : buf.isEmpty
      · exact ⟨0, by simp [FileHandle.read, empty], Nat.zero_le _, by simp [FileHandle.read, empty],
          by simp [FileHandle.read, empty]⟩
      · have one : 1 ≤ buf.length := by
          cases buf with
          | nil => exact absurd rfl empty
          | cons b rest => simp
        cases key with
        | none => exact ⟨0, by simp [FileHandle.read, empty], Nat.zero_le _, by simp [FileHandle.read, empty],
            by simp [FileHandle.read, empty]⟩
        | some c => exact ⟨1, by simp [FileHandle.read, empty], one, by simp [FileHandle.read, empty]; omega,
            by simp [FileHandle.read, empty]⟩
    | null | framebuffer | serial => exact ⟨0, rfl, Nat.zero_le _, rfl, rfl⟩

/-! ## `sys_read` -/

section Read

variable (k : Kernel) (key : Option Char) (fd buf len : UInt64)

theorem sysRead_of_guard (guard : buf = 0 ∨ len = 0) : sysRead k key fd buf len = (0, k) := by
  unfold sysRead
  rw [if_pos guard]

theorem sysRead_of_getMut_error {t : FdTable} {e : FsError} (fds : k.fds = some t)
    (closed : t.getMut fd.toUInt32 = .error e) (guard : ¬ (buf = 0 ∨ len = 0)) :
    sysRead k key fd buf len = (errorCode, k) := by
  unfold sysRead
  rw [if_neg guard, fds]
  dsimp only
  rw [closed]

theorem sysRead_of_fds_none (fds : k.fds = none) (guard : ¬ (buf = 0 ∨ len = 0)) :
    sysRead k key fd buf len = (errorCode, k) := by
  unfold sysRead
  rw [if_neg guard, fds]

/-- A read on an open descriptor: the count the handle returns, the handle
back in its slot, its buffer in user memory. -/
theorem sysRead_of_getMut_ok {t : FdTable} {handle : FileHandle} (fds : k.fds = some t)
    (found : t.getMut fd.toUInt32 = .ok handle) (guard : ¬ (buf = 0 ∨ len = 0)) {n : Nat}
    (counted : (handle.read (userBytes k.mem buf.toNat len.toNat) key).1 = .ok n) :
    sysRead k key fd buf len =
      (n.toUInt64, { k with
        fds := some (writeBack t fd.toUInt32 (handle.read (userBytes k.mem buf.toNat len.toNat) key).2.2),
        mem := writeList k.mem buf.toNat (handle.read (userBytes k.mem buf.toNat len.toNat) key).2.1 }) := by
  unfold sysRead
  rw [if_neg guard, fds]
  dsimp only
  rw [found]
  dsimp only
  rw [counted]

end Read

/-! ## What a descriptor has left -/

/-- The handle in slot `i` of the running task's table. -/
def handleAt (k : Kernel) (i : Nat) : Option FileHandle :=
  match k.fds with
  | none => none
  | some t => t.entries[i]?.join

/-- What the file handle in slot `i` has left to read. -/
def restAt (k : Kernel) (i : Nat) : Option (List UInt8) :=
  match handleAt k i with
  | some (.mem h) => some h.rest
  | _ => none

/-- The bytes a read on slot `i` delivers: the first `r` bytes of its
buffer after the call, `r` the count it returns. No other event delivers
any on `i`. -/
def chunk (i : Nat) (k : Kernel) : Event → List UInt8
  | .call (.read fd buf len key) =>
    if fd.toUInt32.toNat = i then
      userBytes (sysRead k key fd buf len).2.mem buf.toNat (sysRead k key fd buf len).1.toNat
    else []
  | _ => []

/-- The bytes the reads on slot `i` deliver over a run. -/
def delivered (i : Nat) : Kernel → List Event → List UInt8
  | _, [] => []
  | k, e :: rest => chunk i k e ++ delivered i (step k e) rest

theorem restAt_eq_some {k : Kernel} {i : Nat} {d : List UInt8} (has : restAt k i = some d) :
    ∃ t h, k.fds = some t ∧ t.entries[i]? = some (some (.mem h)) ∧ h.rest = d := by
  unfold restAt handleAt at has
  cases fds : k.fds with
  | none => simp [fds] at has
  | some t =>
    rw [fds] at has
    dsimp only at has
    cases slot : t.entries[i]? with
    | none => simp [slot] at has
    | some entry =>
      cases entry with
      | none => simp [slot] at has
      | some handle =>
        cases handle with
        | mem h => exact ⟨t, h, rfl, slot, by simpa [slot] using has⟩
        | device kind => simp [slot] at has

/-- Slot `i` of a table, read through `restAt`. -/
theorem restAt_of_getElem? {k : Kernel} {t : FdTable} {i : Nat} {h : MemFileHandle} (fds : k.fds = some t)
    (slot : t.entries[i]? = some (some (.mem h))) : restAt k i = some h.rest := by
  unfold restAt handleAt
  rw [fds]
  dsimp only
  rw [slot]
  rfl

theorem handleAt_congr {k k' : Kernel} (same : k'.fds = k.fds) (i : Nat) : handleAt k' i = handleAt k i := by
  unfold handleAt
  rw [same]

theorem restAt_congr {k k' : Kernel} (same : k'.fds = k.fds) (i : Nat) : restAt k' i = restAt k i := by
  unfold restAt
  rw [handleAt_congr same]

/-! ## Which calls touch the table -/

theorem fds_sysChdir (k : Kernel) (pathPtr : UInt64) : (sysChdir k pathPtr).2.fds = k.fds := by
  unfold sysChdir
  split
  · rfl
  · split <;> rfl

theorem fds_of_sysGetcwd {k k' : Kernel} {buf len r : UInt64} (answer : sysGetcwd k buf len = some (r, k')) :
    k'.fds = k.fds := by
  unfold sysGetcwd at answer
  split_ifs at answer
  · cases answer
    rfl
  · split at answer
    · obtain ⟨⟨written, mem⟩, -, same⟩ := Option.map_eq_some_iff.mp answer
      cases same
      rfl
    · cases answer
      rfl

theorem fds_of_sysListdir {k k' : Kernel} {pathPtr buf len r : UInt64}
    (answer : sysListdir k pathPtr buf len = some (r, k')) : k'.fds = k.fds := by
  unfold sysListdir at answer
  split_ifs at answer
  · cases answer
    rfl
  · split at answer
    · cases answer
      rfl
    · split at answer
      · obtain ⟨⟨written, mem⟩, -, same⟩ := Option.map_eq_some_iff.mp answer
        cases same
        rfl
      · cases answer
        rfl

/-- `sys_open` leaves every open slot as it was. -/
theorem restAt_sysOpen {k : Kernel} {i : Nat} {d : List UInt8} (has : restAt k i = some d) (pathPtr flags : UInt64) :
    restAt (sysOpen k pathPtr flags).2 i = some d := by
  obtain ⟨t, h, fds, slot, rfl⟩ := restAt_eq_some has
  unfold sysOpen
  split
  · exact has
  · split
    · exact has
    · rw [fds]
      dsimp only
      exact restAt_of_getElem? rfl (by rw [getElem?_insert_of_isOpen t _ ⟨_, slot⟩, slot])

/-- A read on another slot leaves slot `i` as it was. -/
theorem restAt_sysRead_of_ne {k : Kernel} {i : Nat} {d : List UInt8} (has : restAt k i = some d)
    (key : Option Char) {fd : UInt64} (buf len : UInt64) (other : fd.toUInt32.toNat ≠ i) :
    restAt (sysRead k key fd buf len).2 i = some d := by
  obtain ⟨t, h, fds, slot, rfl⟩ := restAt_eq_some has
  by_cases guard : buf = 0 ∨ len = 0
  · rw [sysRead_of_guard k key fd buf len guard]
    exact has
  · cases found : t.getMut fd.toUInt32 with
    | error e =>
      rw [sysRead_of_getMut_error k key fd buf len fds found guard]
      exact has
    | ok handle =>
      obtain ⟨n, counted, -⟩ := FileHandle.read_front handle (userBytes k.mem buf.toNat len.toNat) key
      rw [sysRead_of_getMut_ok k key fd buf len fds found guard counted]
      exact restAt_of_getElem? rfl (by rw [writeBack, List.getElem?_set_ne other, slot])

/-- A read on slot `i` of a file handle: it returns the next
`min(len, left)` bytes at the front of the buffer and drops `len` bytes of
what is left. -/
theorem sysRead_of_mem {k : Kernel} {t : FdTable} {h : MemFileHandle} (key : Option Char) (fd buf len : UInt64)
    (fds : k.fds = some t) (slot : t.entries[fd.toUInt32.toNat]? = some (some (.mem h)))
    (guard : ¬ (buf = 0 ∨ len = 0)) :
    (sysRead k key fd buf len).1.toNat = min h.rest.length len.toNat ∧
      userBytes (sysRead k key fd buf len).2.mem buf.toNat (min h.rest.length len.toNat) =
        h.rest.take len.toNat ∧
      restAt (sysRead k key fd buf len).2 fd.toUInt32.toNat = some (h.rest.drop len.toNat) := by
  have found : t.getMut fd.toUInt32 = .ok (.mem h) := (FdTable.getMut_eq_ok t _ _).mpr slot
  have buffer : (userBytes k.mem buf.toNat len.toNat).length = len.toNat := length_window _ _
  have counted : ((FileHandle.mem h).read (userBytes k.mem buf.toNat len.toNat) key).1 =
      .ok (min h.rest.length len.toNat) := by
    show (h.read _).1 = _
    rw [MemFileHandle.read_eq, buffer]
  rw [sysRead_of_getMut_ok k key fd buf len fds found guard counted]
  have front : (h.rest.take len.toNat).length = min h.rest.length len.toNat := by
    rw [List.length_take, Nat.min_comm]
  obtain ⟨bound, -⟩ := List.getElem?_eq_some_iff.mp slot
  refine ⟨UInt64.toNat_ofNat_of_lt' (Nat.lt_of_le_of_lt (Nat.min_le_right _ _) len.toNat_lt_size), ?_, ?_⟩
  · -- the bytes at the front of the copied buffer are the front of `rest`
    show window (fun i => writeList k.mem buf.toNat (h.read _).2.1 (buf.toNat + i)) _ = _
    rw [MemFileHandle.read_eq, buffer]
    dsimp only
    rw [← front]
    exact window_writeList_append _ _ _ _
  · have moved : (h.read (userBytes k.mem buf.toNat len.toNat)).2.2.rest = h.rest.drop len.toNat := by
      rw [MemFileHandle.rest_read, buffer]
    rw [← moved]
    exact restAt_of_getElem? rfl (by rw [writeBack, List.getElem?_set_self bound]; rfl)

/-! ## Runs -/

/-- What one event leaves slot `i`: the bytes it delivers on `i`, then
what is left, are what was left before. -/
theorem restAt_step {k : Kernel} {i : Nat} {d : List UInt8} (has : restAt k i = some d) (e : Event) :
    ∃ d', restAt (step k e) i = some d' ∧ chunk i k e ++ d' = d := by
  cases e with
  | store addr byte => exact ⟨d, has, rfl⟩
  | request request => exact ⟨d, has, rfl⟩
  | call c =>
    cases c with
    | write fd buf len => exact ⟨d, has, rfl⟩
    | openFile pathPtr flags => exact ⟨d, restAt_sysOpen has pathPtr flags, rfl⟩
    | chdir pathPtr => exact ⟨d, (restAt_congr (fds_sysChdir k pathPtr) i).trans has, rfl⟩
    | getCwd buf len =>
      obtain ⟨⟨r, k'⟩, answer⟩ := Option.isSome_iff_exists.mp (sysGetcwd_isSome k buf len)
      have stepped : step k (.call (.getCwd buf len)) = k' := by
        show ((sysGetcwd k buf len).map Prod.snd).getD k = k'
        rw [answer]
        rfl
      exact ⟨d, by rw [stepped, restAt_congr (fds_of_sysGetcwd answer)]; exact has, rfl⟩
    | listDir pathPtr buf len =>
      obtain ⟨⟨r, k'⟩, answer⟩ := Option.isSome_iff_exists.mp (sysListdir_isSome k pathPtr buf len)
      have stepped : step k (.call (.listDir pathPtr buf len)) = k' := by
        show ((sysListdir k pathPtr buf len).map Prod.snd).getD k = k'
        rw [answer]
        rfl
      exact ⟨d, by rw [stepped, restAt_congr (fds_of_sysListdir answer)]; exact has, rfl⟩
    | read fd buf len key =>
      have stepped : step k (.call (.read fd buf len key)) = (sysRead k key fd buf len).2 := rfl
      have delivers : chunk i k (.call (.read fd buf len key)) =
          if fd.toUInt32.toNat = i then
            userBytes (sysRead k key fd buf len).2.mem buf.toNat (sysRead k key fd buf len).1.toNat
          else [] := rfl
      rw [stepped, delivers]
      by_cases same : fd.toUInt32.toNat = i
      · rw [if_pos same]
        subst same
        by_cases guard : buf = 0 ∨ len = 0
        · rw [sysRead_of_guard k key fd buf len guard]
          exact ⟨d, has, rfl⟩
        · -- a read on the slot itself: the front of `rest` out, the rest kept
          obtain ⟨t, h, fds, slot, rfl⟩ := restAt_eq_some has
          obtain ⟨count, front, left⟩ := sysRead_of_mem key fd buf len fds slot guard
          refine ⟨h.rest.drop len.toNat, left, ?_⟩
          rw [count, front, List.take_append_drop]
      · rw [if_neg same]
        exact ⟨d, restAt_sysRead_of_ne has key buf len same, rfl⟩

/-- THE STREAM LAW: over every run, the bytes the reads on slot `i` deliver,
then what the handle there has left, are what it had left at the start. -/
theorem delivered_append_restAt {k : Kernel} {i : Nat} {d : List UInt8} (has : restAt k i = some d)
    (events : List Event) :
    ∃ d', restAt (events.foldl step k) i = some d' ∧ delivered i k events ++ d' = d := by
  -- on the run: `restAt_step` for the first event, then the rest of the run
  induction events generalizing k d with
  | nil => exact ⟨d, has, List.nil_append d⟩
  | cons e rest ih =>
    obtain ⟨mid, stepped, first⟩ := restAt_step has e
    obtain ⟨d', final, later⟩ := ih stepped
    refine ⟨d', final, ?_⟩
    rw [delivered, List.append_assoc, later, first]

/-! ## `sys_open` -/

/-- `sys_open` of a regular file, read-only, in a table of fewer than
`2 ^ 32` slots: the lowest free descriptor, over the file's bytes. -/
theorem sysOpen_regular {k : Kernel} {s : VfsState} {t : FdTable} {ptr flags : UInt64} {p : List Char}
    {node : VNode} (vfs : k.vfs = some s) (fds : k.fds = some t) (fits : t.entries.length < 2 ^ 32)
    (path : readCString k.mem ptr = some p)
    (resolves : resolvePath s.root (normalizePath (joinCwd s.currentDir p)) = some node)
    (regular : node.fileType = .regular) (readOnly : OpenFlags.fromBits flags = .readOnly) :
    (sysOpen k ptr flags).1.toNat = t.firstFree ∧
      restAt (sysOpen k ptr flags).2 t.firstFree = some (node.data.getD []) := by
  obtain ⟨-, opened⟩ := vfsOpen_regular s p resolves regular readOnly
  have call : sysOpen k ptr flags =
      ((t.insert (.mem (MemFileHandle.new (node.data.getD [])))).1.toUInt64,
        { k with fds := some (t.insert (.mem (MemFileHandle.new (node.data.getD [])))).2 }) := by
    unfold sysOpen
    rw [path]
    dsimp only
    rw [vfs, opened, fds]
  have lowest := (t.insert_lowest_free (.mem (MemFileHandle.new (node.data.getD []))) fits).2.2
  rw [FdTable.getMut_eq_ok] at lowest
  have index : (t.insert (.mem (MemFileHandle.new (node.data.getD [])))).1.toNat = t.firstFree := by
    rw [FdTable.insert_eq]
    exact UInt32.toNat_ofNat_of_lt' (Nat.lt_of_le_of_lt (t.firstFree_le) fits)
  rw [call]
  refine ⟨by rw [UInt32.toNat_toUInt64, index], ?_⟩
  rw [index] at lowest
  exact restAt_of_getElem? rfl lowest

theorem mem_sysOpen (k : Kernel) (pathPtr flags : UInt64) : (sysOpen k pathPtr flags).2.mem = k.mem := by
  unfold sysOpen
  split
  · rfl
  · split
    · rfl
    · split <;> rfl

theorem mem_sysChdir (k : Kernel) (pathPtr : UInt64) : (sysChdir k pathPtr).2.mem = k.mem := by
  unfold sysChdir
  split
  · rfl
  · split <;> rfl

/-- A read writes the bytes it counts at the front of its buffer and no
other byte of user memory. -/
theorem sysRead_writes_front (k : Kernel) (key : Option Char) (fd buf len : UInt64) :
    ((sysRead k key fd buf len).1 = errorCode ∧ (sysRead k key fd buf len).2 = k) ∨
      ((sysRead k key fd buf len).1.toNat ≤ len.toNat ∧
        ∀ a, (a < buf.toNat ∨ buf.toNat + (sysRead k key fd buf len).1.toNat ≤ a) →
          (sysRead k key fd buf len).2.mem a = k.mem a) := by
  by_cases guard : buf = 0 ∨ len = 0
  · rw [sysRead_of_guard k key fd buf len guard]
    exact .inr ⟨Nat.zero_le _, fun _ _ => rfl⟩
  · cases fds : k.fds with
    | none => exact .inl (by rw [sysRead_of_fds_none k key fd buf len fds guard]; exact ⟨rfl, rfl⟩)
    | some t =>
      cases found : t.getMut fd.toUInt32 with
      | error e => exact .inl (by rw [sysRead_of_getMut_error k key fd buf len fds found guard]; exact ⟨rfl, rfl⟩)
      | ok handle =>
        obtain ⟨n, counted, le, length, kept⟩ := FileHandle.read_front handle (userBytes k.mem buf.toNat len.toNat) key
        have buffer : (userBytes k.mem buf.toNat len.toNat).length = len.toNat := length_window _ _
        have fits : n.toUInt64.toNat = n :=
          UInt64.toNat_ofNat_of_lt' (Nat.lt_of_le_of_lt (buffer ▸ le) len.toNat_lt_size)
        rw [sysRead_of_getMut_ok k key fd buf len fds found guard counted]
        refine .inr ⟨by rw [fits]; omega, fun a outside => ?_⟩
        rw [fits] at outside
        apply writeList_outside k.mem buf.toNat _ a outside
        rw [kept, length, buffer]

/-- `write_user_string` writes its count of bytes and the NUL after them,
inside the buffer, and no other byte. -/
theorem writeUserString_writes_front {mem mem' : Nat → UInt8} {dst : UInt64} {len : Nat} {s : List Char}
    {r : UInt64} (fitsLen : len < 2 ^ 64) (written : writeUserString mem dst len s = some (r, mem')) :
    r.toNat < len ∧ ∀ a, (a < dst.toNat ∨ dst.toNat + r.toNat < a) → mem' a = mem a := by
  unfold writeUserString at written
  dsimp only at written
  split_ifs at written with inside
  obtain ⟨rfl, rfl⟩ := Prod.mk.inj (Option.some.inj written)
  have count : (min (encode s).length (len - 1)).toUInt64.toNat = min (encode s).length (len - 1) :=
    UInt64.toNat_ofNat_of_lt' (by unfold UInt64.size; omega)
  rw [count]
  refine ⟨inside, fun a outside => ?_⟩
  have copied : ((encode s).take (min (encode s).length (len - 1)) ++ [0]).length =
      min (encode s).length (len - 1) + 1 := by
    rw [List.length_append, List.length_take, Nat.min_eq_left (Nat.min_le_left _ _)]
    rfl
  rw [writeList_apply, if_neg (by rw [copied]; omega)]

theorem sysGetcwd_writes {k k' : Kernel} {buf len r : UInt64} (answer : sysGetcwd k buf len = some (r, k')) :
    (r = errorCode ∧ k'.mem = k.mem) ∨ ∃ s, writeUserString k.mem buf len.toNat s = some (r, k'.mem) := by
  unfold sysGetcwd at answer
  split_ifs at answer
  · cases answer
    exact .inl ⟨rfl, rfl⟩
  · split at answer
    · obtain ⟨⟨written, mem⟩, copy, same⟩ := Option.map_eq_some_iff.mp answer
      cases same
      exact .inr ⟨_, copy⟩
    · cases answer
      exact .inl ⟨rfl, rfl⟩

theorem sysListdir_writes {k k' : Kernel} {pathPtr buf len r : UInt64}
    (answer : sysListdir k pathPtr buf len = some (r, k')) :
    (r = errorCode ∧ k'.mem = k.mem) ∨ ∃ s, writeUserString k.mem buf len.toNat s = some (r, k'.mem) := by
  unfold sysListdir at answer
  split_ifs at answer
  · cases answer
    exact .inl ⟨rfl, rfl⟩
  · split at answer
    · cases answer
      exact .inl ⟨rfl, rfl⟩
    · split at answer
      · obtain ⟨⟨written, mem⟩, copy, same⟩ := Option.map_eq_some_iff.mp answer
        cases same
        exact .inr ⟨_, copy⟩
      · cases answer
        exact .inl ⟨rfl, rfl⟩

/-- The string copy of `sys_getcwd` and `sys_listdir`, in terms of what it reports. -/
theorem stringCopy_writes_front {k k' : Kernel} {buf len r : UInt64}
    (copied : (r = errorCode ∧ k'.mem = k.mem) ∨ ∃ s, writeUserString k.mem buf len.toNat s = some (r, k'.mem)) :
    (r = errorCode ∧ k'.mem = k.mem) ∨
      (r.toNat < len.toNat ∧ ∀ a, (a < buf.toNat ∨ buf.toNat + r.toNat < a) → k'.mem a = k.mem a) := by
  rcases copied with failed | ⟨s, written⟩
  · exact .inl failed
  · exact .inr (writeUserString_writes_front len.toNat_lt_size written)

/-- No file system call writes user memory outside what it reports: a read
only the bytes it counts, at the front of its buffer; `getcwd` and
`listdir` only their count of bytes and a NUL after them, inside the
buffer; a failed call nothing; `open` and `chdir` nothing at all. -/
theorem syscalls_write_only_reported (k : Kernel) :
    (∀ key fd buf len,
      ((sysRead k key fd buf len).1 = errorCode ∧ (sysRead k key fd buf len).2 = k) ∨
        ((sysRead k key fd buf len).1.toNat ≤ len.toNat ∧
          ∀ a, (a < buf.toNat ∨ buf.toNat + (sysRead k key fd buf len).1.toNat ≤ a) →
            (sysRead k key fd buf len).2.mem a = k.mem a)) ∧
    (∀ buf len r k', sysGetcwd k buf len = some (r, k') →
      (r = errorCode ∧ k'.mem = k.mem) ∨
        (r.toNat < len.toNat ∧ ∀ a, (a < buf.toNat ∨ buf.toNat + r.toNat < a) → k'.mem a = k.mem a)) ∧
    (∀ pathPtr buf len r k', sysListdir k pathPtr buf len = some (r, k') →
      (r = errorCode ∧ k'.mem = k.mem) ∨
        (r.toNat < len.toNat ∧ ∀ a, (a < buf.toNat ∨ buf.toNat + r.toNat < a) → k'.mem a = k.mem a)) ∧
    (∀ pathPtr flags, (sysOpen k pathPtr flags).2.mem = k.mem) ∧
    ∀ pathPtr, (sysChdir k pathPtr).2.mem = k.mem :=
  ⟨sysRead_writes_front k, fun _ _ _ _ answer => stringCopy_writes_front (sysGetcwd_writes answer),
    fun _ _ _ _ _ answer => stringCopy_writes_front (sysListdir_writes answer), mem_sysOpen k, mem_sysChdir k⟩

/-! ## `getcwd`, then `chdir` on the same buffer -/

/-- ChangeDir to the current directory, when it is a normalized directory:
a success that changes nothing. -/
theorem changeDir_current {s : VfsState} (normal : normalizePath s.currentDir = s.currentDir)
    (dir : DirAt s.root s.currentDir) : changeDir s s.currentDir = (.success, s) := by
  obtain ⟨node, resolves, isDir⟩ := dir
  have absolute : s.currentDir.head? = some '/' := by
    simpa using head?_append_of_normal normal []
  simp only [changeDir, changeDirPath, if_pos absolute, normal, resolves, isDir, if_true]

/-- `write_user_string` into a buffer longer than the string: all of it,
then the NUL. -/
theorem writeUserString_of_lt (mem : Nat → UInt8) (dst : UInt64) {len : Nat} {s : List Char}
    (fitsLen : len < 2 ^ 64) (fits : (encode s).length < len) :
    writeUserString mem dst len s = some ((encode s).length.toUInt64, writeList mem dst.toNat (encode s ++ [0])) := by
  have whole : min (encode s).length (len - 1) = (encode s).length := Nat.min_eq_left (by omega)
  unfold writeUserString
  dsimp only
  rw [whole, if_pos fits, List.take_length]

/-- `sys_getcwd` into a buffer that holds the whole path, then `sys_chdir`
on the same buffer: the path and its NUL are the first bytes of the
buffer, and the `chdir` succeeds and changes nothing, when the current
directory is a normalized directory with no NUL in it. -/
theorem getcwd_then_chdir {k : Kernel} {s : VfsState} (vfs : k.vfs = some s)
    (normal : normalizePath s.currentDir = s.currentDir) (dir : DirAt s.root s.currentDir)
    (noNul : '\x00' ∉ s.currentDir) {buf len : UInt64} (nonnull : buf ≠ 0)
    (fits : (encode s.currentDir).length < len.toNat) (short : (encode s.currentDir).length ≤ maxLen) :
    ∃ k', sysGetcwd k buf len = some ((encode s.currentDir).length.toUInt64, k') ∧
      userBytes k'.mem buf.toNat ((encode s.currentDir).length + 1) = encode s.currentDir ++ [0] ∧
      k'.vfs = k.vfs ∧ k'.fds = k.fds ∧ sysChdir k' buf = (0, k') := by
  have nonempty : len ≠ 0 := fun zero => by rw [zero] at fits; exact Nat.not_lt_zero _ fits
  have guard : ¬ (buf = 0 ∨ len = 0) := by tauto
  refine ⟨{ k with mem := writeList k.mem buf.toNat (encode s.currentDir ++ [0]) }, ?_, ?_, rfl, rfl, ?_⟩
  · unfold sysGetcwd
    rw [if_neg guard, vfs]
    show (writeUserString k.mem buf len.toNat s.currentDir).map _ = _
    rw [writeUserString_of_lt k.mem buf len.toNat_lt_size fits]
    rfl
  · have length : (encode s.currentDir ++ [0]).length = (encode s.currentDir).length + 1 := by
      rw [List.length_append, List.length_singleton]
    rw [← length]
    exact window_writeList _ _ _
  · -- `chdir` reads the path back and finds the directory it names
    have path : readCString (writeList k.mem buf.toNat (encode s.currentDir ++ [0])) buf = some s.currentDir := by
      rw [readCString_writeList k.mem nonnull (zero_not_mem_encode noNul) short, fromUtf8_encode]
    unfold sysChdir
    dsimp only
    rw [path, vfs]
    show (match ((process s (.changeDir s.currentDir)).1, some (process s (.changeDir s.currentDir)).2) with
      | (.success, vfs) => _
      | (_, vfs) => _) = _
    simp only [process, changeDir_current normal dir]

theorem getcwd_then_chdir_in_home :
    ∃ k', sysGetcwd ⟨some { VfsState.init [] with currentDir := "/home/user".toList }, none, fun _ => 0⟩ 4096 64 =
        some ((encode "/home/user".toList).length.toUInt64, k') ∧
      userBytes k'.mem (4096 : UInt64).toNat ((encode "/home/user".toList).length + 1) =
        encode "/home/user".toList ++ [0] ∧
      k'.vfs = some { VfsState.init [] with currentDir := "/home/user".toList } ∧ k'.fds = none ∧
      sysChdir k' 4096 = (0, k') :=
  @getcwd_then_chdir ⟨some { VfsState.init [] with currentDir := "/home/user".toList }, none, fun _ => 0⟩
    { VfsState.init [] with currentDir := "/home/user".toList } rfl (by decide) ⟨_, rfl, rfl⟩ (by decide)
    4096 64 (by decide) (by decide) (by decide)

end OspabOs.Syscall
