import Mathlib.Data.List.Basic

/-!
# File handles

`fs::vfs` gives the kernel's file handles: `MemFileHandle`, a copy of a
regular file's bytes with a read offset, and `DeviceFileHandle`, one of
the five devices. A `Box<dyn FileHandle>` is one of the two, so the trait
object is the sum `FileHandle`.

`read` fills the front of the caller's buffer and returns how many bytes
it wrote; the buffer is passed and returned whole, so that a caller sees
exactly the bytes it would see in Rust. The keyboard device reads through
`keyboard::try_read_key`, which is the argument `key` here. What the
framebuffer and serial devices print on `write` is left out: only the
count they return is modelled.

A `MemFileHandle` reads its data in order: each read returns the next
`min(buffer length, bytes left)` bytes of what is left (`rest`) at the
front of the buffer, and leaves `rest` without them
(`MemFileHandle.read_eq`, `MemFileHandle.rest_read`); once the data is
used up every read returns 0 (`MemFileHandle.read_of_le`).
-/

namespace OspabOs.Fs

/-- `FsError`. -/
inductive FsError where
  | notFound
  | notFile
  | notDir
  | permission
  | invalid
  | io
  deriving DecidableEq, Repr

/-- `OpenFlags`. -/
inductive OpenFlags where
  | readOnly
  | writeOnly
  | readWrite
  deriving DecidableEq, Repr

/-- `OpenFlags::from_bits`: the low two bits, `0b11` read-only like `0b00`. -/
def OpenFlags.fromBits (flags : UInt64) : OpenFlags :=
  if flags &&& 0b11 = 0b01 then .writeOnly
  else if flags &&& 0b11 = 0b10 then .readWrite
  else .readOnly

/-- `MemFileHandle`. -/
structure MemFileHandle where
  data : List UInt8
  offset : Nat
  deriving DecidableEq, Repr

/-- `MemFileHandle::new`: the offset at 0. -/
def MemFileHandle.new (data : List UInt8) : MemFileHandle := ⟨data, 0⟩

/-- `MemFileHandle::read`: copy the next `min(remaining, buf.len())` bytes
to the front of `buf` and move the offset past them. -/
def MemFileHandle.read (h : MemFileHandle) (buf : List UInt8) : Except FsError Nat × List UInt8 × MemFileHandle :=
  if h.offset ≥ h.data.length then (.ok 0, buf, h)
  else
    let remaining := h.data.length - h.offset
    let toCopy := min remaining buf.length
    -- `buf[..to_copy].copy_from_slice(&self.data[self.offset..self.offset + to_copy])`
    (.ok toCopy, (h.data.drop h.offset).take toCopy ++ buf.drop toCopy, { h with offset := h.offset + toCopy })

/-- `MemFileHandle::write`: the handle is read-only. -/
def MemFileHandle.write (_h : MemFileHandle) (_buf : List UInt8) : Except FsError Nat := .error .permission

/-- `DeviceKind`. -/
inductive DeviceKind where
  | null
  | zero
  | keyboard
  | framebuffer
  | serial
  deriving DecidableEq, Repr

/-- A `Box<dyn FileHandle>`: one of the two implementations. -/
inductive FileHandle where
  | mem (h : MemFileHandle)
  | device (kind : DeviceKind)
  deriving DecidableEq, Repr

/-- `FileHandle::read`, given what `try_read_key` returns for the keyboard. -/
def FileHandle.read (handle : FileHandle) (buf : List UInt8) (key : Option Char) :
    Except FsError Nat × List UInt8 × FileHandle :=
  match handle with
  | .mem h =>
    let (result, buf, h) := h.read buf
    (result, buf, .mem h)
  | .device kind =>
    match kind with
    | .null => (.ok 0, buf, handle)
    | .zero => (.ok buf.length, List.replicate buf.length 0, handle)
    | .keyboard =>
      if buf.isEmpty then (.ok 0, buf, handle)
      else
        match key with
        -- `buf[0] = ch as u8`: the low byte of the scalar value
        | some ch => (.ok 1, UInt8.ofNat ch.toNat :: buf.drop 1, handle)
        | none => (.ok 0, buf, handle)
    | .framebuffer | .serial => (.ok 0, buf, handle)

/-- `FileHandle::write`: the count a device accepts. -/
def FileHandle.write (handle : FileHandle) (buf : List UInt8) : Except FsError Nat :=
  match handle with
  | .mem h => h.write buf
  | .device _ => .ok buf.length

namespace MemFileHandle

variable {h : MemFileHandle} {buf : List UInt8}

/-- The bytes a handle has still to read. -/
def rest (h : MemFileHandle) : List UInt8 := h.data.drop h.offset

/-- A read at the end returns 0 and changes nothing. -/
theorem read_of_le (past : h.data.length ≤ h.offset) : h.read buf = (.ok 0, buf, h) := by
  unfold read
  rw [if_pos past]

/-- Every read, before the end or at it: the front of `rest`, as much as
the buffer holds. -/
theorem read_eq :
    h.read buf =
      (.ok (min h.rest.length buf.length),
        h.rest.take buf.length ++ buf.drop (min h.rest.length buf.length),
        { h with offset := h.offset + min h.rest.length buf.length }) := by
  have left : h.rest.length = h.data.length - h.offset := List.length_drop
  by_cases past : h.data.length ≤ h.offset
  · have empty : h.rest = [] := List.drop_eq_nil_of_le past
    rw [read_of_le past, empty]
    simp
  · -- the Rust code takes `min(remaining, buf.len())` bytes of `rest`,
    -- which are its first `buf.len()`
    have front : h.rest.take (min (h.data.length - h.offset) buf.length) = h.rest.take buf.length := by
      rw [← left]
      by_cases fits : buf.length ≤ h.rest.length
      · rw [Nat.min_eq_right fits]
      · rw [Nat.min_eq_left (by omega), List.take_length, List.take_of_length_le (by omega)]
    unfold read
    rw [if_neg past, left, ← front]
    rfl

/-- A read leaves `rest` without the bytes it returned. -/
theorem rest_read : (h.read buf).2.2.rest = h.rest.drop buf.length := by
  rw [read_eq]
  show h.data.drop (h.offset + min h.rest.length buf.length) = (h.data.drop h.offset).drop buf.length
  rw [List.drop_drop]
  by_cases fits : buf.length ≤ h.rest.length
  · rw [Nat.min_eq_right fits]
  · have empty : ∀ k, h.rest.length ≤ k → h.data.drop (h.offset + k) = [] := by
      intro k past
      rw [← List.drop_drop]
      exact List.drop_eq_nil_of_le past
    rw [Nat.min_eq_left (by omega), empty _ (Nat.le_refl _), empty _ (by omega)]

end MemFileHandle

end OspabOs.Fs
