import OspabOs.Lib.Collections

/-!
# The initrd's ustar reader

`fs/tar.rs` reads a tar archive block by block: a 512-byte header, the
file's data rounded up to whole blocks, and so on until a zero block or
until fewer than 512 bytes are left. Names are NUL-terminated fields,
decoded lossily and trimmed; a non-empty `prefix` field is joined in
front of the name with a `/`; the size is read from its octal field
skipping every byte that is not an octal digit; an entry is a directory
when its type flag is `'5'` or its path ends with `/`.

The loop is a `while` over a byte offset that grows by at least one block
per turn. `parseTar` writes it with fuel, the buffer's length, which
bounds the number of turns, and with `List.drop`/`List.take` for the
slices. `parseTarChecked` is the loop as Rust runs it: well-founded
recursion on the bytes left, and every slice and index checked, a bad one
a panic. `parseTarChecked_eq` says the two agree on every buffer: no
slice is ever out of range and the fuel never runs out first.

Machine arithmetic: every size `read_octal` can produce comes from a
12-byte field and is below `8 ^ 12`, so none of the `usize` sums of the
source can wrap, and they are `Nat` sums here.
-/

namespace OspabOs.Vfs

/-- `TAR_BLOCK_SIZE`. -/
def tarBlockSize : Nat := 512

/-- `TarEntry`. -/
structure TarEntry where
  path : List Char
  data : List UInt8
  isDir : Bool

/-- `is_zero_block`. -/
def isZeroBlock (block : List UInt8) : Bool :=
  block.all (· == 0)

/-- `read_string`: up to the first NUL, decoded lossily, trimmed. -/
def readString (field : List UInt8) : List Char :=
  Text.trim (Text.fromUtf8Lossy (field.takeWhile (· ≠ 0)))

/-- `read_octal`: the octal digits of the field (bytes `'0'` to `'7'`),
every other byte skipped. -/
def readOctal (field : List UInt8) : Nat :=
  field.foldl (fun value b => if b < 0x30 || b > 0x37 then value else value * 8 + (b - 0x30).toNat) 0

/-- `parse_tar`. -/
def parseTar (buf : List UInt8) : List TarEntry :=
  go buf.length 0
where
  /-- One turn of the `while offset + TAR_BLOCK_SIZE <= buf.len()` loop,
  with fuel. -/
  go : Nat → Nat → List TarEntry
    | 0, _ => []
    | fuel + 1, offset =>
      if offset + tarBlockSize ≤ buf.length then
        let header := (buf.drop offset).take tarBlockSize
        if isZeroBlock header then []
        else
          let name := readString (header.take 100)
          let pre := readString ((header.drop 345).take 155)
          let path := if !pre.isEmpty then pre ++ '/' :: name else name
          let size := readOctal ((header.drop 124).take 12)
          -- `header[156]`, in range: the header is a whole block
          let typeflag := header.getD 156 0
          let isDir := typeflag == 0x35 || path.getLast? == some '/'
          let dataStart := offset + tarBlockSize
          let dataEnd := dataStart + size
          let data := if !isDir && dataEnd ≤ buf.length then (buf.drop dataStart).take size else []
          let dataBlocks := (size + tarBlockSize - 1) / tarBlockSize
          let rest := go fuel (dataStart + dataBlocks * tarBlockSize)
          if !path.isEmpty then ⟨path, data, isDir⟩ :: rest else rest
      else []

/-- `parse_tar` as Rust runs it: the `while` loop by well-founded
recursion on the bytes left, every slice and index checked. It has no
error value: where Rust would panic, it panics. -/
def parseTarChecked (buf : List UInt8) : Outcome Empty (List TarEntry) :=
  loop 0
where
  /-- The loop from `offset`. -/
  loop (offset : Nat) : Outcome Empty (List TarEntry) :=
    if offset + tarBlockSize ≤ buf.length then do
      let header ← Vec.slice buf offset (offset + tarBlockSize)
      if isZeroBlock header then pure []
      else do
        let name := readString (← Vec.slice header 0 100)
        let pre := readString (← Vec.slice header 345 500)
        let path := if !pre.isEmpty then pre ++ '/' :: name else name
        let size := readOctal (← Vec.slice header 124 136)
        let typeflag ← Vec.index header 156
        let isDir := typeflag == 0x35 || path.getLast? == some '/'
        let dataStart := offset + tarBlockSize
        let dataEnd := dataStart + size
        let data ← if !isDir && dataEnd ≤ buf.length then Vec.slice buf dataStart dataEnd else pure []
        let dataBlocks := (size + tarBlockSize - 1) / tarBlockSize
        let rest ← loop (dataStart + dataBlocks * tarBlockSize)
        pure (if !path.isEmpty then ⟨path, data, isDir⟩ :: rest else rest)
    else pure []
  termination_by buf.length - offset
  decreasing_by
    simp only [tarBlockSize] at *
    omega

/-- Every field the loop reads lies inside a whole header block, and reads
as the fuelled model reads it. -/
theorem header_reads {header : List UInt8} (whole : header.length = tarBlockSize) :
    (Vec.slice header 0 100 : Outcome Empty (List UInt8)) = .ok (header.take 100) ∧
      (Vec.slice header 345 500 : Outcome Empty (List UInt8)) = .ok ((header.drop 345).take 155) ∧
      (Vec.slice header 124 136 : Outcome Empty (List UInt8)) = .ok ((header.drop 124).take 12) ∧
      (Vec.index header 156 : Outcome Empty UInt8) = .ok (header.getD 156 0) := by
  have inside : ∀ n, n ≤ 512 → n ≤ header.length := fun n le => by
    rw [whole]
    exact le
  have flagAt : 156 < header.length := inside 157 (by decide)
  refine ⟨?_, ?_, ?_, ?_⟩
  · rw [Vec.slice_of_le (by decide) (inside 100 (by decide)), List.drop_zero]
  · exact Vec.slice_of_le (by decide) (inside 500 (by decide))
  · exact Vec.slice_of_le (by decide) (inside 136 (by decide))
  · rw [Vec.index_of_lt flagAt, List.getD_eq_getElem?_getD, List.getElem?_eq_getElem flagAt]
    rfl

/-- The checked loop from `offset` returns what `go` computes there with
any fuel that covers the bytes left: each turn consumes a block, so the
fuel outlasts the loop, and each slice of the turn is inside the buffer
or the header block. -/
theorem parseTarChecked_loop_eq_go (buf : List UInt8) (fuel offset : Nat) (enough : buf.length - offset ≤ fuel) :
    parseTarChecked.loop buf offset = .ok (parseTar.go buf fuel offset) := by
  induction fuel generalizing offset with
  | zero =>
    rw [parseTarChecked.loop, if_neg (by simp only [tarBlockSize]; omega)]
    rfl
  | succ fuel ih =>
    rw [parseTarChecked.loop, parseTar.go]
    by_cases fits : offset + tarBlockSize ≤ buf.length
    · rw [if_pos fits, if_pos fits]
      have whole : ((buf.drop offset).take tarBlockSize).length = tarBlockSize := by
        simp only [List.length_take, List.length_drop]
        omega
      simp only [Outcome.bind_eq, Vec.slice_of_le (Nat.le_add_right offset tarBlockSize) fits,
        Nat.add_sub_cancel_left, Outcome.ok_bind]
      split
      · rfl
      · generalize (buf.drop offset).take tarBlockSize = header at whole ⊢
        obtain ⟨nameRead, preRead, sizeRead, flagRead⟩ := header_reads whole
        simp only [nameRead, preRead, sizeRead, flagRead, Outcome.ok_bind]
        generalize readString (header.take 100) = name
        generalize readString ((header.drop 345).take 155) = pre
        generalize readOctal ((header.drop 124).take 12) = size
        generalize header.getD 156 0 = typeflag
        generalize (if (!pre.isEmpty) = true then pre ++ '/' :: name else name) = path
        generalize (typeflag == 53 || path.getLast? == some '/') = isDir
        have next := ih (offset + tarBlockSize + (size + tarBlockSize - 1) / tarBlockSize * tarBlockSize)
          (by simp only [tarBlockSize] at fits enough ⊢; omega)
        -- the data is copied exactly when the source slices it, and then in range
        by_cases copied : (!isDir && decide (offset + tarBlockSize + size ≤ buf.length)) = true
        · have inBuf : offset + tarBlockSize + size ≤ buf.length :=
            of_decide_eq_true (Bool.and_eq_true_iff.mp copied).2
          rw [if_pos copied, if_pos copied, Vec.slice_of_le (Nat.le_add_right _ _) inBuf, Outcome.ok_bind, next,
            Outcome.ok_bind, Nat.add_sub_cancel_left]
          rfl
        · rw [if_neg copied, if_neg copied, Outcome.pure_eq_ok, Outcome.ok_bind, next, Outcome.ok_bind]
          rfl
    · rw [if_neg fits, if_neg fits]
      rfl

/-- `parse_tar` never slices out of range and terminates on every buffer,
and returns what the fuelled model computes. -/
theorem parseTarChecked_eq (buf : List UInt8) : parseTarChecked buf = .ok (parseTar buf) :=
  parseTarChecked_loop_eq_go buf buf.length 0 (Nat.sub_le _ _)

end OspabOs.Vfs
