import Mathlib
import OspabOs.Vfs.Tar

/-!
# `parse_tar` reads back what a ustar writer writes

A ustar archive is a sequence of members, each a 512-byte header and, for
a regular file, its data padded with NULs to whole blocks; two zero blocks
end it, and whatever follows is never read. The header's fields stand at
fixed offsets (POSIX.1-1988): the name at 0 (100 bytes), the size at 124
(11 octal digits and a NUL), the type flag at 156 (`'0'` for a file, `'5'`
for a directory), the magic `"ustar"` at 257, and the prefix at 345 (155
bytes), which holds the part of a long path before a `/`.

`ustar` is the encoder, with mode, owner and time fixed and the checksum
computed as the format asks. `parseTar_inverts_ustar` says that
`parse_tar`, as Rust runs it (`parseTarChecked`), reads back every list of
members whose stored fields are not empty, hold no NUL, fit their fields
and have no whitespace at either end, and whose files are smaller than
`8 ^ 11` bytes and have paths not ending in `/`: the same paths, the data
of each file, and `is_dir` set exactly for the directories. The other
half of it, from `Vfs.Tar`, is that on every buffer whatsoever the loop
ends and no slice is out of range.

The proof reads each field back by a lemma of its own (`readString_field`,
`readOctal_octalField`), then one member (`go_encodeMember`), then the
list by induction, with fuel at least the number of members.
-/

namespace OspabOs.Vfs

open Text (encode isWhitespace)

/-! ## The encoder -/

/-- `bytes` in a field of `width` bytes: cut to the width, padded with NULs. -/
def field (width : Nat) (bytes : List UInt8) : List UInt8 :=
  (bytes ++ List.replicate width 0).take width

/-- The low `width` octal digits of `n` in ASCII, most significant first. -/
def octal : Nat → Nat → List UInt8
  | 0, _ => []
  | width + 1, n => octal width (n / 8) ++ [UInt8.ofNat (0x30 + n % 8)]

/-- A numeric field of `width` bytes: its octal digits and a NUL. -/
def octalField (width n : Nat) : List UInt8 := octal (width - 1) n ++ [0]

/-- A member as a ustar writer is given it: its path split between the
`prefix` field and the `name` field (`pre` empty when the path fits the
name field), and the data of a regular file, or a directory, whose data
are not written. -/
structure UstarMember where
  pre : List Char
  name : List Char
  data : List UInt8
  isDir : Bool

namespace UstarMember

/-- The path the member stands for: the prefix and the name joined by a `/`. -/
def path (m : UstarMember) : List Char := if m.pre = [] then m.name else m.pre ++ '/' :: m.name

/-- The `size` field: the length of a file's data, 0 for a directory. -/
def size (m : UstarMember) : Nat := if m.isDir then 0 else m.data.length

/-- The entry `parse_tar` is to return for the member. -/
def entry (m : UstarMember) : TarEntry := ⟨m.path, if m.isDir then [] else m.data, m.isDir⟩

end UstarMember

/-- The header of a member with `chksum` in the checksum field, field by
field; mode `0644` for a file and `0755` for a directory, owner and time 0,
and no link or owner names. -/
def headerWith (m : UstarMember) (chksum : List UInt8) : List UInt8 :=
  field 100 (encode m.name) ++                         -- name, at 0
  octalField 8 (if m.isDir then 0o755 else 0o644) ++   -- mode, at 100
  octalField 8 0 ++ octalField 8 0 ++                   -- uid and gid, at 108 and 116
  octalField 12 m.size ++ octalField 12 0 ++            -- size and mtime, at 124 and 136
  chksum ++                                             -- chksum, at 148
  [if m.isDir then 0x35 else 0x30] ++                   -- typeflag, at 156
  List.replicate 100 0 ++                               -- linkname, at 157
  [0x75, 0x73, 0x74, 0x61, 0x72, 0, 0x30, 0x30] ++      -- "ustar", NUL and version "00", at 257
  List.replicate 64 0 ++                                -- uname and gname, at 265
  octalField 8 0 ++ octalField 8 0 ++                   -- devmajor and devminor, at 329
  field 155 (encode m.pre) ++                           -- prefix, at 345
  List.replicate 12 0                                   -- up to 512

/-- The header: the checksum is the sum of the header's bytes with the
checksum field read as eight spaces, in six octal digits, a NUL and a
space. -/
def ustarHeader (m : UstarMember) : List UInt8 :=
  let sum := (headerWith m (List.replicate 8 0x20)).foldl (fun sum b => sum + b.toNat) 0
  headerWith m (octal 6 sum ++ [0, 0x20])

/-- A member as written: its header, then for a file its data padded with
NULs to whole blocks. -/
def encodeMember (m : UstarMember) : List UInt8 :=
  ustarHeader m ++
    if m.isDir then [] else m.data ++ List.replicate ((tarBlockSize - m.data.length % tarBlockSize) % tarBlockSize) 0

/-- An archive: the members, two zero blocks to end it, and whatever
follows. -/
def ustar (members : List UstarMember) (trailing : List UInt8) : List UInt8 :=
  members.flatMap encodeMember ++ List.replicate (2 * tarBlockSize) 0 ++ trailing

/-- A field the round trip carries: not empty, no NUL, within `width`
bytes, and no whitespace at either end. -/
def StoredField (width : Nat) (s : List Char) : Prop :=
  s ≠ [] ∧ '\x00' ∉ s ∧ (encode s).length ≤ width ∧
    (s.head?.all fun c => !isWhitespace c) = true ∧ (s.getLast?.all fun c => !isWhitespace c) = true

instance (width : Nat) : DecidablePred (StoredField width) := fun _ =>
  inferInstanceAs (Decidable (_ ∧ _ ∧ _ ∧ _ ∧ _))

/-- A member the round trip carries. -/
structure UstarMember.Valid (m : UstarMember) : Prop where
  name : StoredField 100 m.name
  pre : m.pre = [] ∨ StoredField 155 m.pre
  filePath : m.isDir = false → m.path.getLast? ≠ some '/'
  fileSize : m.isDir = false → m.data.length < 8 ^ 11

/-! ## Fields -/

@[simp] theorem length_field (width : Nat) (bytes : List UInt8) : (field width bytes).length = width := by
  simp [field]

theorem field_of_le {width : Nat} {bytes : List UInt8} (fits : bytes.length ≤ width) :
    field width bytes = bytes ++ List.replicate (width - bytes.length) 0 := by
  rw [field, List.take_append, List.take_of_length_le fits, List.take_replicate]
  congr 2
  omega

@[simp] theorem length_octal (width n : Nat) : (octal width n).length = width := by
  induction width generalizing n with
  | zero => rfl
  | succ width ih => simp [octal, ih]

@[simp] theorem length_octalField (width n : Nat) : (octalField width n).length = width - 1 + 1 := by
  simp [octalField]

theorem foldl_octal (acc width n : Nat) :
    (octal width n).foldl (fun value b => if b < 0x30 || b > 0x37 then value else value * 8 + (b - 0x30).toNat) acc =
      acc * 8 ^ width + n % 8 ^ width := by
  induction width generalizing n with
  | zero => simp [octal, Nat.mod_one]
  | succ width ih =>
    have byte : (UInt8.ofNat (0x30 + n % 8)).toNat = 0x30 + n % 8 := by
      rw [UInt8.toNat_ofNat']
      omega
    have isDigit : (UInt8.ofNat (0x30 + n % 8) < 0x30 || UInt8.ofNat (0x30 + n % 8) > 0x37) = false := by
      simp only [UInt8.lt_iff_toNat_lt, byte, UInt8.reduceToNat, Bool.or_eq_false_iff, decide_eq_false_iff_not]
      omega
    have value : (UInt8.ofNat (0x30 + n % 8) - 0x30).toNat = n % 8 := by
      rw [UInt8.toNat_sub_of_le _ _ (by rw [UInt8.le_iff_toNat_le, byte]; simp), byte]
      simp
    rw [octal, List.foldl_append, ih, List.foldl_cons, List.foldl_nil, isDigit, if_neg (by decide), value,
      Nat.pow_succ, Nat.mul_comm (8 ^ width) 8, Nat.mod_mul]
    -- one more place: the old value shifts up a digit
    generalize 8 ^ width = place
    rw [Nat.add_mul, Nat.mul_assoc, Nat.mul_comm place 8]
    omega

theorem readOctal_octalField {width n : Nat} (fits : n < 8 ^ (width - 1)) :
    readOctal (octalField width n) = n := by
  rw [readOctal, octalField, List.foldl_append, foldl_octal, Nat.zero_mul, Nat.zero_add, Nat.mod_eq_of_lt fits]
  rfl


theorem readString_field {width : Nat} {s : List Char} (stored : StoredField width s) :
    readString (field width (encode s)) = s := by
  obtain ⟨-, noNul, fits, first, last⟩ := stored
  have noZero := Text.zero_not_mem_encode noNul
  have kept : ∀ b ∈ encode s, decide (b ≠ 0) = true := fun b mem => by
    simpa using fun zero : b = 0 => noZero (zero ▸ mem)
  have trimmed := @Text.trim_append [] s [] (fun _ mem => nomatch mem) (fun _ mem => nomatch mem) first last
  rw [List.nil_append, List.append_nil] at trimmed
  rw [readString, field_of_le fits, List.takeWhile_append_of_pos kept, List.takeWhile_replicate]
  simp [trimmed]

theorem readString_field_nil (width : Nat) : readString (field width (encode [])) = [] := by
  simp [readString, field, encode, Text.fromUtf8Lossy, Text.decode, Text.decode.go, Text.trim]

theorem take_headerWith (m : UstarMember) (chksum : List UInt8) :
    (headerWith m chksum).take 100 = field 100 (encode m.name) := by
  simp [headerWith, -List.reduceReplicate]

theorem size_headerWith (m : UstarMember) (chksum : List UInt8) :
    ((headerWith m chksum).drop 124).take 12 = octalField 12 m.size := by
  simp [headerWith, List.drop_append, List.drop_eq_nil_of_le, -List.reduceReplicate]

theorem prefix_headerWith (m : UstarMember) {chksum : List UInt8} (eight : chksum.length = 8) :
    ((headerWith m chksum).drop 345).take 155 = field 155 (encode m.pre) := by
  simp [headerWith, List.drop_append, List.drop_eq_nil_of_le, eight, -List.reduceReplicate]

theorem typeflag_headerWith (m : UstarMember) {chksum : List UInt8} (eight : chksum.length = 8) :
    (headerWith m chksum).getD 156 0 = if m.isDir then 0x35 else 0x30 := by
  simp [headerWith, List.getD_eq_getElem?_getD, eight, -List.reduceReplicate]

theorem length_headerWith (m : UstarMember) {chksum : List UInt8} (eight : chksum.length = 8) :
    (headerWith m chksum).length = tarBlockSize := by
  simp [headerWith, eight, tarBlockSize, -List.reduceReplicate]

theorem isZeroBlock_headerWith (m : UstarMember) (chksum : List UInt8) :
    isZeroBlock (headerWith m chksum) = false := by
  simp [headerWith, isZeroBlock, -List.reduceReplicate]


theorem ustarHeader_eq (m : UstarMember) : ∃ chksum, chksum.length = 8 ∧ ustarHeader m = headerWith m chksum :=
  ⟨_, by simp, rfl⟩

/-- What follows a member's header: a file's data padded to whole blocks. -/
theorem encodeMember_eq (m : UstarMember) :
    encodeMember m = ustarHeader m ++ if m.isDir then [] else m.data ++ List.replicate ((tarBlockSize - m.data.length % tarBlockSize) % tarBlockSize) 0 := rfl

theorem length_encodeMember (m : UstarMember) :
    (encodeMember m).length = tarBlockSize + (m.size + tarBlockSize - 1) / tarBlockSize * tarBlockSize := by
  obtain ⟨chksum, eight, header⟩ := ustarHeader_eq m
  rw [encodeMember_eq, List.length_append, header, length_headerWith m eight, UstarMember.size]
  cases m.isDir
  · simp only [Bool.false_eq_true, if_false, List.length_append, List.length_replicate, tarBlockSize]
    omega
  · simp [tarBlockSize]

/-- What the loop reads from a valid member's header: the name, prefix,
size and type flag it was written with, and no zero block. -/
theorem read_ustarHeader {m : UstarMember} (valid : m.Valid) :
    readString ((ustarHeader m).take 100) = m.name ∧
      readString (((ustarHeader m).drop 345).take 155) = m.pre ∧
      readOctal (((ustarHeader m).drop 124).take 12) = m.size ∧
      (ustarHeader m).getD 156 0 = (if m.isDir then 0x35 else 0x30) ∧
      isZeroBlock (ustarHeader m) = false := by
  obtain ⟨chksum, eight, header⟩ := ustarHeader_eq m
  rw [header]
  refine ⟨?_, ?_, ?_, typeflag_headerWith m eight, isZeroBlock_headerWith m chksum⟩
  · rw [take_headerWith m chksum, readString_field valid.name]
  · rw [prefix_headerWith m eight]
    rcases valid.pre with empty | stored
    · rw [empty, readString_field_nil]
    · exact readString_field stored
  · rw [size_headerWith m chksum]
    apply readOctal_octalField
    unfold UstarMember.size
    cases dir : m.isDir
    · exact valid.fileSize dir
    · simp

/-- `parse_tar` joins the prefix and the name as `path` does. -/
theorem UstarMember.joined_eq_path (m : UstarMember) :
    (if (!m.pre.isEmpty) = true then m.pre ++ '/' :: m.name else m.name) = m.path := by
  unfold UstarMember.path
  cases m.pre <;> rfl

theorem UstarMember.Valid.path_ne_nil {m : UstarMember} (valid : m.Valid) : (!m.path.isEmpty) = true := by
  unfold UstarMember.path
  have named : m.name ≠ [] := valid.name.1
  split <;> simp [named]

/-- `parse_tar` reads a directory from the type flag, and a file's path
does not end in `/`, so the kind read is the kind written. -/
theorem UstarMember.Valid.isDir_read {m : UstarMember} (valid : m.Valid) :
    ((if m.isDir then (0x35 : UInt8) else 0x30) == 0x35 || m.path.getLast? == some '/') = m.isDir := by
  cases dir : m.isDir
  · simpa using valid.filePath dir
  · rfl

/-- One member read back: `go` returns its entry and goes on after it. -/
theorem go_encodeMember {buf : List UInt8} {offset : Nat} {m : UstarMember} (valid : m.Valid) {rest : List UInt8}
    (here : buf.drop offset = encodeMember m ++ rest) (fuel : Nat) :
    parseTar.go buf (fuel + 1) offset = m.entry :: parseTar.go buf fuel (offset + (encodeMember m).length) := by
  obtain ⟨chksum, eight, header⟩ := ustarHeader_eq m
  have block := length_headerWith m eight
  have atLeast : tarBlockSize ≤ (encodeMember m).length := by
    rw [length_encodeMember]
    exact Nat.le_add_right _ _
  have total : buf.length = offset + (encodeMember m).length + rest.length := by
    have dropped := congrArg List.length here
    simp only [List.length_drop, List.length_append] at dropped
    simp only [tarBlockSize] at atLeast
    omega
  have fits : offset + tarBlockSize ≤ buf.length := by
    rw [total]
    omega
  have blockAt : (buf.drop offset).take tarBlockSize = ustarHeader m := by
    rw [here, encodeMember_eq, List.append_assoc, header, List.take_left' block]
  have body : buf.drop (offset + tarBlockSize) = (if m.isDir then [] else
      m.data ++ List.replicate ((tarBlockSize - m.data.length % tarBlockSize) % tarBlockSize) 0) ++ rest := by
    rw [← List.drop_drop, here, encodeMember_eq, List.append_assoc, header, List.drop_left' block]
  have data : (if (!m.isDir && decide (offset + tarBlockSize + m.size ≤ buf.length)) = true then
      (buf.drop (offset + tarBlockSize)).take m.size else []) = if m.isDir then [] else m.data := by
    cases dir : m.isDir
    · have inBuf : offset + tarBlockSize + m.size ≤ buf.length := by
        rw [total, length_encodeMember, UstarMember.size, dir, if_neg Bool.false_ne_true]
        simp only [tarBlockSize]
        omega
      rw [if_pos (by simp [inBuf]), body, dir, if_neg Bool.false_ne_true, if_neg Bool.false_ne_true,
        UstarMember.size, dir, if_neg Bool.false_ne_true, List.append_assoc, List.take_left' rfl]
    · rfl
  obtain ⟨name, pre, size, flag, zero⟩ := read_ustarHeader valid
  rw [parseTar.go, if_pos fits]
  simp only [blockAt, zero, name, pre, size, flag, m.joined_eq_path, valid.isDir_read, data, valid.path_ne_nil,
    Bool.false_eq_true, if_false, if_true]
  rw [length_encodeMember, Nat.add_assoc]
  rfl

/-- A zero block ends the loop. -/
theorem go_zeroBlock {buf : List UInt8} {offset : Nat} {rest : List UInt8}
    (here : buf.drop offset = List.replicate tarBlockSize 0 ++ rest) (fuel : Nat) :
    parseTar.go buf (fuel + 1) offset = [] := by
  have fits : offset + tarBlockSize ≤ buf.length := by
    have dropped := congrArg List.length here
    simp only [List.length_drop, List.length_append, List.length_replicate] at dropped
    simp only [tarBlockSize] at dropped ⊢
    omega
  have zero : isZeroBlock ((buf.drop offset).take tarBlockSize) = true := by
    rw [here, List.take_left' (List.length_replicate ..)]
    simp [isZeroBlock]
  rw [parseTar.go, if_pos fits]
  simp only [zero, if_true]

theorem ustar_cons (m : UstarMember) (members : List UstarMember) (trailing : List UInt8) :
    ustar (m :: members) trailing = encodeMember m ++ ustar members trailing := by
  simp only [ustar, List.flatMap_cons, List.append_assoc]

theorem length_lt_ustar (members : List UstarMember) (trailing : List UInt8) :
    members.length < (ustar members trailing).length := by
  induction members with
  | nil =>
    simp only [ustar, List.flatMap_nil, List.nil_append, List.length_append, List.length_replicate,
      List.length_nil, tarBlockSize]
    omega
  | cons m members ih =>
    have atLeast := length_encodeMember m
    rw [ustar_cons, List.length_append, List.length_cons]
    simp only [tarBlockSize] at atLeast
    omega

/-- The members read back one by one, up to the first zero block, with
fuel for one turn more than there are members. -/
theorem go_ustar {buf : List UInt8} {members : List UstarMember} (valid : ∀ m ∈ members, m.Valid)
    {trailing : List UInt8} {offset fuel : Nat} (here : buf.drop offset = ustar members trailing)
    (enough : members.length < fuel) : parseTar.go buf fuel offset = members.map UstarMember.entry := by
  obtain ⟨fuel, rfl⟩ : ∃ f, fuel = f + 1 := ⟨fuel - 1, by omega⟩
  induction members generalizing offset fuel with
  | nil =>
    have zeros : ustar [] trailing = List.replicate tarBlockSize 0 ++ (List.replicate tarBlockSize 0 ++ trailing) := by
      rw [ustar, List.flatMap_nil, List.nil_append, Nat.two_mul, List.replicate_add, List.append_assoc]
    rw [zeros] at here
    exact go_zeroBlock here fuel
  | cons m members ih =>
    rw [ustar_cons] at here
    have after : buf.drop (offset + (encodeMember m).length) = ustar members trailing := by
      rw [← List.drop_drop, here, List.drop_left]
    obtain ⟨fuel, rfl⟩ : ∃ f, fuel = f + 1 := ⟨fuel - 1, by simp at enough; omega⟩
    rw [go_encodeMember (valid m List.mem_cons_self) here, List.map_cons,
      ih (fun m' mem => valid m' (List.mem_cons_of_mem m mem)) after fuel (by simp at enough; omega)]

/-- The checked parser reads an archive back: its entries, in order. -/
theorem parseTarChecked_ustar (members : List UstarMember) (valid : ∀ m ∈ members, m.Valid)
    (trailing : List UInt8) : parseTarChecked (ustar members trailing) = .ok (members.map UstarMember.entry) := by
  rw [parseTarChecked_eq, parseTar]
  exact congrArg Outcome.ok (go_ustar valid (List.drop_zero) (length_lt_ustar members trailing))

/-- The ustar round trip, and the totality of `parse_tar`: read as Rust
runs it, an archive written from valid members gives back their entries
in order, and on every buffer whatsoever the loop ends with every slice in
range, returning what the fuelled model computes. -/
theorem parseTar_inverts_ustar (members : List UstarMember) (valid : ∀ m ∈ members, m.Valid)
    (trailing buf : List UInt8) :
    parseTarChecked (ustar members trailing) = .ok (members.map UstarMember.entry) ∧
      parseTarChecked buf = .ok (parseTar buf) :=
  ⟨parseTarChecked_ustar members valid trailing, parseTarChecked_eq buf⟩

instance : DecidablePred UstarMember.Valid := fun m =>
  decidable_of_iff (StoredField 100 m.name ∧ (m.pre = [] ∨ StoredField 155 m.pre) ∧
      (m.isDir = false → m.path.getLast? ≠ some '/') ∧ (m.isDir = false → m.data.length < 8 ^ 11))
    ⟨fun ⟨name, pre, filePath, fileSize⟩ => ⟨name, pre, filePath, fileSize⟩,
      fun ⟨name, pre, filePath, fileSize⟩ => ⟨name, pre, filePath, fileSize⟩⟩

theorem parseTar_inverts_ustar_etc :
    (∀ m ∈ ([⟨[], "etc".toList, [], true⟩, ⟨"etc".toList, "hostname".toList, [0x6f, 0x73], false⟩] :
        List UstarMember), m.Valid) ∧
      parseTarChecked (ustar [⟨[], "etc".toList, [], true⟩, ⟨"etc".toList, "hostname".toList, [0x6f, 0x73], false⟩] []) =
        .ok (List.map UstarMember.entry
          [⟨[], "etc".toList, [], true⟩, ⟨"etc".toList, "hostname".toList, [0x6f, 0x73], false⟩]) ∧
      parseTarChecked [] = .ok (parseTar []) :=
  have valid : ∀ m ∈ ([⟨[], "etc".toList, [], true⟩, ⟨"etc".toList, "hostname".toList, [0x6f, 0x73], false⟩] :
      List UstarMember), m.Valid := by
    intro m mem
    rcases List.mem_cons.mp mem with rfl | mem
    · decide
    rcases List.mem_cons.mp mem with rfl | mem
    · decide
    cases mem
  ⟨valid, parseTar_inverts_ustar _ valid [] []⟩

end OspabOs.Vfs
