import OspabOs.Vfs.Service

/-!
# The shape of the tree

A well-formed tree is one in which every node reachable from the root by
its keys agrees with itself: the key it is filed under is its name, that
name is one a normalized path can spell (not empty, not `.`, not `..`),
exactly the directories carry a children map, and a regular file's size
is the length of its data.

The request handlers only ever file a node under the last component of a
NORMALIZED target, below a node they checked to be a directory. The
module loader does not: `insert_path` trims leading `/` and `./` and
inserts the remaining components as they are. So

- an archive entry `../a` files a directory under the key `..`
  (`insertPath_dotDot_child`), which no normalized path reaches, and
- an entry `a/b` after a file entry `a` walks into the regular file and
  gives it a children map (`insertComponents_regular_children`).

`init_dotDot_archive_not_wellFormed` evaluates `init` on one such archive.
-/

namespace OspabOs.Vfs

/-- A name that a normalized path can spell. -/
def GoodName (name : List Char) : Prop :=
  name ≠ [] ∧ name ≠ ['.'] ∧ name ≠ ['.', '.']

/-- The fields of a node agree with its type: ONLY directories have a
children map, and regular files record the length of their data. -/
structure NodeShape (node : VNode) : Prop where
  children_isSome : node.children.isSome = true ↔ node.fileType = .directory
  size_eq : node.fileType = .regular → node.data.map List.length = some node.size

/-- A node of the right shape whose children are filed under their own,
good, names. -/
structure GoodNode (node : VNode) : Prop where
  shape : NodeShape node
  keys : ∀ key child, node.child? key = some child → child.name = key ∧ GoodName key

/-- Every node reachable from `root` is good. -/
def WellFormedTree (root : VNode) : Prop :=
  ∀ path node, root.walk path = some node → GoodNode node

/-! ## What `insert_components` does to the first component -/

/-- `insert_components` leaves an entry under the first component, whatever
that component is. -/
theorem child?_insertComponents_head (node : VNode) (name : List Char) (rest : List (List Char))
    (data : Option (List UInt8)) (isDir : Bool) :
    ((insertComponents node (name :: rest) data isDir).child? name).isSome := by
  cases rest with
  | nil =>
    cases isDir with
    | false => simp [insertComponents]
    | true => simp [insertComponents, VNode.child?_entryOrInsert_self]
  | cons next rest =>
    cases found : KeyMap.get? name (node.children.getD []) with
    | none => simp [insertComponents, found, VNode.child?, KeyMap.get?_insert_self]
    | some present => simp [insertComponents, found, VNode.child?, KeyMap.get?_modify]

/-- `trim_start_matches("./")` leaves a path starting with `..` alone. -/
theorem trimStartMatchesStr_dotDot (rest : List Char) :
    Text.trimStartMatchesStr "./".toList ('.' :: '.' :: rest) = '.' :: '.' :: rest := by
  simp [Text.trimStartMatchesStr, Text.trimStartMatchesStr.go, List.dropPrefix?]

/-- An entry `../rest` is filed under the key `..` of the root. -/
theorem insertPath_dotDot_child (root : VNode) (rest : List Char) (data : Option (List UInt8))
    (isDir : Bool) :
    ((insertPath root ('.' :: '.' :: '/' :: rest) data isDir).child? ['.', '.']).isSome := by
  have split : ('.' :: '.' :: '/' :: rest).splitOn '/' = ['.', '.'] :: rest.splitOn '/' :=
    List.splitOn_append_cons_of_beq ['.', '.'] rest (show ('/' == '/') = true by decide)
  have comps : (('.' :: '.' :: '/' :: rest).splitOn '/').filter (!·.isEmpty) =
      ['.', '.'] :: (rest.splitOn '/').filter (!·.isEmpty) := by
    rw [split]
    rfl
  have notSlash : ('.' == '/') = false := rfl
  simp only [insertPath, List.dropWhile_cons, notSlash, Bool.false_eq_true, if_false,
    trimStartMatchesStr_dotDot, List.isEmpty_cons, comps]
  exact child?_insertComponents_head root _ _ data isDir

/-- Below a regular file, `insert_components` walks into the file and
gives it a children map: the node stays a regular file. -/
theorem insertComponents_regular_children {node file : VNode} {name next : List Char}
    {rest : List (List Char)} (data : Option (List UInt8)) (isDir : Bool)
    (found : node.child? name = some file) (regular : file.fileType = .regular) :
    ∃ child, (insertComponents node (name :: next :: rest) data isDir).child? name = some child ∧
      child.fileType = .regular ∧ child.children.isSome := by
  rw [VNode.child?_eq_bind] at found
  obtain ⟨kids, kidsEq, inKids⟩ := Option.bind_eq_some_iff.mp found
  have present : KeyMap.get? name (node.children.getD []) = some file := by
    rw [kidsEq]
    exact inKids
  refine ⟨insertComponents file (next :: rest) data isDir, ?_, ?_, ?_⟩
  · simp [insertComponents, present, VNode.child?, KeyMap.get?_modify]
  · rw [fileType_insertComponents]
    exact regular
  · exact children_isSome_insertComponents file (List.cons_ne_nil next rest) data isDir

/-! ## `init` on an archive with a `..` entry -/

/-- A ustar archive holding one empty regular file `../a`: its first
header block, then nothing. -/
def dotDotArchive : List UInt8 :=
  [0x2e, 0x2e, 0x2f, 0x61] ++ List.replicate 508 0

/-- The archive as Limine hands it over, under `boot():/initrd.tar`. -/
def dotDotModule : LimineModule :=
  { path := some (Text.encode "boot():/initrd.tar".toList), data := dotDotArchive }

/-- `init` files the archive's entry under `..`, so its tree is not well formed. -/
theorem init_dotDot_archive_not_wellFormed : ¬ WellFormedTree (VfsState.init [dotDotModule]).root := by
  intro wf
  have found : ((VfsState.init [dotDotModule]).root.child? ['.', '.']).isSome := by
    decide +kernel
  obtain ⟨child, isChild⟩ := Option.isSome_iff_exists.mp found
  have good := ((wf [] _ rfl).keys _ child isChild).2
  exact good.2.2 rfl

end OspabOs.Vfs
