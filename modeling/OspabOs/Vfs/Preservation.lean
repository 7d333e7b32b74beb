import Mathlib
import OspabOs.Vfs.WellFormed

/-!
# Every request keeps the tree well formed

`WellFormedTree` fails after `init` on an archive entry `../a`
(`init_dotDot_archive_not_wellFormed`): the loader files nodes under
names it never normalizes. The request handlers do not. Each of
WriteFile, CreateDir and Delete edits one entry of a parent it has
checked to be a directory, under the last component of a normalized path,
which is a good name (`goodName_of_target`); the other four requests leave
the tree alone. So:

- **The law.** A request turns a well-formed tree into a well-formed tree
  (`process_wellFormed`), hence so does every run of requests
  (`wellFormed_run`).
- **The boot tree.** The skeleton is well formed (`checkTree`, a test of
  the property to a given depth, and its soundness
  `wellFormedTree_of_checkTree`), and so is the tree after `init` on
  modules that are not archives and whose file names are neither `.` nor
  `..` (`PlainModule`, `loadModule_wellFormed`).

The one argument under all of it is `wellFormed_updateAt`: an edit at a
path that keeps the node it reaches well formed keeps the whole tree well
formed, because every ancestor is rebuilt with its own fields and the
rebuilt child under the same key. `wellFormed_edit` says when an edit of
one entry keeps its node well formed.
-/

namespace OspabOs.Vfs

open OspabOs.Text

instance : DecidablePred GoodName := fun _ => inferInstanceAs (Decidable (_ ∧ _ ∧ _))

/-! ## Well-formedness one level at a time -/

/-- A tree is well formed when its root is good and the subtree under
each key is well formed. -/
theorem wellFormedTree_iff (node : VNode) :
    WellFormedTree node ↔ GoodNode node ∧ ∀ key child, node.child? key = some child → WellFormedTree child := by
  constructor
  · intro wf
    refine ⟨wf [] node rfl, fun key child found path reached walked => wf (key :: path) reached ?_⟩
    rw [VNode.walk_cons, found]
    exact walked
  · rintro ⟨good, below⟩ path reached found
    cases path with
    | nil =>
      cases found
      exact good
    | cons key rest =>
      rw [VNode.walk_cons] at found
      obtain ⟨child, isChild, walked⟩ := Option.bind_eq_some_iff.mp found
      exact below key child isChild rest reached walked

/-- Every subtree of a well-formed tree is well formed. -/
theorem WellFormedTree.walk {root node : VNode} {p : List (List Char)} (wf : WellFormedTree root)
    (found : root.walk p = some node) : WellFormedTree node := by
  intro q below reached
  apply wf (p ++ q) below
  rw [VNode.walk_append, found]
  exact reached

/-- A node with no entry is a well-formed tree when its fields agree with
its type. -/
theorem wellFormedTree_of_childless {node : VNode} (shape : NodeShape node)
    (childless : ∀ key, node.child? key = none) : WellFormedTree node := by
  rw [wellFormedTree_iff]
  refine ⟨⟨shape, fun key child found => ?_⟩, fun key child found => ?_⟩ <;>
    simp [childless key] at found

theorem wellFormedTree_newFile (name : List Char) (data : List UInt8) :
    WellFormedTree (VNode.newFile name data) :=
  wellFormedTree_of_childless ⟨by simp [VNode.newFile], by simp [VNode.newFile]⟩
    fun _ => rfl

theorem wellFormedTree_newDir (name : List Char) : WellFormedTree (VNode.newDir name) :=
  wellFormedTree_of_childless ⟨by simp [VNode.newDir], by simp [VNode.newDir]⟩
    fun _ => rfl

/-- `NodeShape` reads a node's own fields and whether it has a children
map, nothing else. -/
theorem NodeShape.congr {node node' : VNode} (shape : NodeShape node) (strip : node'.strip = node.strip)
    (isSome : node'.children.isSome = node.children.isSome) : NodeShape node' := by
  have fileType : node'.fileType = node.fileType := by
    show node'.strip.fileType = node.strip.fileType
    rw [strip]
  have data : node'.data = node.data := by
    show node'.strip.data = node.strip.data
    rw [strip]
  have size : node'.size = node.size := by
    show node'.strip.size = node.strip.size
    rw [strip]
  exact ⟨by rw [isSome, fileType]; exact shape.children_isSome,
    by rw [fileType, data, size]; exact shape.size_eq⟩

theorem GoodNode.children_isSome {node : VNode} (good : GoodNode node) (dir : node.fileType = .directory) :
    node.children.isSome = true :=
  good.shape.children_isSome.mpr dir

/-! ## Edits -/

/-- An edit of one entry keeps a well-formed node well formed when it
keeps the node's children map, and what it leaves under the entry's name
is a well-formed tree filed under its own, good, name. -/
theorem wellFormed_edit {f : VNode → VNode} {name : List Char} (edit : VNode.EditsOnly f name)
    {p : VNode} (wf : WellFormedTree p) (isSome : (f p).children.isSome = p.children.isSome)
    (entry : ∀ child, (f p).child? name = some child → child.name = name ∧ GoodName name ∧ WellFormedTree child) :
    WellFormedTree (f p) := by
  obtain ⟨good, below⟩ := (wellFormedTree_iff p).mp wf
  -- under `name` the entry the edit left, under any other key the old one
  have entries : ∀ key child, (f p).child? key = some child →
      child.name = key ∧ GoodName key ∧ WellFormedTree child := by
    intro key child found
    by_cases same : key = name
    · subst same
      exact entry child found
    · rw [edit.child?_eq p key same] at found
      exact ⟨(good.keys key child found).1, (good.keys key child found).2, below key child found⟩
  rw [wellFormedTree_iff]
  refine ⟨⟨good.shape.congr (edit.strip_eq p) isSome, fun key child found => ?_⟩,
    fun key child found => (entries key child found).2.2⟩
  exact ⟨(entries key child found).1, (entries key child found).2.1⟩

/-- An edit at a path keeps the node's own fields, whatever the path. -/
theorem strip_updateAt {f : VNode → VNode} {name : List Char} (edit : VNode.EditsOnly f name)
    (node : VNode) (p : List (List Char)) : (node.updateAt f p).strip = node.strip := by
  cases p with
  | nil => exact edit.strip_eq node
  | cons c cs => rfl

/-- THE PRESERVATION LAW: an edit of one entry at a path, which keeps the
node it reaches well formed, keeps the tree well formed. -/
theorem wellFormed_updateAt {f : VNode → VNode} {name : List Char} (edit : VNode.EditsOnly f name)
    {root : VNode} {parent : List (List Char)} (wf : WellFormedTree root)
    (edited : ∀ p, root.walk parent = some p → WellFormedTree (f p)) :
    WellFormedTree (root.updateAt f parent) := by
  -- on the path: each ancestor is rebuilt around the rebuilt child
  induction parent generalizing root with
  | nil => exact edited root rfl
  | cons c cs ih =>
    obtain ⟨good, below⟩ := (wellFormedTree_iff root).mp wf
    have entries : ∀ key child, (root.updateAt f (c :: cs)).child? key = some child →
        ∃ old, root.child? key = some old ∧ child.name = old.name ∧ WellFormedTree child := by
      intro key child found
      rw [VNode.child?_updateAt_cons] at found
      split_ifs at found with same
      · subst same
        obtain ⟨old, isOld, rfl⟩ := Option.map_eq_some_iff.mp found
        have sameName : (old.updateAt f cs).name = old.name := by
          show (old.updateAt f cs).strip.name = old.strip.name
          rw [strip_updateAt edit old cs]
        refine ⟨old, isOld, sameName, ih (below key old isOld) ?_⟩
        intro p reached
        apply edited p
        rw [VNode.walk_cons, isOld]
        exact reached
      · exact ⟨child, found, rfl, below key child found⟩
    have isSome : (root.updateAt f (c :: cs)).children.isSome = root.children.isSome := by
      rw [VNode.updateAt_cons]
      cases root.children <;> rfl
    rw [wellFormedTree_iff]
    refine ⟨⟨good.shape.congr rfl isSome, fun key child found => ?_⟩, fun key child found => ?_⟩
    · obtain ⟨old, isOld, sameName, -⟩ := entries key child found
      exact sameName ▸ good.keys key old isOld
    · obtain ⟨-, -, -, childWf⟩ := entries key child found
      exact childWf

section Directory

variable {p : VNode} (wf : WellFormedTree p) (dir : p.fileType = .directory)
include wf dir

/-- WriteFile's edit of a directory: a file under a good name. -/
theorem wellFormed_insertChild {name : List Char} (goodName : GoodName name) (data : List UInt8) :
    WellFormedTree (p.insertChild name (VNode.newFile name data)) := by
  have isSome : p.children.isSome = true := (wf [] p rfl).children_isSome dir
  refine wellFormed_edit (VNode.insertChild_editsOnly name _) wf (by rw [isSome]; rfl) ?_
  intro child found
  rw [VNode.child?_insertChild_self, Option.some.injEq] at found
  subst found
  exact ⟨rfl, goodName, wellFormedTree_newFile name data⟩

/-- CreateDir's edit of a directory: what is under the name, or a new
directory. -/
theorem wellFormed_entryOrInsert {name : List Char} (goodName : GoodName name) :
    WellFormedTree (p.entryOrInsert name (VNode.newDir name)) := by
  have isSome : p.children.isSome = true := (wf [] p rfl).children_isSome dir
  refine wellFormed_edit (VNode.entryOrInsert_editsOnly name _) wf (by rw [isSome]; rfl) ?_
  intro child found
  rw [VNode.child?_entryOrInsert_self, Option.some.injEq] at found
  subst found
  cases present : p.child? name with
  | none => exact ⟨rfl, goodName, wellFormedTree_newDir name⟩
  | some old =>
    obtain ⟨good, below⟩ := (wellFormedTree_iff p).mp wf
    exact ⟨(good.keys name old present).1, goodName, below name old present⟩

end Directory

/-- Delete's edit: an entry less. -/
theorem wellFormed_removeChild {p : VNode} (wf : WellFormedTree p) (name : List Char) :
    WellFormedTree (p.removeChild name) := by
  refine wellFormed_edit (VNode.removeChild_editsOnly name) wf ?_ ?_
  · unfold VNode.removeChild
    cases p.children <;> rfl
  · intro child found
    rw [VNode.child?_removeChild_self] at found
    cases found

/-! ## The handlers -/

/-- The last component of a normalized target is a good name. -/
theorem goodName_of_target {cwd path : List Char} {parent : List (List Char)} {name : List Char}
    (split : target cwd path = parent ++ [name]) : GoodName name := by
  have mem : name ∈ normalizeParts (joinCwd cwd path) := by
    unfold target at split
    rw [split]
    exact List.mem_append_right parent (List.mem_singleton_self name)
  obtain ⟨nonempty, -, notDot, notDotDot⟩ := normalizeParts_normal _ name mem
  exact ⟨nonempty, notDot, notDotDot⟩

section Handlers

variable {s : VfsState} (wf : WellFormedTree s.root) (path : List Char)
include wf

theorem writeFile_wellFormed (data : List UInt8) : WellFormedTree (writeFile s path data).2.root := by
  rcases List.eq_nil_or_concat (target s.currentDir path) with empty | ⟨parent, name, split⟩
  · rw [writeFile_of_target_eq_nil s path data empty]
    exact wf
  · rw [List.concat_eq_append] at split
    rw [writeFile_of_target_eq_concat s path data split]
    cases found : s.root.walk parent with
    | none => exact wf
    | some p =>
      by_cases dir : p.fileType = .directory
      · simp only [dir, ne_eq, not_true_eq_false, if_false]
        refine wellFormed_updateAt (VNode.insertChild_editsOnly name _) wf fun p' reached => ?_
        rw [found, Option.some.injEq] at reached
        subst reached
        exact wellFormed_insertChild (wf.walk found) dir (goodName_of_target split) data
      · simp only [dir, ne_eq, not_false_eq_true, if_true]
        exact wf

theorem createDir_wellFormed : WellFormedTree (createDir s path).2.root := by
  rcases List.eq_nil_or_concat (target s.currentDir path) with empty | ⟨parent, name, split⟩
  · rw [createDir_of_target_eq_nil s path empty]
    exact wf
  · rw [List.concat_eq_append] at split
    rw [createDir_of_target_eq_concat s path split]
    cases found : s.root.walk parent with
    | none => exact wf
    | some p =>
      by_cases dir : p.fileType = .directory
      · simp only [dir, ne_eq, not_true_eq_false, if_false]
        refine wellFormed_updateAt (VNode.entryOrInsert_editsOnly name _) wf fun p' reached => ?_
        rw [found, Option.some.injEq] at reached
        subst reached
        exact wellFormed_entryOrInsert (wf.walk found) dir (goodName_of_target split)
      · simp only [dir, ne_eq, not_false_eq_true, if_true]
        exact wf

theorem delete_wellFormed : WellFormedTree (delete s path).2.root := by
  rcases List.eq_nil_or_concat (target s.currentDir path) with empty | ⟨parent, name, split⟩
  · rw [delete_of_target_eq_nil s path empty]
    exact wf
  · rw [List.concat_eq_append] at split
    rw [delete_of_target_eq_concat s path split]
    cases found : s.root.walk parent with
    | none => exact wf
    | some p =>
      by_cases dir : p.fileType = .directory
      · simp only [dir, ne_eq, not_true_eq_false, if_false]
        cases p.child? name with
        | none => exact wf
        | some _ =>
          refine wellFormed_updateAt (VNode.removeChild_editsOnly name) wf fun p' reached => ?_
          exact wellFormed_removeChild (wf.walk reached) name
      · simp only [dir, ne_eq, not_false_eq_true, if_true]
        exact wf

end Handlers

/-- Every request turns a well-formed tree into a well-formed tree. -/
theorem process_wellFormed {s : VfsState} (wf : WellFormedTree s.root) (request : FSRequest) :
    WellFormedTree (process s request).2.root := by
  cases request with
  | listDir path => exact wf
  | readFile path => exact wf
  | writeFile path data => exact writeFile_wellFormed wf path data
  | createDir path => exact createDir_wellFormed wf path
  | delete path => exact delete_wellFormed wf path
  | changeDir path =>
    -- ChangeDir writes the current directory only
    rcases changeDir_cases s path with same | ⟨_, moved, -, -⟩
    · show WellFormedTree (changeDir s path).2.root
      rw [same]
      exact wf
    · show WellFormedTree (changeDir s path).2.root
      rw [moved]
      exact wf
  | getCwd => exact wf

/-- Every run of requests from a well-formed tree ends in one. -/
theorem wellFormed_run {s : VfsState} (wf : WellFormedTree s.root) (requests : List FSRequest) :
    WellFormedTree (requests.foldl VfsState.step s).root :=
  Machine.foldl_invariant (fun s : VfsState => WellFormedTree s.root)
    (fun _ request wf => process_wellFormed wf request) wf requests

/-! ## The boot tree -/

/-- `NodeShape` as a test. -/
def shapeOk (node : VNode) : Bool :=
  (node.children.isSome == (node.fileType == .directory)) &&
    (node.fileType != .regular || node.data.map List.length == some node.size)

/-- `WellFormedTree` as a test, down to depth `fuel`: a deeper tree fails it. -/
def checkTree : Nat → VNode → Bool
  | 0, _ => false
  | fuel + 1, node =>
    shapeOk node && (node.children.getD []).all fun entry =>
      entry.2.name == entry.1 && decide (GoodName entry.1) && checkTree fuel entry.2

theorem nodeShape_of_shapeOk {node : VNode} (ok : shapeOk node = true) : NodeShape node := by
  simp only [shapeOk, Bool.and_eq_true, beq_iff_eq, Bool.or_eq_true, bne_iff_ne, ne_eq] at ok
  obtain ⟨isSome, sized⟩ := ok
  refine ⟨?_, fun regular => ?_⟩
  · rw [isSome]
    simp
  · rcases sized with notRegular | sized
    · exact absurd regular notRegular
    · exact sized

theorem mem_of_child?_eq_some {node child : VNode} {key : List Char} (found : node.child? key = some child) :
    (key, child) ∈ node.children.getD [] := by
  rw [VNode.child?_eq_bind] at found
  obtain ⟨kids, isKids, inKids⟩ := Option.bind_eq_some_iff.mp found
  rw [isKids]
  exact KeyMap.mem_of_get?_eq_some inKids

/-- A tree that passes the test is well formed. -/
theorem wellFormedTree_of_checkTree {fuel : Nat} {node : VNode} (ok : checkTree fuel node = true) :
    WellFormedTree node := by
  -- on the fuel: one level of the tree for each unit
  induction fuel generalizing node with
  | zero => cases ok
  | succ fuel ih =>
    simp only [checkTree, Bool.and_eq_true, List.all_eq_true, beq_iff_eq, decide_eq_true_eq] at ok
    obtain ⟨shape, entries⟩ := ok
    have entry : ∀ key child, node.child? key = some child →
        child.name = key ∧ GoodName key ∧ checkTree fuel child = true := by
      intro key child found
      obtain ⟨⟨named, good⟩, below⟩ := entries (key, child) (mem_of_child?_eq_some found)
      exact ⟨named, good, below⟩
    rw [wellFormedTree_iff]
    refine ⟨⟨nodeShape_of_shapeOk shape, fun key child found => ?_⟩, fun key child found => ?_⟩
    · exact ⟨(entry key child found).1, (entry key child found).2.1⟩
    · exact ih (entry key child found).2.2

theorem skeleton_wellFormed : WellFormedTree skeleton :=
  @wellFormedTree_of_checkTree 4 skeleton (by decide)

/-- A module `init` skips, or files as one file at the root under a name a
normalized path can spell: its file name is no `.tar` archive's and is
neither `.` nor `..`. -/
def PlainModule (module : LimineModule) : Bool :=
  match module.path.bind fromUtf8 with
  | none => true
  | some path =>
    !".tar".toList.isSuffixOf (afterLast '/' path) && afterLast '/' path != ['.'] &&
      afterLast '/' path != ['.', '.']

theorem slash_not_mem_afterLast (path : List Char) : '/' ∉ afterLast '/' path := by
  unfold afterLast
  rw [List.mem_reverse]
  intro mem
  have kept := List.mem_takeWhile_imp mem
  simp at kept

/-- `insert_path` of a name with no `/`: one entry at the root. -/
theorem insertPath_of_slash_free (root : VNode) {name : List Char} (noSlash : '/' ∉ name)
    (nonempty : name ≠ []) (data : List UInt8) :
    insertPath root name (some data) false = root.insertChild name (VNode.newFile name data) := by
  have kept : name.dropWhile (· == '/') = name := by
    cases name with
    | nil => rfl
    | cons c rest =>
      have first : (c == '/') = false := by
        simp only [beq_eq_false_iff_ne]
        rintro rfl
        exact noSlash List.mem_cons_self
      rw [List.dropWhile_cons, first]
      rfl
  -- `trim_start_matches("./")` finds no `./` in a name with no `/`
  have trimmed : trimStartMatchesStr "./".toList name = name := by
    unfold trimStartMatchesStr
    cases length : name.length with
    | zero => rfl
    | succ n =>
      have none : name.dropPrefix? ['.', '/'] = none := by
        cases dropped : name.dropPrefix? ['.', '/'] with
        | none => rfl
        | some rest =>
          obtain ⟨front, split, same⟩ := List.dropPrefix?_eq_some_iff.mp dropped
          rw [beq_iff_eq] at same
          subst same
          exact absurd (split ▸ List.mem_append_left rest (by decide)) noSlash
      simp [trimStartMatchesStr.go, none]
  have comps : (name.splitOn '/').filter (!·.isEmpty) = [name] := by
    rw [List.splitOn_eq_singleton noSlash]
    simp [nonempty]
  simp only [insertPath, kept, trimmed, List.isEmpty_iff, nonempty, if_false, comps]
  rfl

/-- A plain module keeps a well-formed root directory well formed. -/
theorem loadModule_wellFormed {root : VNode} (wf : WellFormedTree root) (dir : root.fileType = .directory)
    {module : LimineModule} (plain : PlainModule module = true) : WellFormedTree (loadModule root module) := by
  unfold PlainModule at plain
  cases isPath : module.path with
  | none =>
    simp only [loadModule, isPath]
    exact wf
  | some bytes =>
    cases decoded : fromUtf8 bytes with
    | none =>
      simp only [loadModule, isPath, decoded]
      exact wf
    | some path =>
      simp only [isPath, decoded, Option.bind_some, Bool.and_eq_true, Bool.not_eq_true', bne_iff_ne,
        ne_eq] at plain
      obtain ⟨⟨notTar, notDot⟩, notDotDot⟩ := plain
      simp only [loadModule, isPath, decoded, notTar, Bool.false_eq_true, if_false]
      by_cases empty : afterLast '/' path = []
      · simp only [insertPath, empty, List.dropWhile_nil]
        exact wf
      · rw [insertPath_of_slash_free root (slash_not_mem_afterLast path) empty]
        exact wellFormed_insertChild wf dir ⟨empty, notDot, notDotDot⟩ module.data

/-- `init` on plain modules builds a well-formed tree. -/
theorem init_wellFormed {modules : List LimineModule} (plain : ∀ m ∈ modules, PlainModule m = true) :
    WellFormedTree (VfsState.init modules).root := by
  have kept := Machine.foldl_invariant_of_forall
    (fun root : VNode => WellFormedTree root ∧ root.fileType = .directory) (fun m => PlainModule m = true)
    (fun root m isPlain holds => ⟨loadModule_wellFormed holds.1 holds.2 isPlain,
      (fileType_loadModule root m).trans holds.2⟩)
    ⟨skeleton_wellFormed, rfl⟩ modules plain
  exact kept.1

end OspabOs.Vfs
