import OspabOs.Vfs.Locality

/-!
# The coreutils

`apps::coreutils` implements `ls`, `cat`, `mkdir`, `cp` and `mv` as
requests to the VFS service through `vfs::process_request`, which answers
`Error("VFS not initialized")` until `vfs::init` has stored the service.
Each reads its answer the same way (`expect`): the value it asked for is
`Ok`, an `Error(msg)` is `Err(msg)`, anything else is
`Err("Unexpected response")`. `cp` is `cat` and then WriteFile, `mv` is
`cp` and then Delete: separate requests, each resolving its own path
against the current directory.

What the callers take from them holds only in part.

- CreateDir keeps an entry of any type already under the name, so `mkdir`
  of a file's path answers `Ok` with the file still there
  (`createDir_keeps_entry`). A successful CreateDir does leave a node at
  its target, a new directory unless something was there
  (`createDir_success_resolves`), and CreateDir is idempotent
  (`createDir_twice`).
- `mv` of a file onto its own path, under any spelling, writes the file
  onto itself and then deletes it: `Ok`, and the file is gone
  (`mv_onto_itself_loses_file`). `mv` of a file onto its own directory
  replaces the directory by a file and then fails, with the tree changed
  (`mv_into_parent_replaces_it`). When neither target lies on the
  other's path, a successful `mv` leaves the bytes `cat` read at the
  destination (`mv_moves_when_apart`), and a `cp` that fails changes
  nothing (`cp_error_keeps`).
-/

namespace OspabOs.Coreutils

open Vfs

/-- `vfs::process_request`: the service's answer once `init` has stored
it, and the service afterwards. -/
def processRequest (vfs : Option VfsState) (request : FSRequest) : FSResponse × Option VfsState :=
  match vfs with
  | some s => ((process s request).1, some (process s request).2)
  | none => (.error "VFS not initialized".toList, none)

/-- How the coreutils read an answer: the value `expected` finds in it is
`Ok`, `Error(msg)` is `Err(msg)`, anything else `Err("Unexpected response")`. -/
def expect {α : Type} (expected : FSResponse → Option α) (response : FSResponse) : Except (List Char) α :=
  match expected response, response with
  | some value, _ => .ok value
  | none, .error msg => .error msg
  | none, _ => .error "Unexpected response".toList

/-- `FSResponse::DirListing(entries)`. -/
def FSResponse.dirListing? : FSResponse → Option (List (List Char))
  | .dirListing entries => some entries
  | _ => none

/-- `FSResponse::FileData(data)`. -/
def FSResponse.fileData? : FSResponse → Option (List UInt8)
  | .fileData data => some data
  | _ => none

/-- `FSResponse::Success`. -/
def FSResponse.success? : FSResponse → Option Unit
  | .success => some ()
  | _ => none

/-- One request, its answer read by `expect`. -/
def ask {α : Type} (expected : FSResponse → Option α) (vfs : Option VfsState) (request : FSRequest) :
    Except (List Char) α × Option VfsState :=
  ((expect expected (processRequest vfs request).1), (processRequest vfs request).2)

/-- `coreutils::ls`. -/
def ls (vfs : Option VfsState) (path : List Char) : Except (List Char) (List (List Char)) × Option VfsState :=
  ask FSResponse.dirListing? vfs (.listDir path)

/-- `coreutils::cat`. -/
def cat (vfs : Option VfsState) (path : List Char) : Except (List Char) (List UInt8) × Option VfsState :=
  ask FSResponse.fileData? vfs (.readFile path)

/-- `coreutils::mkdir`. -/
def mkdir (vfs : Option VfsState) (path : List Char) : Except (List Char) Unit × Option VfsState :=
  ask FSResponse.success? vfs (.createDir path)

/-- `coreutils::cp`: `cat(src)?`, then WriteFile of what it read at `dst`. -/
def cp (vfs : Option VfsState) (src dst : List Char) : Except (List Char) Unit × Option VfsState :=
  match cat vfs src with
  | (.ok data, vfs) => ask FSResponse.success? vfs (.writeFile dst data)
  | (.error msg, vfs) => (.error msg, vfs)

/-- `coreutils::mv`: `cp(src, dst)?`, then Delete of `src`. -/
def mv (vfs : Option VfsState) (src dst : List Char) : Except (List Char) Unit × Option VfsState :=
  match cp vfs src dst with
  | (.ok (), vfs) => ask FSResponse.success? vfs (.delete src)
  | (.error msg, vfs) => (.error msg, vfs)

/-! ## Reading answers -/

section
variable {α : Type} {expected : FSResponse → Option α} {response : FSResponse}

theorem expect_eq_ok {value : α} : expect expected response = .ok value ↔ expected response = some value := by
  unfold expect
  split <;> simp_all

/-- An answer that is not the expected value is an error. -/
theorem expect_eq_error (unexpected : expected response = none) :
    ∃ msg, expect expected response = .error msg := by
  unfold expect
  split
  · simp_all
  · exact ⟨_, rfl⟩
  · exact ⟨_, rfl⟩

end

@[simp] theorem fileData?_eq_some {response : FSResponse} {data : List UInt8} :
    FSResponse.fileData? response = some data ↔ response = .fileData data := by
  cases response <;> simp [FSResponse.fileData?]

@[simp] theorem success?_eq_some {response : FSResponse} {u : Unit} :
    FSResponse.success? response = some u ↔ response = .success := by
  cases response <;> simp [FSResponse.success?]

/-! ## What each coreutil does to an initialized service -/

section
variable (s : VfsState)

@[simp] theorem ask_some {α : Type} (expected : FSResponse → Option α) (request : FSRequest) :
    ask expected (some s) request = (expect expected (process s request).1, some (process s request).2) := rfl

theorem cat_some (path : List Char) : cat (some s) path = (expect FSResponse.fileData? (readFile s path), some s) := rfl

theorem mkdir_some (path : List Char) :
    mkdir (some s) path = (expect FSResponse.success? (createDir s path).1, some (createDir s path).2) := rfl

/-- `cp` once `cat` has read the bytes. -/
theorem cp_of_read {src : List Char} {data : List UInt8} (read : readFile s src = .fileData data) (dst : List Char) :
    cp (some s) src dst = (expect FSResponse.success? (writeFile s dst data).1, some (writeFile s dst data).2) := by
  have catOk : cat (some s) src = (.ok data, some s) := by
    rw [cat_some, read]
    rfl
  rw [cp, catOk]
  rfl

/-- A `cp` that fails changes nothing: `cat` only reads, and a refused
WriteFile changes nothing. -/
theorem cp_error_keeps (src dst : List Char) {msg : List Char} (failed : (cp (some s) src dst).1 = .error msg) :
    (cp (some s) src dst).2 = some s := by
  cases read : FSResponse.fileData? (readFile s src) with
  | none =>
    obtain ⟨msg', catError⟩ := expect_eq_error read
    have catFails : cat (some s) src = (.error msg', some s) := by
      rw [cat_some, catError]
    rw [cp, catFails]
  | some data =>
    rw [cp_of_read s (fileData?_eq_some.mp read)] at failed ⊢
    rcases writeFile_local s dst data with ⟨-, same⟩ | ⟨accepted, -⟩
    · rw [same]
    · rw [accepted] at failed
      cases failed

/-- `mv` once `cp` has succeeded. -/
theorem mv_of_cp_ok {src dst : List Char} {s' : VfsState} (copied : cp (some s) src dst = (.ok (), some s')) :
    mv (some s) src dst = (expect FSResponse.success? (delete s' src).1, some (delete s' src).2) := by
  rw [mv, copied]
  rfl

/-- `mv` answers `Ok` only when each of its three requests was accepted:
`cat` read the source, WriteFile took the bytes at the destination, and
Delete removed the source. -/
theorem mv_ok_cases {src dst : List Char} (moved : (mv (some s) src dst).1 = .ok ()) :
    ∃ data, readFile s src = .fileData data ∧ (writeFile s dst data).1 = .success ∧
      (delete (writeFile s dst data).2 src).1 = .success ∧
      mv (some s) src dst = (.ok (), some (delete (writeFile s dst data).2 src).2) := by
  cases read : FSResponse.fileData? (readFile s src) with
  | none =>
    obtain ⟨msg, catError⟩ := expect_eq_error read
    have catFails : cat (some s) src = (.error msg, some s) := by
      rw [cat_some, catError]
    rw [mv, cp, catFails] at moved
    cases moved
  | some data =>
    have read := fileData?_eq_some.mp read
    cases writeAnswer : expect FSResponse.success? (writeFile s dst data).1 with
    | error msg =>
      rw [mv, cp_of_read s read, writeAnswer] at moved
      cases moved
    | ok u =>
      have copied : cp (some s) src dst = (.ok (), some (writeFile s dst data).2) := by
        rw [cp_of_read s read, writeAnswer]
      rw [mv_of_cp_ok s copied] at moved ⊢
      have removed := success?_eq_some.mp (expect_eq_ok.mp moved)
      refine ⟨data, read, success?_eq_some.mp (expect_eq_ok.mp writeAnswer), removed, ?_⟩
      rw [removed]
      rfl

end

/-! ## The target of a path -/

/-- Every handler resolves the walk of the target. -/
theorem resolvePath_target (root : VNode) (cwd path : List Char) :
    resolvePath root (normalizePath (joinCwd cwd path)) = root.walk (target cwd path) := by
  rw [resolvePath_eq_walk, components_normalizePath]
  rfl

/-- The node at `parent ++ [name]` is the child of the node at `parent`. -/
theorem walk_concat {root dir : VNode} {parent : List (List Char)} (found : root.walk parent = some dir)
    (name : List Char) : root.walk (parent ++ [name]) = dir.child? name := by
  rw [VNode.walk_append, found, Option.bind_some, VNode.walk_cons]
  cases dir.child? name <;> rfl

/-- ReadFile of a regular file at the target. -/
theorem readFile_of_walk {s : VfsState} {path : List Char} {file : VNode}
    (found : s.root.walk (target s.currentDir path) = some file) (regular : file.fileType = .regular) :
    readFile s path = .fileData (file.data.getD []) := by
  unfold readFile
  rw [resolvePath_target, found]
  simp only [regular]

/-- ReadFile of a target that does not resolve. -/
theorem readFile_of_walk_eq_none {s : VfsState} {path : List Char}
    (missing : s.root.walk (target s.currentDir path) = none) :
    readFile s path = .error ("File not found: ".toList ++ path) := by
  unfold readFile
  rw [resolvePath_target, missing]

/-- After an edit at `parent`, the walk to `parent` finds the edited node. -/
theorem walk_updateAt_self (f : VNode → VNode) {root dir : VNode} {parent : List (List Char)}
    (found : root.walk parent = some dir) : (root.updateAt f parent).walk parent = some (f dir) := by
  have edited := VNode.walk_updateAt_append f found []
  rwa [List.append_nil, VNode.walk_nil] at edited

/-! ## CreateDir -/

/-- CreateDir whose target's parent is a directory that already has an
entry under the name, of whatever type: a success that changes nothing,
and the target is that entry. -/
theorem createDir_keeps_entry (s : VfsState) (p : List Char) {parent : List (List Char)} {name : List Char}
    {dir node : VNode} (split : target s.currentDir p = parent ++ [name]) (found : s.root.walk parent = some dir)
    (isDir : dir.fileType = .directory) (present : dir.child? name = some node) :
    process s (.createDir p) = (.success, s) ∧
      resolvePath s.root (normalizePath (joinCwd s.currentDir p)) = some node := by
  have kept : s.root.updateAt (·.entryOrInsert name (VNode.newDir name)) parent = s.root := by
    apply VNode.updateAt_eq_self
    intro reached reachedAt
    rw [found, Option.some_inj] at reachedAt
    subst reachedAt
    exact VNode.entryOrInsert_of_child?_eq_some _ present
  refine ⟨?_, ?_⟩
  · show createDir s p = (.success, s)
    rw [createDir_of_target_eq_concat s p split, found]
    simp only [isDir, ne_eq, not_true_eq_false, if_false, kept]
  · rw [resolvePath_target, split, walk_concat found, present]

theorem createDir_keeps_entry_at_hostname :
    target (VfsState.init []).currentDir "/etc/hostname".toList = ["etc".toList] ++ ["hostname".toList] ∧
      process (VfsState.init []) (.createDir "/etc/hostname".toList) = (.success, VfsState.init []) ∧
      resolvePath (VfsState.init []).root (normalizePath (joinCwd (VfsState.init []).currentDir "/etc/hostname".toList)) =
        some (VNode.newFile "hostname".toList (Text.encode "ospabOS\n".toList)) ∧
      (VNode.newFile "hostname".toList (Text.encode "ospabOS\n".toList)).fileType = .regular :=
  have kept := createDir_keeps_entry (VfsState.init []) "/etc/hostname".toList rfl rfl rfl rfl
  ⟨rfl, kept.1, kept.2, rfl⟩

/-- A successful CreateDir leaves a node at its target (the root, for the
root): a new directory, unless the entry was there before. -/
theorem createDir_success_resolves (s : VfsState) (p : List Char) (accepted : (process s (.createDir p)).1 = .success) :
    ∃ node, resolvePath (process s (.createDir p)).2.root (normalizePath (joinCwd s.currentDir p)) = some node ∧
      (node.fileType = .directory ∨ resolvePath s.root (normalizePath (joinCwd s.currentDir p)) = some node) := by
  change ∃ node, resolvePath (createDir s p).2.root _ = some node ∧ _
  change (createDir s p).1 = .success at accepted
  rw [resolvePath_target, resolvePath_target]
  rcases List.eq_nil_or_concat (target s.currentDir p) with empty | ⟨parent, name, split⟩
  · -- the root itself: nothing changes, and the root resolves to itself
    rw [createDir_of_target_eq_nil s p empty, empty]
    exact ⟨s.root, rfl, .inr rfl⟩
  · rw [List.concat_eq_append] at split
    rw [createDir_of_target_eq_concat s p split] at accepted ⊢
    rw [split]
    cases found : s.root.walk parent with
    | none => simp [found] at accepted
    | some dir =>
      by_cases isDir : dir.fileType = .directory
      · simp only [isDir, ne_eq, not_true_eq_false, if_false]
        rw [walk_concat (walk_updateAt_self _ found), VNode.child?_entryOrInsert_self, walk_concat found]
        cases present : dir.child? name with
        | none => exact ⟨VNode.newDir name, rfl, .inl rfl⟩
        | some node => exact ⟨node, rfl, .inr rfl⟩
      · simp [found, isDir] at accepted

/-- CreateDir twice is CreateDir once: the same answer, and the second
changes nothing. -/
theorem createDir_twice (s : VfsState) (p : List Char) :
    process (process s (.createDir p)).2 (.createDir p) = ((process s (.createDir p)).1, (process s (.createDir p)).2) := by
  show createDir (createDir s p).2 p = ((createDir s p).1, (createDir s p).2)
  rcases List.eq_nil_or_concat (target s.currentDir p) with empty | ⟨parent, name, split⟩
  · rw [createDir_of_target_eq_nil s p empty, createDir_of_target_eq_nil s p empty]
  · rw [List.concat_eq_append] at split
    rw [createDir_of_target_eq_concat s p split]
    cases found : s.root.walk parent with
    | none => simp only [createDir_of_target_eq_concat s p split, found]
    | some dir =>
      by_cases isDir : dir.fileType = .directory
      · simp only [isDir, ne_eq, not_true_eq_false, if_false]
        -- the second request finds the entry the first left and keeps it
        let made : VfsState := { s with root := s.root.updateAt (·.entryOrInsert name (VNode.newDir name)) parent }
        have parentAfter := walk_updateAt_self (·.entryOrInsert name (VNode.newDir name)) found
        have present := VNode.child?_entryOrInsert_self name (VNode.newDir name) dir
        exact (createDir_keeps_entry made p split parentAfter isDir present).1
      · simp only [createDir_of_target_eq_concat s p split, found, isDir, ne_eq, not_false_eq_true, if_true]

/-! ## `mv` -/

/-- `mv` of a regular file onto its own target, under whatever spelling:
`cat` reads the file, WriteFile puts it back, Delete removes it, `mv`
answers `Ok`, and the destination no longer reads. -/
theorem mv_onto_itself_loses_file (s : VfsState) (src dst : List Char) {parent : List (List Char)}
    {name : List Char} {dir file : VNode} (split : target s.currentDir src = parent ++ [name])
    (same : target s.currentDir dst = target s.currentDir src) (found : s.root.walk parent = some dir)
    (isDir : dir.fileType = .directory) (present : dir.child? name = some file) (regular : file.fileType = .regular) :
    (cat (some s) src).1 = .ok (file.data.getD []) ∧ (mv (some s) src dst).1 = .ok () ∧
      (processRequest (mv (some s) src dst).2 (.readFile dst)).1 = .error ("File not found: ".toList ++ dst) := by
  have read : readFile s src = .fileData (file.data.getD []) := by
    apply readFile_of_walk _ regular
    rw [split, walk_concat found, present]
  have write : writeFile s dst (file.data.getD []) =
      (.success, { s with root := s.root.updateAt (·.insertChild name (VNode.newFile name (file.data.getD []))) parent }) := by
    rw [writeFile_of_target_eq_concat s dst _ (same.trans split), found]
    simp only [isDir, ne_eq, not_true_eq_false, if_false]
  -- the file WriteFile just put under `name` is what Delete removes
  have parentAfter := walk_updateAt_self (·.insertChild name (VNode.newFile name (file.data.getD []))) found
  generalize s.root.updateAt (·.insertChild name (VNode.newFile name (file.data.getD []))) parent = root₁
    at write parentAfter
  have stillDir : (dir.insertChild name (VNode.newFile name (file.data.getD []))).fileType = .directory := isDir
  have remove : delete { s with root := root₁ } src =
      (.success, { s with root := root₁.updateAt (·.removeChild name) parent }) := by
    rw [delete_of_target_eq_concat { s with root := root₁ } src split, parentAfter]
    simp only [stillDir, ne_eq, not_true_eq_false, if_false, VNode.child?_insertChild_self]
  have moved : mv (some s) src dst = (.ok (), some { s with root := root₁.updateAt (·.removeChild name) parent }) := by
    rw [mv_of_cp_ok s (by rw [cp_of_read s read, write]; rfl), remove]
    rfl
  refine ⟨by rw [cat_some, read]; rfl, by rw [moved], ?_⟩
  rw [moved]
  apply readFile_of_walk_eq_none
  rw [same, split]
  exact walk_removeChild_below _ parentAfter []

theorem mv_onto_itself_loses_hostname :
    let s := VfsState.init []
    let path := "/etc/hostname".toList
    let hostname := VNode.newFile "hostname".toList (Text.encode "ospabOS\n".toList)
    target s.currentDir path = ["etc".toList] ++ ["hostname".toList] ∧ hostname.fileType = .regular ∧
      (cat (some s) path).1 = .ok (hostname.data.getD []) ∧ (mv (some s) path path).1 = .ok () ∧
      (processRequest (mv (some s) path path).2 (.readFile path)).1 = .error ("File not found: ".toList ++ path) :=
  ⟨rfl, rfl, mv_onto_itself_loses_file (VfsState.init []) "/etc/hostname".toList "/etc/hostname".toList
    rfl rfl rfl rfl rfl rfl⟩

/-- `mv` of a regular file onto the directory that holds it: WriteFile
replaces the directory by a file, and Delete then finds no directory
above the source: `mv` fails with the tree changed. -/
theorem mv_into_parent_replaces_it (s : VfsState) (src dst : List Char) {grand : List (List Char)}
    {dirName name : List Char} {up dir file : VNode}
    (dstSplit : target s.currentDir dst = grand ++ [dirName])
    (srcSplit : target s.currentDir src = grand ++ [dirName] ++ [name])
    (foundUp : s.root.walk grand = some up) (upDir : up.fileType = .directory)
    (foundDir : up.child? dirName = some dir) (isDir : dir.fileType = .directory)
    (present : dir.child? name = some file) (regular : file.fileType = .regular) :
    (mv (some s) src dst).1 = .error "Not a directory".toList ∧
      ∃ s', (mv (some s) src dst).2 = some s' ∧
        (resolvePath s'.root (normalizePath (joinCwd s'.currentDir dst))).map VNode.fileType = some .regular ∧
        (resolvePath s.root (normalizePath (joinCwd s.currentDir dst))).map VNode.fileType = some .directory := by
  have dirAt : s.root.walk (grand ++ [dirName]) = some dir := by
    rw [walk_concat foundUp, foundDir]
  have read : readFile s src = .fileData (file.data.getD []) := by
    apply readFile_of_walk _ regular
    rw [srcSplit, walk_concat dirAt, present]
  have write : writeFile s dst (file.data.getD []) =
      (.success, { s with root := s.root.updateAt (·.insertChild dirName (VNode.newFile dirName (file.data.getD []))) grand }) := by
    rw [writeFile_of_target_eq_concat s dst _ dstSplit, foundUp]
    simp only [upDir, ne_eq, not_true_eq_false, if_false]
  -- the directory above the source is now the file WriteFile wrote
  have replaced : (s.root.updateAt (·.insertChild dirName (VNode.newFile dirName (file.data.getD []))) grand).walk
      (grand ++ [dirName]) = some (VNode.newFile dirName (file.data.getD [])) := by
    rw [walk_concat (walk_updateAt_self _ foundUp), VNode.child?_insertChild_self]
  generalize s.root.updateAt (·.insertChild dirName (VNode.newFile dirName (file.data.getD []))) grand = root₁
    at write replaced
  have refused : delete { s with root := root₁ } src = (.error "Not a directory".toList, { s with root := root₁ }) := by
    rw [delete_of_target_eq_concat { s with root := root₁ } src srcSplit, replaced]
    rfl
  have moved : mv (some s) src dst = (.error "Not a directory".toList, some { s with root := root₁ }) := by
    rw [mv_of_cp_ok s (by rw [cp_of_read s read, write]; rfl), refused]
    rfl
  refine ⟨by rw [moved], _, by rw [moved], ?_, ?_⟩
  · rw [resolvePath_target]
    show (root₁.walk (target s.currentDir dst)).map VNode.fileType = _
    rw [dstSplit, replaced]
    rfl
  · rw [resolvePath_target, dstSplit, dirAt]
    exact congrArg some isDir

/-- ReadFile reads the tree only through the target's walk. -/
theorem readFile_congr {s s' : VfsState} (path : List Char) (cwd : s'.currentDir = s.currentDir)
    (same : resolvePath s'.root (normalizePath (joinCwd s.currentDir path)) =
      resolvePath s.root (normalizePath (joinCwd s.currentDir path))) :
    readFile s' path = readFile s path := by
  unfold readFile
  rw [cwd, same]

/-- `mv` between targets neither of which lies on the other's path: when
it answers `Ok`, the destination reads the bytes `cat` read from the
source. -/
theorem mv_moves_when_apart (s : VfsState) (src dst : List Char)
    (apart : ¬ target s.currentDir src <+: target s.currentDir dst ∧
      ¬ target s.currentDir dst <+: target s.currentDir src)
    (moved : (mv (some s) src dst).1 = .ok ()) :
    ∃ data, (cat (some s) src).1 = .ok data ∧
      (processRequest (mv (some s) src dst).2 (.readFile dst)).1 = .fileData data := by
  obtain ⟨data, read, written, removed, result⟩ := mv_ok_cases s moved
  refine ⟨data, by rw [cat_some, read]; rfl, ?_⟩
  rw [result]
  have cwd₁ : (writeFile s dst data).2.currentDir = s.currentDir := by
    rcases writeFile_local s dst data with ⟨-, same⟩ | ⟨-, cwd, -, -⟩
    · rw [same]
    · exact cwd
  have readBack : readFile (writeFile s dst data).2 dst = .fileData data := readFile_writeFile s dst data written
  -- the accepted Delete left everything off the source's path alone
  rcases delete_local (writeFile s dst data).2 src with ⟨refused, -⟩ | ⟨-, cwd₂, unchanged, -⟩
  · rw [removed] at refused
    cases refused
  · show readFile (delete (writeFile s dst data).2 src).2 dst = .fileData data
    rw [← readBack]
    apply readFile_congr dst cwd₂
    have away := unchanged (normalizePath (joinCwd (writeFile s dst data).2.currentDir dst))
    rw [components_normalizePath, cwd₁] at away
    rw [cwd₁]
    exact away apart.1 apart.2

end OspabOs.Coreutils
