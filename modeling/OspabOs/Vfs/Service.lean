import Mathlib
import OspabOs.Lib.Machine
import OspabOs.Vfs.Node
import OspabOs.Vfs.Path
import OspabOs.Vfs.Tar

/-!
# The VFS service

`VFSService` (`services/vfs.rs`) is a tree behind one lock and a current
directory behind another. `VFSService::init` builds the Unix-like
skeleton (`/bin`, `/etc`, `/home/user`, `/tmp`, `/dev`, `/usr/bin`,
`/var/log`) and then loads each Limine module into it: a `.tar` module is
unpacked entry by entry, any other module becomes a file at the root
under its file name. After that the tree changes only through
`VFSService::process`, one `FSRequest` at a time; `VfsState.step` is
that, and a run of the service is a `List.foldl` of it.

Each arm of `process` is a definition of its own. ReadFile, WriteFile,
CreateDir and Delete each write out the same relative-path join
(`joinCwd`); the three mutating arms then trim the normalized path, split
off its last component and look the parent up with `resolve_path_mut`,
each with its own checks and its own edit.

`target cwd path`, the stack `normalize_path` builds for the cwd-joined
path, is what every handler ends up walking; the spec lemmas
(`writeFile_of_target_eq_nil`, `writeFile_of_target_eq_concat`, and so
on) say what each mutating arm does in terms of it, and the proofs about
the service cite them instead of unfolding the arms.
-/

namespace OspabOs.Vfs

open OspabOs.Text

/-- `FSRequest`. -/
inductive FSRequest where
  | listDir (path : List Char)
  | readFile (path : List Char)
  | writeFile (path : List Char) (data : List UInt8)
  | createDir (path : List Char)
  | delete (path : List Char)
  | changeDir (path : List Char)
  | getCwd

/-- `FSResponse`. -/
inductive FSResponse where
  | dirListing (names : List (List Char))
  | fileData (data : List UInt8)
  | success
  | error (message : List Char)
  | cwd (path : List Char)
  deriving DecidableEq

/-- Whether a response is an `FSResponse::Error`. -/
def FSResponse.isError : FSResponse → Bool
  | .error _ => true
  | _ => false

/-- The service's two locked cells: the tree and `current_dir`. -/
structure VfsState where
  root : VNode
  currentDir : List Char

/-- `VFSService::resolve_path`: the root for `"/"`, else a walk of the
path's components. -/
def resolvePath (root : VNode) (path : List Char) : Option VNode :=
  if path = ['/'] then some root else root.walk (components path)

/-- The components every handler walks for `path` from `cwd`: the stack of
`normalize_path` on the cwd-joined path. -/
def target (cwd path : List Char) : List (List Char) :=
  normalizeParts (joinCwd cwd path)

/-! ## The request handlers -/

/-- `names.sort()` on the keys of a children map: a `BTreeMap`'s keys are
distinct, so every sorting algorithm gives the same list. -/
def sortNames (names : List (List Char)) : List (List Char) :=
  names.insertionSort (· ≤ ·)

/-- `FSRequest::ListDir`: `"."` and `""` list the current directory. -/
def listDir (s : VfsState) (path : List Char) : FSResponse :=
  let resolved := if path = ['.'] || path.isEmpty then s.currentDir else joinCwd s.currentDir path
  match resolvePath s.root (normalizePath resolved) with
  | some node =>
    if node.fileType = .directory then
      match node.children with
      | some children => .dirListing (sortNames (KeyMap.keys children))
      | none => .dirListing []
    else .error "Not a directory".toList
  | none => .error "Directory not found".toList

/-- `FSRequest::ReadFile`. -/
def readFile (s : VfsState) (path : List Char) : FSResponse :=
  match resolvePath s.root (normalizePath (joinCwd s.currentDir path)) with
  | some node =>
    match node.fileType with
    | .regular => .fileData (node.data.getD [])
    | .device => .fileData (encode "<device file>".toList)
    | _ => .error "Cannot read this file type".toList
  | none => .error ("File not found: ".toList ++ path)

/-- `resolve_path.trim_start_matches('/')` in the mutating handlers. -/
def cleanTarget (cwd path : List Char) : List Char :=
  (normalizePath (joinCwd cwd path)).dropWhile (· == '/')

/-- `clean.split('/').filter(|s| !s.is_empty())`. -/
def splitComponents (clean : List Char) : List (List Char) :=
  (clean.splitOn '/').filter (!·.isEmpty)

/-- The parent lookup of the mutating handlers: the root itself when there
are no parent parts, else `resolve_path_mut`. -/
def findParent (root : VNode) (parentParts : List (List Char)) : Option VNode :=
  if parentParts.isEmpty then some root else root.walk parentParts

/-- `FSRequest::WriteFile`: replace or create the file under its parent
directory. -/
def writeFile (s : VfsState) (path : List Char) (data : List UInt8) : FSResponse × VfsState :=
  let clean := cleanTarget s.currentDir path
  if clean.isEmpty then (.error "Invalid path".toList, s)
  else
    let comps := splitComponents clean
    if comps.isEmpty then (.error "Invalid path".toList, s)
    else
      -- `components.split_at(components.len() - 1)`, then `name[0]`
      let parentParts := comps.dropLast
      let name := comps.getLastD []
      match findParent s.root parentParts with
      | none => (.error "Directory not found".toList, s)
      | some parent =>
        if parent.fileType ≠ .directory then (.error "Not a directory".toList, s)
        else
          (.success,
            { s with root := s.root.updateAt (·.insertChild name (VNode.newFile name data)) parentParts })

/-- `FSRequest::CreateDir`: an entry already under the name, of any type,
is kept, and the root is a success. -/
def createDir (s : VfsState) (path : List Char) : FSResponse × VfsState :=
  let clean := cleanTarget s.currentDir path
  if clean.isEmpty then (.success, s)
  else
    -- no emptiness check here: the components of a non-empty normalized
    -- path are never empty (`splitComponents_cleanTarget`), so `split_at`
    -- cannot panic and `getLastD`'s default is never used
    let comps := splitComponents clean
    let parentParts := comps.dropLast
    let name := comps.getLastD []
    match findParent s.root parentParts with
    | none => (.error "Directory not found".toList, s)
    | some parent =>
      if parent.fileType ≠ .directory then (.error "Not a directory".toList, s)
      else
        (.success,
          { s with root := s.root.updateAt (·.entryOrInsert name (VNode.newDir name)) parentParts })

/-- `FSRequest::Delete`: remove the entry, directory or not, with its
subtree. -/
def delete (s : VfsState) (path : List Char) : FSResponse × VfsState :=
  let clean := cleanTarget s.currentDir path
  if clean.isEmpty then (.error "Invalid path".toList, s)
  else
    let comps := splitComponents clean
    let parentParts := comps.dropLast
    let name := comps.getLastD []
    match findParent s.root parentParts with
    | none => (.error "Directory not found".toList, s)
    | some parent =>
      if parent.fileType ≠ .directory then (.error "Not a directory".toList, s)
      else
        -- `children.remove(name[0]).is_some()`; a failed removal changes nothing
        match parent.child? name with
        | some _ => (.success, { s with root := s.root.updateAt (·.removeChild name) parentParts })
        | none => (.error "Not found".toList, s)

/-- The `..` branch of ChangeDir: drop the cwd's last component. -/
def parentDir (cwd : List Char) : List Char :=
  if cwd = ['/'] then ['/']
  else formatParts ((cwd.splitOn '/').filter (!·.isEmpty)).dropLast

/-- The path ChangeDir resolves, before normalizing it. -/
def changeDirPath (cwd path : List Char) : List Char :=
  if path.head? = some '/' then path
  else if path = ['.', '.'] then parentDir cwd
  else if path = ['.'] then cwd
  else if cwd = ['/'] then '/' :: path
  else cwd ++ '/' :: path

/-- `FSRequest::ChangeDir`: `..` and `.` have branches of their own; the
new directory must resolve to a directory. -/
def changeDir (s : VfsState) (path : List Char) : FSResponse × VfsState :=
  let resolved := normalizePath (changeDirPath s.currentDir path)
  match resolvePath s.root resolved with
  | some node =>
    if node.fileType = .directory then (.success, { s with currentDir := resolved })
    else (.error "Not a directory".toList, s)
  | none => (.error "Directory not found".toList, s)

/-- `VFSService::process`. -/
def process (s : VfsState) : FSRequest → FSResponse × VfsState
  | .listDir path => (listDir s path, s)
  | .readFile path => (readFile s path, s)
  | .writeFile path data => writeFile s path data
  | .createDir path => createDir s path
  | .delete path => delete s path
  | .changeDir path => changeDir s path
  | .getCwd => (.cwd s.currentDir, s)

/-- One request, as a step of the service seen as a machine. -/
def VfsState.step (s : VfsState) (request : FSRequest) : VfsState :=
  (process s request).2

/-! ## `VFSService::init` -/

/-- A Limine module: the bytes of its path C string (`none` for a null
pointer) and its contents. -/
structure LimineModule where
  path : Option (List UInt8)
  data : List UInt8

/-- `insert_components`: create what is missing along the path, then put
the entry in place. A file replaces whatever is under its name; a
directory keeps what is there. An existing node on the way, of WHATEVER
type, is walked into and given a children map. -/
def insertComponents (node : VNode) : List (List Char) → Option (List UInt8) → Bool → VNode
  | [], _, _ => node
  | [name], data, isDir =>
    if isDir then node.entryOrInsert name (VNode.newDir name)
    else node.insertChild name (VNode.newFile name (data.getD []))
  | name :: rest, data, isDir =>
    let children := node.children.getD []
    match KeyMap.get? name children with
    | some _ =>
      { node with children := some (KeyMap.modify name (insertComponents · rest data isDir) children) }
    | none =>
      { node with
        children := some (KeyMap.insert name (insertComponents (VNode.newDir name) rest data isDir) children) }

/-- `insert_path`: leading slashes, then leading `./`, are trimmed, and
the non-empty components inserted. `.` and `..` are NOT interpreted. -/
def insertPath (root : VNode) (path : List Char) (data : Option (List UInt8)) (isDir : Bool) : VNode :=
  let clean := trimStartMatchesStr "./".toList (path.dropWhile (· == '/'))
  if clean.isEmpty then root
  else insertComponents root ((clean.splitOn '/').filter (!·.isEmpty)) data isDir

/-- One module of `VFSService::init`'s loop: a null or non-UTF-8 path is
skipped; a file name ending in `.tar` is unpacked; anything else becomes a
root file under its file name. -/
def loadModule (root : VNode) (module : LimineModule) : VNode :=
  match module.path with
  | none => root
  | some bytes =>
    match fromUtf8 bytes with
    | none => root
    | some path =>
      let filename := afterLast '/' path
      if ".tar".toList.isSuffixOf filename then
        (parseTar module.data).foldl (fun root entry => insertPath root entry.path (some entry.data) entry.isDir) root
      else insertPath root filename (some module.data) false

/-- A directory with the given entries, inserted in order. -/
def dirWith (name : List Char) (entries : List (List Char × VNode)) : VNode :=
  { VNode.newDir name with children := some (entries.foldl (fun m e => KeyMap.insert e.1 e.2 m) []) }

/-- The skeleton `VFSService::init` builds before loading modules. -/
def skeleton : VNode :=
  dirWith "/".toList [
    ("bin".toList, dirWith "bin".toList [
      ("ls".toList, VNode.newFile "ls".toList (encode "List directory contents".toList)),
      ("cat".toList, VNode.newFile "cat".toList (encode "Concatenate files".toList)),
      ("grape".toList, VNode.newFile "grape".toList (encode "Grape text editor".toList))]),
    ("etc".toList, dirWith "etc".toList [
      ("hostname".toList, VNode.newFile "hostname".toList (encode "ospabOS\n".toList)),
      ("os-release".toList, VNode.newFile "os-release".toList (encode
        "NAME=\"ospabOS\"\nVERSION=\"0.1.0\"\nID=ospab\nPRETTY_NAME=\"ospabOS 0.1.0 Foundation\"\n".toList))]),
    ("home".toList, dirWith "home".toList [("user".toList, dirWith "user".toList [])]),
    ("tmp".toList, dirWith "tmp".toList []),
    ("dev".toList, dirWith "dev".toList [
      ("null".toList, VNode.newDevice "null".toList 0),
      ("zero".toList, VNode.newDevice "zero".toList 1),
      ("keyboard".toList, VNode.newDevice "keyboard".toList 2),
      ("framebuffer".toList, VNode.newDevice "framebuffer".toList 3),
      ("serial".toList, VNode.newDevice "serial".toList 4)]),
    ("usr".toList, dirWith "usr".toList [("bin".toList, dirWith "bin".toList [])]),
    ("var".toList, dirWith "var".toList [("log".toList, dirWith "log".toList [])])]

/-- `VFSService::init` with the modules Limine handed over. -/
def VfsState.init (modules : List LimineModule) : VfsState :=
  { root := modules.foldl loadModule skeleton, currentDir := ['/'] }

/-! ## What the handlers walk -/

/-- `resolve_path`'s special case for `"/"` agrees with the walk. -/
theorem resolvePath_eq_walk (root : VNode) (path : List Char) :
    resolvePath root path = root.walk (components path) := by
  unfold resolvePath
  split_ifs with slash
  · subst slash
    rfl
  · rfl

/-- The mutating handlers split the normalized target into its stack. -/
theorem splitComponents_cleanTarget (cwd path : List Char) :
    splitComponents (cleanTarget cwd path) = target cwd path :=
  components_normalizePath (joinCwd cwd path)

/-- The trimmed target is empty exactly when the stack is. -/
theorem cleanTarget_isEmpty (cwd path : List Char) :
    (cleanTarget cwd path).isEmpty = (target cwd path).isEmpty := by
  have normal := normalizeParts_normal (joinCwd cwd path)
  unfold cleanTarget normalizePath target
  generalize normalizeParts (joinCwd cwd path) = parts at normal ⊢
  cases parts with
  | nil => rfl
  | cons first rest =>
    obtain ⟨nonempty, -, -, -⟩ := normal first List.mem_cons_self
    have printed := intercalate_dropWhile_slash normal
    simp only [formatParts, List.isEmpty_cons, Bool.false_eq_true, if_false, List.dropWhile_cons,
      beq_self_eq_true, if_true, printed]
    cases rest with
    | nil => simpa using nonempty
    | cons second more => simp [List.intercalate_cons_cons, nonempty]

theorem findParent_eq_walk (root : VNode) (parentParts : List (List Char)) :
    findParent root parentParts = root.walk parentParts := by
  unfold findParent
  split_ifs with empty
  · rw [List.isEmpty_iff.mp empty]
    rfl
  · rfl

/-! ## Spec lemmas of the mutating handlers -/

section Spec

variable (s : VfsState) (path : List Char)

/-- WriteFile at the root itself: refused. -/
theorem writeFile_of_target_eq_nil (data : List UInt8) (empty : target s.currentDir path = []) :
    writeFile s path data = (.error "Invalid path".toList, s) := by
  have clean : (cleanTarget s.currentDir path).isEmpty = true := by
    rw [cleanTarget_isEmpty, empty]
    rfl
  simp only [writeFile, clean, if_true]

/-- WriteFile below a parent: refused unless the parent is a directory,
else the file is put under its name. -/
theorem writeFile_of_target_eq_concat (data : List UInt8) {parent : List (List Char)}
    {name : List Char} (split : target s.currentDir path = parent ++ [name]) :
    writeFile s path data =
      match s.root.walk parent with
      | none => (.error "Directory not found".toList, s)
      | some p =>
        if p.fileType ≠ .directory then (.error "Not a directory".toList, s)
        else (.success, { s with root := s.root.updateAt (·.insertChild name (VNode.newFile name data)) parent }) := by
  have clean : (cleanTarget s.currentDir path).isEmpty = false := by
    rw [cleanTarget_isEmpty, split]
    simp
  have comps : (parent ++ [name]).isEmpty = false := by simp
  simp only [writeFile, clean, Bool.false_eq_true, if_false, splitComponents_cleanTarget, split,
    comps, List.dropLast_concat, List.getLastD_eq_getLast?, List.getLast?_concat, Option.getD_some,
    findParent_eq_walk]

/-- CreateDir at the root itself: a success that changes nothing. -/
theorem createDir_of_target_eq_nil (empty : target s.currentDir path = []) :
    createDir s path = (.success, s) := by
  have clean : (cleanTarget s.currentDir path).isEmpty = true := by
    rw [cleanTarget_isEmpty, empty]
    rfl
  simp only [createDir, clean, if_true]

/-- CreateDir below a parent: refused unless the parent is a directory,
else a directory is made under the name unless something is there. -/
theorem createDir_of_target_eq_concat {parent : List (List Char)} {name : List Char}
    (split : target s.currentDir path = parent ++ [name]) :
    createDir s path =
      match s.root.walk parent with
      | none => (.error "Directory not found".toList, s)
      | some p =>
        if p.fileType ≠ .directory then (.error "Not a directory".toList, s)
        else (.success, { s with root := s.root.updateAt (·.entryOrInsert name (VNode.newDir name)) parent }) := by
  have clean : (cleanTarget s.currentDir path).isEmpty = false := by
    rw [cleanTarget_isEmpty, split]
    simp
  simp only [createDir, clean, Bool.false_eq_true, if_false, splitComponents_cleanTarget, split,
    List.dropLast_concat, List.getLastD_eq_getLast?, List.getLast?_concat, Option.getD_some,
    findParent_eq_walk]

/-- Delete of the root itself: refused. -/
theorem delete_of_target_eq_nil (empty : target s.currentDir path = []) :
    delete s path = (.error "Invalid path".toList, s) := by
  have clean : (cleanTarget s.currentDir path).isEmpty = true := by
    rw [cleanTarget_isEmpty, empty]
    rfl
  simp only [delete, clean, if_true]

/-- Delete below a parent: refused unless the parent is a directory that
has the entry, else the entry goes, with its subtree. -/
theorem delete_of_target_eq_concat {parent : List (List Char)} {name : List Char}
    (split : target s.currentDir path = parent ++ [name]) :
    delete s path =
      match s.root.walk parent with
      | none => (.error "Directory not found".toList, s)
      | some p =>
        if p.fileType ≠ .directory then (.error "Not a directory".toList, s)
        else
          match p.child? name with
          | some _ => (.success, { s with root := s.root.updateAt (·.removeChild name) parent })
          | none => (.error "Not found".toList, s) := by
  have clean : (cleanTarget s.currentDir path).isEmpty = false := by
    rw [cleanTarget_isEmpty, split]
    simp
  simp only [delete, clean, Bool.false_eq_true, if_false, splitComponents_cleanTarget, split,
    List.dropLast_concat, List.getLastD_eq_getLast?, List.getLast?_concat, Option.getD_some,
    findParent_eq_walk]

/-- ChangeDir refuses and changes nothing, or stores a normalized path
that resolves to a directory and changes nothing else. -/
theorem changeDir_cases :
    (changeDir s path).2 = s ∨
      ∃ node, (changeDir s path).2 = { s with currentDir := normalizePath (changeDirPath s.currentDir path) } ∧
        resolvePath s.root (normalizePath (changeDirPath s.currentDir path)) = some node ∧
        node.fileType = .directory := by
  dsimp only [changeDir]
  cases found : resolvePath s.root (normalizePath (changeDirPath s.currentDir path)) with
  | none => exact .inl rfl
  | some node =>
    by_cases dir : node.fileType = .directory
    · exact .inr ⟨node, by simp only [dir, if_true], rfl, dir⟩
    · exact .inl (by simp only [dir, if_false])

end Spec

/-! ## What the loader keeps -/

/-- `insert_components` edits the node's children only. -/
theorem fileType_insertComponents (node : VNode) (comps : List (List Char))
    (data : Option (List UInt8)) (isDir : Bool) :
    (insertComponents node comps data isDir).fileType = node.fileType := by
  match comps with
  | [] => rfl
  | [name] =>
    unfold insertComponents
    split_ifs <;> rfl
  | name :: next :: rest =>
    dsimp only [insertComponents]
    split <;> rfl

/-- `insert_path` keeps the type of the root. -/
theorem fileType_insertPath (root : VNode) (path : List Char) (data : Option (List UInt8))
    (isDir : Bool) : (insertPath root path data isDir).fileType = root.fileType := by
  dsimp only [insertPath]
  split_ifs
  · rfl
  · exact fileType_insertComponents _ _ _ _

/-- Loading a module keeps the type of the root. -/
theorem fileType_loadModule (root : VNode) (module : LimineModule) :
    (loadModule root module).fileType = root.fileType := by
  unfold loadModule
  split
  · rfl
  · split
    · rfl
    · dsimp only
      split_ifs
      · exact Machine.foldl_invariant (fun (node : VNode) => node.fileType = root.fileType)
          (fun node entry same => (fileType_insertPath _ _ _ _).trans same) rfl _
      · exact fileType_insertPath _ _ _ _

/-- `insert_components` on a non-empty path leaves the node with a children
map: `get_or_insert_with` makes one first, whatever the node is. -/
theorem children_isSome_insertComponents (node : VNode) {comps : List (List Char)}
    (nonempty : comps ≠ []) (data : Option (List UInt8)) (isDir : Bool) :
    (insertComponents node comps data isDir).children.isSome := by
  match comps, nonempty with
  | [name], _ =>
    unfold insertComponents
    split_ifs <;> rfl
  | name :: next :: rest, _ =>
    dsimp only [insertComponents]
    split <;> rfl

end OspabOs.Vfs
