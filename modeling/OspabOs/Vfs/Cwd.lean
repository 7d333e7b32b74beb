import OspabOs.Vfs.Locality

/-!
# The current directory

`current_dir` changes only in ChangeDir, which stores `normalize_path` of
what it resolved, and only after checking that it resolves to a
directory. So it is always a normalized path (`normalizePath_idem`), and
ChangeDir never makes it dangle.

It can dangle all the same: Delete removes any entry, the current
directory or one of its ancestors included, and WriteFile replaces any
entry by a regular file; neither looks at `current_dir`
(`delete_cwd_leaves_it_dangling`). What holds is the invariant for the
runs that do not do this: every other request keeps the current
directory resolving to a directory, which is `step_keeps_cwdDir`, and a
run of such requests from `init` ends in a state where it still does.
CreateDir is harmless even on an ancestor of the current directory: a
present entry is kept (`createDir_of_walk_target`).
-/

namespace OspabOs.Vfs

/-- `path` resolves to a directory. -/
def DirAt (root : VNode) (path : List Char) : Prop :=
  ∃ node, resolvePath root path = some node ∧ node.fileType = .directory

/-- An accepted WriteFile or Delete whose target is the current directory
or one of its ancestors. -/
def HitsCwd (s : VfsState) : FSRequest → Prop
  | .writeFile path data =>
    (writeFile s path data).1 = .success ∧ target s.currentDir path <+: components s.currentDir
  | .delete path => (delete s path).1 = .success ∧ target s.currentDir path <+: components s.currentDir
  | _ => False

/-- A run none of whose requests hits the current directory of the state
it is applied to. -/
def KeepsCwd : VfsState → List FSRequest → Prop
  | _, [] => True
  | s, request :: rest => ¬ HitsCwd s request ∧ KeepsCwd (s.step request) rest

/-- CreateDir of an entry that is there changes nothing. -/
theorem createDir_of_walk_target (s : VfsState) (path : List Char) {node : VNode}
    (present : s.root.walk (target s.currentDir path) = some node) : (createDir s path).2 = s := by
  rcases List.eq_nil_or_concat (target s.currentDir path) with empty | ⟨parent, name, split⟩
  · rw [createDir_of_target_eq_nil s path empty]
  · rw [List.concat_eq_append] at split
    rw [split, VNode.walk_append] at present
    obtain ⟨p, found, below⟩ := Option.bind_eq_some_iff.mp present
    rw [VNode.walk_cons] at below
    obtain ⟨child, isChild, -⟩ := Option.bind_eq_some_iff.mp below
    rw [createDir_of_target_eq_concat s path split, found]
    by_cases dir : p.fileType = .directory
    · have unchanged : s.root.updateAt (·.entryOrInsert name (VNode.newDir name)) parent = s.root := by
        apply VNode.updateAt_eq_self
        intro reached reachedAt
        rw [found, Option.some_inj] at reachedAt
        subst reachedAt
        exact VNode.entryOrInsert_of_child?_eq_some _ isChild
      simp [dir, unchanged]
    · simp [dir]

/-- An accepted edit that does not hit the current directory leaves it a
directory: the frame law where the target does not lead to it, the
ancestor law where it leads to the target. -/
theorem dirAt_of_localOutcome {s : VfsState} {result : FSResponse × VfsState}
    {t : List (List Char)} (outcome : LocalOutcome s result t) (before : DirAt s.root s.currentDir)
    (notHit : result.1 = .success → ¬ t <+: components s.currentDir) :
    DirAt result.2.root result.2.currentDir := by
  rcases outcome with ⟨-, same⟩ | ⟨accepted, cwd, frame, ancestors⟩
  · rw [same]
    exact before
  · have missed := notHit accepted
    obtain ⟨node, found, dir⟩ := before
    rw [cwd]
    by_cases leads : components s.currentDir <+: t
    · have ne : components s.currentDir ≠ t := fun h => missed (h ▸ List.prefix_refl _)
      have fields := ancestors s.currentDir leads ne
      rw [found] at fields
      obtain ⟨node', found', strip⟩ := Option.map_eq_some_iff.mp fields
      refine ⟨node', found', ?_⟩
      simpa [dir] using congrArg VNode.fileType strip
    · exact ⟨node, (frame s.currentDir missed leads).trans found, dir⟩

/-- THE STEP LEMMA: a request that does not hit the current directory
keeps it resolving to a directory. -/
theorem step_keeps_cwdDir (s : VfsState) (request : FSRequest) (before : DirAt s.root s.currentDir)
    (notHit : ¬ HitsCwd s request) : DirAt (s.step request).root (s.step request).currentDir := by
  cases request with
  | listDir path => exact before
  | readFile path => exact before
  | getCwd => exact before
  | writeFile path data =>
    exact dirAt_of_localOutcome (writeFile_local s path data) before
      (fun accepted hits => notHit ⟨accepted, hits⟩)
  | delete path =>
    exact dirAt_of_localOutcome (delete_local s path) before
      (fun accepted hits => notHit ⟨accepted, hits⟩)
  | createDir path =>
    by_cases hits : target s.currentDir path <+: components s.currentDir
    · -- the target leads to the current directory, so it is there and CreateDir keeps it
      obtain ⟨rest, split⟩ := hits
      have reachable : ∃ reached, s.root.walk (target s.currentDir path) = some reached := by
        obtain ⟨node, found, -⟩ := before
        rw [resolvePath_eq_walk, ← split, VNode.walk_append] at found
        obtain ⟨reached, reachedAt, -⟩ := Option.bind_eq_some_iff.mp found
        exact ⟨reached, reachedAt⟩
      obtain ⟨reached, reachedAt⟩ := reachable
      have unchanged : (createDir s path).2 = s := createDir_of_walk_target s path reachedAt
      simpa only [VfsState.step, process, unchanged] using before
    · exact dirAt_of_localOutcome (createDir_local s path) before (fun _ => hits)
  | changeDir path =>
    rcases changeDir_cases s path with same | ⟨node, moved, found, dir⟩
    · simpa only [VfsState.step, process, same] using before
    · simp only [VfsState.step, process, moved]
      exact ⟨node, found, dir⟩

/-- Every request keeps `current_dir` normalized. -/
theorem step_keeps_cwd_normal (s : VfsState) (request : FSRequest)
    (before : normalizePath s.currentDir = s.currentDir) :
    normalizePath (s.step request).currentDir = (s.step request).currentDir := by
  cases request with
  | listDir path => exact before
  | readFile path => exact before
  | getCwd => exact before
  | writeFile path data =>
    rcases writeFile_local s path data with ⟨-, same⟩ | ⟨-, cwd, -, -⟩
    · simpa [VfsState.step, process, same] using before
    · simpa [VfsState.step, process, cwd] using before
  | delete path =>
    rcases delete_local s path with ⟨-, same⟩ | ⟨-, cwd, -, -⟩
    · simpa [VfsState.step, process, same] using before
    · simpa [VfsState.step, process, cwd] using before
  | createDir path =>
    rcases createDir_local s path with ⟨-, same⟩ | ⟨-, cwd, -, -⟩
    · simpa [VfsState.step, process, same] using before
    · simpa [VfsState.step, process, cwd] using before
  | changeDir path =>
    rcases changeDir_cases s path with same | ⟨node, moved, -, -⟩
    · simpa only [VfsState.step, process, same] using before
    · simp only [VfsState.step, process, moved]
      exact normalizePath_idem _

/-! ## Runs from `init` -/

/-- After `init`, the current directory `/` is the root, a directory. -/
theorem init_cwdDir (modules : List LimineModule) :
    DirAt (VfsState.init modules).root (VfsState.init modules).currentDir := by
  refine ⟨(VfsState.init modules).root, rfl, ?_⟩
  exact Machine.foldl_invariant (fun (node : VNode) => node.fileType = .directory)
    (fun node module dir => (fileType_loadModule node module).trans dir)
    (show skeleton.fileType = .directory from rfl) modules

/-- THE RUN LEMMA: a run that never hits the current directory keeps it
resolving to a directory. -/
theorem foldl_keeps_cwdDir (requests : List FSRequest) {s : VfsState}
    (before : DirAt s.root s.currentDir) (keeps : KeepsCwd s requests) :
    DirAt (requests.foldl VfsState.step s).root (requests.foldl VfsState.step s).currentDir := by
  induction requests generalizing s with
  | nil => exact before
  | cons request rest ih =>
    obtain ⟨notHit, later⟩ := keeps
    exact ih (step_keeps_cwdDir s request before notHit) later

/-- In every state reachable from `init`, `current_dir` is a fixed point
of `normalize_path`; and it resolves to a directory when no request of
the run removed or replaced it or one of its ancestors. -/
theorem cwd_normal_and_dir_unless_hit (modules : List LimineModule) (requests : List FSRequest) :
    normalizePath (requests.foldl VfsState.step (VfsState.init modules)).currentDir =
        (requests.foldl VfsState.step (VfsState.init modules)).currentDir ∧
      (KeepsCwd (VfsState.init modules) requests →
        DirAt (requests.foldl VfsState.step (VfsState.init modules)).root
          (requests.foldl VfsState.step (VfsState.init modules)).currentDir) :=
  ⟨Machine.foldl_invariant (fun (s : VfsState) => normalizePath s.currentDir = s.currentDir)
      step_keeps_cwd_normal rfl requests,
    foldl_keeps_cwdDir requests (init_cwdDir modules)⟩

/-- ChangeDir to `/tmp` and CreateDir of an entry below it keep the
current directory, so `/tmp` still resolves to a directory after them. -/
theorem cwd_dir_after_changeDir_tmp :
    let requests := [FSRequest.changeDir "/tmp".toList, .createDir "x".toList]
    KeepsCwd (VfsState.init []) requests ∧
      DirAt (requests.foldl VfsState.step (VfsState.init [])).root
        (requests.foldl VfsState.step (VfsState.init [])).currentDir := by
  intro requests
  have keeps : KeepsCwd (VfsState.init []) requests := by
    simp [requests, KeepsCwd, HitsCwd]
  exact ⟨keeps, (cwd_normal_and_dir_unless_hit [] requests).2 keeps⟩

/-- Deleting the current directory leaves `current_dir` naming nothing. -/
theorem delete_cwd_leaves_it_dangling :
    let s : VfsState := ((VfsState.init []).step (.changeDir "/tmp".toList)).step (.delete "/tmp".toList)
    s.currentDir = "/tmp".toList ∧ (resolvePath s.root s.currentDir).isNone = true := by
  decide

/-! ## ChangeDir's own branches for `..` and `.` -/

/-- ChangeDir reads its path only through the normalized path it resolves. -/
theorem changeDir_congr (s : VfsState) {path path' : List Char}
    (same : normalizePath (changeDirPath s.currentDir path) = normalizePath (changeDirPath s.currentDir path')) :
    changeDir s path = changeDir s path' := by
  unfold changeDir
  rw [same]

/-- ChangeDir's `..` branch from a printed stack drops its last part, as
the path `cwd/..` does. -/
theorem normalizePath_parentDir {parts : List (List Char)} (normal : ∀ p ∈ parts, NormalPart p) :
    normalizePath (parentDir (formatParts parts)) = normalizePath (formatParts parts ++ "/..".toList) := by
  rw [normalizePath_append_dotDot normal]
  by_cases empty : parts = []
  · subst empty
    rfl
  · have notRoot : formatParts parts ≠ ['/'] := fun root => empty ((formatParts_eq_root normal).mp root)
    -- the parts the branch splits out of the printed stack are the stack
    have split : ((formatParts parts).splitOn '/').filter (!·.isEmpty) = parts := by
      rw [splitOn_formatParts empty normal, List.filter_cons_of_neg (by simp)]
      exact List.filter_eq_self.mpr fun p mem => by simpa [List.isEmpty_iff] using (normal p mem).1
    rw [parentDir, if_neg notRoot, split, normalizePath,
      normalizeParts_formatParts fun p mem => normal p (List.dropLast_subset _ mem)]

/-- A normalized path below which a part is joined is absolute. -/
theorem head?_append_of_normal {cwd : List Char} (normal : normalizePath cwd = cwd) (rest : List Char) :
    (cwd ++ rest).head? = some '/' := by
  rw [List.head?_append, ← normal, normalizePath, head?_formatParts]
  rfl

/-- From a normalized current directory, ChangeDir `..` does what
ChangeDir of the path `cwd/..` does. -/
theorem changeDir_dotDot (s : VfsState) (normal : normalizePath s.currentDir = s.currentDir) :
    changeDir s "..".toList = changeDir s (s.currentDir ++ "/..".toList) := by
  apply changeDir_congr
  have relative : ("..".toList).head? ≠ some '/' := by decide
  rw [changeDirPath, if_neg relative, if_pos (show "..".toList = ['.', '.'] from rfl), changeDirPath,
    if_pos (head?_append_of_normal normal _), ← normal]
  exact normalizePath_parentDir (normalizeParts_normal _)

/-- ChangeDir `.` does what ChangeDir of the path `cwd/.` does. -/
theorem changeDir_dot (s : VfsState) (normal : normalizePath s.currentDir = s.currentDir) :
    changeDir s ".".toList = changeDir s (s.currentDir ++ "/.".toList) := by
  apply changeDir_congr
  have relative : (".".toList).head? ≠ some '/' := by decide
  have notDotDot : ".".toList ≠ ['.', '.'] := by decide
  rw [changeDirPath, if_neg relative, if_neg notDotDot, if_pos (show ".".toList = ['.'] from rfl), changeDirPath,
    if_pos (head?_append_of_normal normal _), normalizePath_append_dot]

/-- Path normalisation is canonical and relative resolution is uniform: a
normalized path is `/` followed by normal parts, normalizing is
idempotent, a path below a directory normalizes the same below the
directory's normal form, and in every state the service reaches
ChangeDir's own `..` and `.` branches do what ChangeDir of the paths
`cwd/..` and `cwd/.` does. -/
theorem paths_canonical_and_uniform (p cwd r : List Char) (modules : List LimineModule)
    (requests : List FSRequest) :
    ((normalizePath p).head? = some '/' ∧
        (normalizePath p = ['/'] ∨ ∀ part ∈ (normalizePath p).tail.splitOn '/', NormalPart part)) ∧
      normalizePath (normalizePath p) = normalizePath p ∧
      normalizePath (cwd ++ '/' :: r) = normalizePath (normalizePath cwd ++ '/' :: r) ∧
      let s := requests.foldl VfsState.step (VfsState.init modules)
      changeDir s "..".toList = changeDir s (s.currentDir ++ "/..".toList) ∧
        changeDir s ".".toList = changeDir s (s.currentDir ++ "/.".toList) := by
  have normal : normalizePath (requests.foldl VfsState.step (VfsState.init modules)).currentDir =
      (requests.foldl VfsState.step (VfsState.init modules)).currentDir :=
    Machine.foldl_invariant (fun (s : VfsState) => normalizePath s.currentDir = s.currentDir)
      step_keeps_cwd_normal rfl requests
  exact ⟨normalizePath_shape p, normalizePath_idem p, normalizePath_append_slash cwd r,
    changeDir_dotDot _ normal, changeDir_dot _ normal⟩

end OspabOs.Vfs
