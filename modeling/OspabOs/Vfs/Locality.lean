import OspabOs.Vfs.Service

/-!
# Mutations are local and atomic

WriteFile, CreateDir and Delete each resolve their path to a TARGET, the
stack `normalize_path` builds for the cwd-joined path, and edit at most
the children of the target's parent. Seen through `resolve_path`:

- a refused request (`FSResponse::Error`) leaves the tree and the current
  directory exactly as they were;
- an accepted one changes nothing that a path neither leading to the
  target nor lying below it resolves to, and its ancestors, the parent
  included, keep their own fields (all but the children map);
- a written file reads back, and a deleted entry and all below it no
  longer resolve.

The ancestors are excluded from the first clause on purpose:
`resolve_path` returns the node it reaches BY VALUE, children included, so
after any accepted edit the root and every other ancestor resolve to a
different value (`writeFile_root_resolves_differently`).

The three handlers share one argument (`localOutcome_of_edit`): each of
their edits is an `EditsOnly` edit of the parent, and the frame laws of
`VNode.updateAt` do the rest.
-/

namespace OspabOs.Vfs

/-- What a mutating request may do, seen through `resolve_path`: refuse and
change nothing, or succeed, keep the current directory, keep every path
that neither leads to the target nor lies below it, and keep the own
fields of the target's ancestors. -/
def LocalOutcome (s : VfsState) (result : FSResponse × VfsState) (t : List (List Char)) : Prop :=
  (result.1.isError = true ∧ result.2 = s) ∨
  (result.1 = .success ∧ result.2.currentDir = s.currentDir ∧
    (∀ q, ¬ t <+: components q → ¬ components q <+: t →
      resolvePath result.2.root q = resolvePath s.root q) ∧
    (∀ q, components q <+: t → components q ≠ t →
      (resolvePath result.2.root q).map VNode.strip = (resolvePath s.root q).map VNode.strip))

theorem localOutcome_error (s : VfsState) (message : List Char) (t : List (List Char)) :
    LocalOutcome s (.error message, s) t :=
  .inl ⟨rfl, rfl⟩

theorem localOutcome_success_self (s : VfsState) (t : List (List Char)) :
    LocalOutcome s (.success, s) t :=
  .inr ⟨rfl, rfl, fun _ _ _ => rfl, fun _ _ _ => rfl⟩

/-- An accepted edit of one child of the target's parent is local. -/
theorem localOutcome_of_edit (s : VfsState) {f : VNode → VNode} {parent : List (List Char)}
    {name : List Char} (edit : VNode.EditsOnly f name) :
    LocalOutcome s (.success, { s with root := s.root.updateAt f parent }) (parent ++ [name]) := by
  refine .inr ⟨rfl, rfl, ?_, ?_⟩
  · intro q notBelow notAbove
    have notAboveParent : ¬ components q <+: parent :=
      fun above => notAbove (above.trans (List.prefix_append _ _))
    simp only [resolvePath_eq_walk]
    exact VNode.walk_edit_frame edit s.root notBelow notAboveParent
  · intro q above ne
    have aboveParent : components q <+: parent :=
      (List.prefix_concat_iff.mp above).resolve_left ne
    simp only [resolvePath_eq_walk]
    exact VNode.strip_walk_edit_of_prefix edit s.root aboveParent

/-- A file written under `parent` is what the walk to it finds. -/
theorem walk_insertChild_target (root : VNode) {parent : List (List Char)} {name : List Char}
    {p : VNode} (found : root.walk parent = some p) (child : VNode) :
    (root.updateAt (·.insertChild name child) parent).walk (parent ++ [name]) = some child := by
  rw [VNode.walk_updateAt_append _ found, VNode.walk_cons, VNode.child?_insertChild_self]
  rfl

/-- Nothing at or below a removed entry is found. -/
theorem walk_removeChild_below (root : VNode) {parent : List (List Char)} {name : List Char}
    {p : VNode} (found : root.walk parent = some p) (rest : List (List Char)) :
    (root.updateAt (·.removeChild name) parent).walk (parent ++ name :: rest) = none := by
  rw [VNode.walk_updateAt_append _ found, VNode.walk_cons, VNode.child?_removeChild_self]
  rfl

/-- ReadFile after an accepted WriteFile of the same path. -/
theorem readFile_writeFile (s : VfsState) (path : List Char) (data : List UInt8)
    (accepted : (writeFile s path data).1 = .success) :
    readFile (writeFile s path data).2 path = .fileData data := by
  rcases List.eq_nil_or_concat (target s.currentDir path) with empty | ⟨parent, name, split⟩
  · rw [writeFile_of_target_eq_nil s path data empty] at accepted
    cases accepted
  · rw [List.concat_eq_append] at split
    rw [writeFile_of_target_eq_concat s path data split] at accepted ⊢
    cases found : s.root.walk parent with
    | none => simp [found] at accepted
    | some p =>
      by_cases dir : p.fileType = .directory
      · have located : components (normalizePath (joinCwd s.currentDir path)) = parent ++ [name] := by
          rw [components_normalizePath]
          exact split
        simp only [dir, ne_eq, not_true_eq_false, if_false, readFile, resolvePath_eq_walk,
          located, walk_insertChild_target s.root found]
        rfl
      · simp [found, dir] at accepted

theorem writeFile_local (s : VfsState) (path : List Char) (data : List UInt8) :
    LocalOutcome s (writeFile s path data) (target s.currentDir path) := by
  rcases List.eq_nil_or_concat (target s.currentDir path) with empty | ⟨parent, name, split⟩
  · rw [writeFile_of_target_eq_nil s path data empty]
    exact localOutcome_error s _ _
  · rw [List.concat_eq_append] at split
    rw [writeFile_of_target_eq_concat s path data split, split]
    cases s.root.walk parent with
    | none => exact localOutcome_error s _ _
    | some p =>
      by_cases dir : p.fileType = .directory
      · simpa [dir] using localOutcome_of_edit s (VNode.insertChild_editsOnly name (VNode.newFile name data))
      · simpa [dir] using localOutcome_error s "Not a directory".toList (parent ++ [name])

theorem createDir_local (s : VfsState) (path : List Char) :
    LocalOutcome s (createDir s path) (target s.currentDir path) := by
  rcases List.eq_nil_or_concat (target s.currentDir path) with empty | ⟨parent, name, split⟩
  · rw [createDir_of_target_eq_nil s path empty]
    exact localOutcome_success_self s _
  · rw [List.concat_eq_append] at split
    rw [createDir_of_target_eq_concat s path split, split]
    cases s.root.walk parent with
    | none => exact localOutcome_error s _ _
    | some p =>
      by_cases dir : p.fileType = .directory
      · simpa [dir] using localOutcome_of_edit s (VNode.entryOrInsert_editsOnly name (VNode.newDir name))
      · simpa [dir] using localOutcome_error s "Not a directory".toList (parent ++ [name])

theorem delete_local (s : VfsState) (path : List Char) :
    LocalOutcome s (delete s path) (target s.currentDir path) := by
  rcases List.eq_nil_or_concat (target s.currentDir path) with empty | ⟨parent, name, split⟩
  · rw [delete_of_target_eq_nil s path empty]
    exact localOutcome_error s _ _
  · rw [List.concat_eq_append] at split
    rw [delete_of_target_eq_concat s path split, split]
    cases s.root.walk parent with
    | none => exact localOutcome_error s _ _
    | some p =>
      by_cases dir : p.fileType = .directory
      · cases present : p.child? name with
        | none => simpa [dir, present] using localOutcome_error s "Not found".toList (parent ++ [name])
        | some _ => simpa [dir, present] using localOutcome_of_edit s (VNode.removeChild_editsOnly name)
      · simpa [dir] using localOutcome_error s "Not a directory".toList (parent ++ [name])

/-- After an accepted Delete nothing at or below the target resolves. -/
theorem delete_removes (s : VfsState) (path : List Char) (accepted : (delete s path).1 = .success)
    (q : List Char) (below : target s.currentDir path <+: components q) :
    resolvePath (delete s path).2.root q = none := by
  rcases List.eq_nil_or_concat (target s.currentDir path) with empty | ⟨parent, name, split⟩
  · rw [delete_of_target_eq_nil s path empty] at accepted
    cases accepted
  · rw [List.concat_eq_append] at split
    rw [delete_of_target_eq_concat s path split] at accepted ⊢
    obtain ⟨rest, located⟩ := below
    rw [split, List.append_assoc, List.singleton_append] at located
    cases found : s.root.walk parent with
    | none => simp [found] at accepted
    | some p =>
      by_cases dir : p.fileType = .directory
      · cases present : p.child? name with
        | none => simp [found, dir, present] at accepted
        | some _ =>
          simp only [dir, ne_eq, not_true_eq_false, if_false, present, resolvePath_eq_walk,
            ← located, walk_removeChild_below s.root found]
      · simp [found, dir] at accepted

/-- WriteFile, CreateDir and Delete are local and atomic, a written file
reads back, and a deleted entry no longer resolves, nor anything below it. -/
theorem mutations_local_and_atomic (s : VfsState) (path : List Char) (data : List UInt8) :
    LocalOutcome s (process s (.writeFile path data)) (target s.currentDir path) ∧
    ((process s (.writeFile path data)).1 = .success →
      (process (process s (.writeFile path data)).2 (.readFile path)).1 = .fileData data) ∧
    LocalOutcome s (process s (.createDir path)) (target s.currentDir path) ∧
    LocalOutcome s (process s (.delete path)) (target s.currentDir path) ∧
    ((process s (.delete path)).1 = .success →
      ∀ q, target s.currentDir path <+: components q →
        resolvePath (process s (.delete path)).2.root q = none) :=
  ⟨writeFile_local s path data, readFile_writeFile s path data, createDir_local s path,
    delete_local s path, delete_removes s path⟩

/-- WriteFile `/tmp/x` and Delete `/tmp` are accepted after `init`, so both
implications of `mutations_local_and_atomic` apply there. -/
theorem mutations_local_and_atomic_at_tmp :
    let s := VfsState.init []
    ((process s (.writeFile "/tmp/x".toList [0x61])).1 = .success ∧
        (process (process s (.writeFile "/tmp/x".toList [0x61])).2 (.readFile "/tmp/x".toList)).1 =
          .fileData [0x61]) ∧
      ((process s (.delete "/tmp".toList)).1 = .success ∧
        resolvePath (process s (.delete "/tmp".toList)).2.root "/tmp/x".toList = none) := by
  intro s
  have written : (process s (.writeFile "/tmp/x".toList [0x61])).1 = .success := by decide
  have deleted : (process s (.delete "/tmp".toList)).1 = .success := by decide
  have facts := mutations_local_and_atomic s "/tmp".toList [0x61]
  have writeFacts := mutations_local_and_atomic s "/tmp/x".toList [0x61]
  refine ⟨⟨written, writeFacts.2.1 written⟩, ⟨deleted, facts.2.2.2.2 deleted _ ?_⟩⟩
  decide

/-- The root is neither the target of WriteFile `/tmp/x` nor below it, and
yet it resolves to a different node afterwards: the node it resolves to
carries the new file in its subtree. -/
theorem writeFile_root_resolves_differently :
    let s := VfsState.init []
    let result := process s (.writeFile "/tmp/x".toList [0x61])
    result.1 = .success ∧ components ['/'] ≠ target s.currentDir "/tmp/x".toList ∧
      ¬ target s.currentDir "/tmp/x".toList <+: components ['/'] ∧
      resolvePath result.2.root ['/'] ≠ resolvePath s.root ['/'] := by
  refine ⟨by decide, by decide, by decide, fun same => ?_⟩
  have seen := congrArg (fun found => (found.bind (·.walk ["tmp".toList, "x".toList])).isSome) same
  revert seen
  decide

end OspabOs.Vfs
