import OspabOs.Lib.Text

/-!
# Paths of the VFS service

`VFSService::normalize_path` (`services/vfs.rs`) is a stack machine over
the `/`-separated parts of a path: empty parts and `.` are skipped, `..`
pops, anything else is pushed, and the stack is printed back behind a
leading `/`. Every request handler runs it on the path it was given,
joined to the current directory first when it is relative, and the two
resolvers then walk the COMPONENTS of the result: the non-empty parts of
the path once its leading slashes are trimmed.

The results of this module are the facts about that pipeline the
handlers' proofs use:

- `normalizeParts_normal`: every part the stack keeps is a `NormalPart`,
  non-empty, free of `/`, and neither `.` nor `..`;
- `normalizeParts_formatParts`: printing a stack of normal parts and
  normalizing again gives the stack back, so `normalizePath_idem`:
  normalizing is idempotent;
- `components_normalizePath`: the components the resolvers walk for a
  normalized path are exactly the stack;
- `normalizePath_shape`: a normalized path is `/` followed by normal
  parts, and `normalizePath_append_slash`: a path joined below a
  directory normalizes the same below the directory's normal form.
-/

namespace OspabOs.Vfs

/-- A part `normalize_path` keeps: non-empty, free of `/`, neither `.` nor
`..`. Every component of a normalized path is one. -/
def NormalPart (part : List Char) : Prop :=
  part ≠ [] ∧ '/' ∉ part ∧ part ≠ ['.'] ∧ part ≠ ['.', '.']

instance (part : List Char) : Decidable (NormalPart part) :=
  inferInstanceAs (Decidable (_ ∧ _ ∧ _ ∧ _))

/-- One turn of `normalize_path`'s loop: skip an empty part and `.`, pop
on `..` (`Vec::pop` on an empty stack does nothing), push anything else. -/
def normalizeStep (parts : List (List Char)) (part : List Char) : List (List Char) :=
  if part.isEmpty || part == ['.'] then parts
  else if part == ['.', '.'] then parts.dropLast
  else parts ++ [part]

/-- The stack `normalize_path` builds from `path.split('/')`. -/
def normalizeParts (path : List Char) : List (List Char) :=
  (path.splitOn '/').foldl normalizeStep []

/-- How `normalize_path` prints its stack: `"/"` for an empty one, else
`format!("/{}", parts.join("/"))`. -/
def formatParts (parts : List (List Char)) : List Char :=
  if parts.isEmpty then ['/'] else '/' :: ['/'].intercalate parts

/-- `VFSService::normalize_path`. -/
def normalizePath (path : List Char) : List Char :=
  formatParts (normalizeParts path)

/-- The relative-path join each of ReadFile, WriteFile, CreateDir, Delete
and `open_handle` writes out for itself: an absolute path stays as it is,
a relative one goes under `current_dir` (with no doubled slash under the
root). ListDir and ChangeDir add cases of their own before it. -/
def joinCwd (cwd path : List Char) : List Char :=
  if path.head? = some '/' then path
  else if cwd = ['/'] then '/' :: path
  else cwd ++ '/' :: path

/-- `path.trim_start_matches('/').split('/').filter(|s| !s.is_empty())`:
what `resolve_path`, `insert_path` and the mutating handlers walk. -/
def components (path : List Char) : List (List Char) :=
  ((path.dropWhile (· == '/')).splitOn '/').filter (!·.isEmpty)

/-! ## The stack keeps normal parts -/

/-- A part that is not skipped and not `..` is pushed as it is. -/
theorem normalizeStep_of_normalPart {parts : List (List Char)} {part : List Char}
    (normal : NormalPart part) : normalizeStep parts part = parts ++ [part] := by
  obtain ⟨nonempty, -, notDot, notDotDot⟩ := normal
  have skip : (part.isEmpty || part == ['.']) = false := by
    simp [nonempty, notDot]
  simp [normalizeStep, skip, notDotDot]

@[simp] theorem normalizeStep_nil (parts : List (List Char)) : normalizeStep parts [] = parts := by
  simp [normalizeStep]

/-- One step keeps a stack of normal parts normal, fed a part free of `/`. -/
theorem normalizeStep_normal {parts : List (List Char)} {part : List Char}
    (stack : ∀ p ∈ parts, NormalPart p) (noSlash : '/' ∉ part) :
    ∀ p ∈ normalizeStep parts part, NormalPart p := by
  intro p mem
  unfold normalizeStep at mem
  split_ifs at mem with skip dotDot
  · exact stack p mem
  · exact stack p (List.dropLast_subset _ mem)
  · rcases List.mem_append.mp mem with old | pushed
    · exact stack p old
    · rw [List.mem_singleton] at pushed
      subst pushed
      simp only [Bool.or_eq_true, List.isEmpty_iff, beq_iff_eq, not_or] at skip dotDot
      exact ⟨skip.1, noSlash, skip.2, dotDot⟩

/-- The fold keeps the stack normal, fed parts free of `/`. -/
theorem foldl_normalizeStep_normal (ps : List (List Char)) {acc : List (List Char)}
    (noSlash : ∀ p ∈ ps, '/' ∉ p) (stack : ∀ p ∈ acc, NormalPart p) :
    ∀ p ∈ ps.foldl normalizeStep acc, NormalPart p := by
  induction ps generalizing acc with
  | nil => exact stack
  | cons part rest ih =>
    exact ih (fun p mem => noSlash p (List.mem_cons_of_mem _ mem))
      (normalizeStep_normal stack (noSlash part List.mem_cons_self))

/-- Every part `normalize_path` keeps is normal. -/
theorem normalizeParts_normal (path : List Char) : ∀ p ∈ normalizeParts path, NormalPart p :=
  foldl_normalizeStep_normal _ (fun _ mem => Text.not_mem_of_mem_splitOn mem) (by simp)

/-- Normal parts are pushed one after the other. -/
theorem foldl_normalizeStep_of_normal {ps : List (List Char)} (acc : List (List Char))
    (normal : ∀ p ∈ ps, NormalPart p) : ps.foldl normalizeStep acc = acc ++ ps := by
  induction ps generalizing acc with
  | nil => simp
  | cons part rest ih =>
    rw [List.foldl_cons, normalizeStep_of_normalPart (normal part List.mem_cons_self),
      ih _ (fun p mem => normal p (List.mem_cons_of_mem _ mem))]
    simp

/-! ## Printing and reading back -/

/-- The printed form of a non-empty stack of normal parts starts with its
first part's first character, which is no slash. -/
theorem intercalate_dropWhile_slash {parts : List (List Char)}
    (normal : ∀ p ∈ parts, NormalPart p) :
    (['/'].intercalate parts).dropWhile (· == '/') = ['/'].intercalate parts := by
  cases parts with
  | nil => rfl
  | cons first rest =>
    obtain ⟨nonempty, noSlash, -, -⟩ := normal first List.mem_cons_self
    obtain ⟨c, cs, rfl⟩ := List.exists_cons_of_ne_nil nonempty
    have notSlash : (c == '/') = false := by
      simp only [beq_eq_false_iff_ne]
      rintro rfl
      exact noSlash List.mem_cons_self
    cases rest with
    | nil => simp [notSlash]
    | cons second more => simp [List.intercalate_cons_cons, notSlash]

/-- Splitting the printed form of a non-empty stack of normal parts on `/`
gives an empty part (before the leading slash), then the stack. -/
theorem splitOn_formatParts {parts : List (List Char)} (nonempty : parts ≠ [])
    (normal : ∀ p ∈ parts, NormalPart p) : (formatParts parts).splitOn '/' = [] :: parts := by
  have noSlash : ∀ p ∈ parts, '/' ∉ p := fun p mem => (normal p mem).2.1
  simp only [formatParts, List.isEmpty_iff, nonempty, if_false,
    List.splitOn_cons_eq_if_modifyHead, beq_self_eq_true, if_true]
  rw [List.splitOn_intercalate '/' noSlash nonempty]

/-- Normalizing the printed form of a normal stack gives the stack back. -/
theorem normalizeParts_formatParts {parts : List (List Char)}
    (normal : ∀ p ∈ parts, NormalPart p) : normalizeParts (formatParts parts) = parts := by
  by_cases empty : parts = []
  · subst empty
    rfl
  · rw [normalizeParts, splitOn_formatParts empty normal, List.foldl_cons, normalizeStep_nil,
      foldl_normalizeStep_of_normal _ normal, List.nil_append]

/-- NORMALIZATION IS IDEMPOTENT: a normalized path is a fixed point. -/
theorem normalizePath_idem (path : List Char) :
    normalizePath (normalizePath path) = normalizePath path := by
  unfold normalizePath
  rw [normalizeParts_formatParts (normalizeParts_normal path)]

/-- The components of a printed normal stack are the stack. -/
theorem components_formatParts {parts : List (List Char)}
    (normal : ∀ p ∈ parts, NormalPart p) : components (formatParts parts) = parts := by
  by_cases empty : parts = []
  · subst empty
    rfl
  · have nonEmpty : ∀ p ∈ parts, (!p.isEmpty) = true := by
      intro p mem
      simpa [List.isEmpty_iff] using (normal p mem).1
    have noSlash : ∀ p ∈ parts, '/' ∉ p := fun p mem => (normal p mem).2.1
    simp only [components, formatParts, List.isEmpty_iff, empty, if_false,
      List.dropWhile_cons, beq_self_eq_true, if_true, intercalate_dropWhile_slash normal,
      List.splitOn_intercalate '/' noSlash empty]
    exact List.filter_eq_self.mpr nonEmpty

/-- What the resolvers walk for a normalized path is `normalize_path`'s
stack. -/
theorem components_normalizePath (path : List Char) :
    components (normalizePath path) = normalizeParts path :=
  components_formatParts (normalizeParts_normal path)

/-! ## The shape of a normalized path -/

@[simp] theorem head?_formatParts (parts : List (List Char)) : (formatParts parts).head? = some '/' := by
  unfold formatParts
  split_ifs <;> rfl

/-- Only the empty stack prints as the root. -/
theorem formatParts_eq_root {parts : List (List Char)} (normal : ∀ p ∈ parts, NormalPart p) :
    formatParts parts = ['/'] ↔ parts = [] := by
  constructor
  · intro root
    rw [← normalizeParts_formatParts normal, root]
    rfl
  · rintro rfl
    rfl

/-- A normalized path is `/`, or `/` followed by normal parts. -/
theorem normalizePath_shape (path : List Char) :
    (normalizePath path).head? = some '/' ∧
      (normalizePath path = ['/'] ∨ ∀ part ∈ (normalizePath path).tail.splitOn '/', NormalPart part) := by
  refine ⟨head?_formatParts _, ?_⟩
  have normal := normalizeParts_normal path
  by_cases empty : normalizeParts path = []
  · exact .inl ((formatParts_eq_root normal).mpr empty)
  · refine .inr ?_
    rw [normalizePath]
    -- the tail of the printed stack is the stack joined by `/`
    simp only [formatParts, List.isEmpty_iff, empty, if_false, List.tail_cons]
    rw [List.splitOn_intercalate '/' (fun p mem => (normal p mem).2.1) empty]
    exact normal

/-! ## Paths below a directory -/

/-- A path joined below `x` at a `/` is normalized on from `x`'s stack. -/
theorem normalizeParts_append_slash (x r : List Char) :
    normalizeParts (x ++ '/' :: r) = (r.splitOn '/').foldl normalizeStep (normalizeParts x) := by
  rw [normalizeParts, List.splitOn_append_cons_of_beq x r (beq_self_eq_true '/'), List.foldl_append]
  rfl

/-- What a path below a directory normalizes to depends on the directory
only through its normal form. -/
theorem normalizePath_append_slash (cwd r : List Char) :
    normalizePath (cwd ++ '/' :: r) = normalizePath (normalizePath cwd ++ '/' :: r) := by
  unfold normalizePath
  rw [normalizeParts_append_slash, normalizeParts_append_slash,
    normalizeParts_formatParts (normalizeParts_normal cwd)]

/-- `.` below a directory is the directory. -/
theorem normalizePath_append_dot (cwd : List Char) : normalizePath (cwd ++ "/.".toList) = normalizePath cwd := by
  rw [show "/.".toList = '/' :: ".".toList from rfl, normalizePath, normalizeParts_append_slash]
  rfl

/-- `..` below a printed stack drops its last part. -/
theorem normalizePath_append_dotDot {parts : List (List Char)} (normal : ∀ p ∈ parts, NormalPart p) :
    normalizePath (formatParts parts ++ "/..".toList) = formatParts parts.dropLast := by
  rw [show "/..".toList = '/' :: "..".toList from rfl, normalizePath, normalizeParts_append_slash,
    normalizeParts_formatParts normal]
  rfl

end OspabOs.Vfs
