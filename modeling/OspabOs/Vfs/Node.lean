import OspabOs.Lib.KeyMap

/-!
# The VFS tree

`VNode` (`services/vfs.rs`) is one record for every kind of node: a name,
a type, a size, file data, a map of children and a device id, the
optional fields filled according to the type. The children map is a
`BTreeMap<String, VNode>`, modelled by an ordered association list
(`OspabOs.KeyMap`), so the tree is a nested structure.

Both resolvers of the service, the cloning `resolve_path` and the
borrowing `resolve_path_mut`, run the same loop: for each component, take
the node's children map if it has one and the child under the component.
`VNode.walk` is that loop. `VNode.updateAt` is `resolve_path_mut`
followed by an in-place edit of the node it reaches: the ancestors are
rebuilt around the edited node, and nothing happens when the walk fails.

The frame laws for `updateAt` are proved by induction on the path:

- `walk_updateAt_of_diverge`: a path that is neither a prefix nor an
  extension of the edited one sees the old node;
- `walk_updateAt_append`: below the edited node, the edited node is walked;
- `strip_walk_updateAt_of_prefix`: an ancestor keeps its own fields (all but
  its children map).

`EditsOnly f name` says that `f` changes a node's children under `name`
and nothing else. For such an edit at a parent path, `walk_edit_frame`
and `strip_walk_edit_of_prefix` split every path into the ones that see
the old tree, the ancestors, and the edited entry with its subtree.
-/

namespace OspabOs.Vfs

/-- `FileType`: the four kinds of node. -/
inductive FileType where
  | regular
  | directory
  | device
  | link
  deriving DecidableEq, Repr

/-- `VNode`. `data` is filled for regular files, `children` for
directories and `deviceId` for device files; nothing in the type forces
it, which is what the well-formedness results are about. -/
structure VNode where
  name : List Char
  fileType : FileType
  size : Nat
  data : Option (List UInt8)
  children : Option (List (List Char × VNode))
  deviceId : Option Nat

namespace VNode

/-- `VNode::new_dir`. -/
def newDir (name : List Char) : VNode :=
  ⟨name, .directory, 0, none, some [], none⟩

/-- `VNode::new_file`: the size is the data's length. -/
def newFile (name : List Char) (data : List UInt8) : VNode :=
  ⟨name, .regular, data.length, some data, none, none⟩

/-- `VNode::new_device`. -/
def newDevice (name : List Char) (deviceId : Nat) : VNode :=
  ⟨name, .device, 0, none, none, some deviceId⟩

/-- The node's own fields: everything but its children map. -/
def strip (node : VNode) : VNode := { node with children := none }

/-- The child under `c`: `node.children.as_ref()?.get(c)`. -/
def child? (node : VNode) (c : List Char) : Option VNode :=
  match node.children with
  | none => none
  | some children => KeyMap.get? c children

/-- The loop of `resolve_path` and of `resolve_path_mut`: follow the
components from `node`, failing at a node with no children map or no
child of the name. -/
def walk (node : VNode) : List (List Char) → Option VNode
  | [] => some node
  | c :: cs =>
    match node.child? c with
    | none => none
    | some child => child.walk cs

/-- `resolve_path_mut` and an in-place edit `f` of the node it reaches:
each ancestor's map is written through `get_mut`, in place, and when the
walk fails nothing changes. The recursion is on the path. -/
def updateAt (f : VNode → VNode) (node : VNode) : List (List Char) → VNode
  | [] => f node
  | c :: cs => { node with children := node.children.map (KeyMap.modify c (·.updateAt f cs)) }

/-- `children.get_or_insert_with(BTreeMap::new).insert(name, child)`. -/
def insertChild (node : VNode) (name : List Char) (child : VNode) : VNode :=
  { node with children := some (KeyMap.insert name child (node.children.getD [])) }

/-- `children.get_or_insert_with(BTreeMap::new).entry(name).or_insert_with(|| child)`:
an entry already under `name`, of whatever type, is kept. -/
def entryOrInsert (node : VNode) (name : List Char) (child : VNode) : VNode :=
  let children := node.children.getD []
  { node with
    children := some (match KeyMap.get? name children with
      | some _ => children
      | none => KeyMap.insert name child children) }

/-- `children.remove(name)` on the node's map, when it has one. -/
def removeChild (node : VNode) (name : List Char) : VNode :=
  { node with children := node.children.map (KeyMap.erase name) }

/-! ## Walking -/

theorem child?_eq_bind (node : VNode) (c : List Char) :
    node.child? c = node.children.bind (KeyMap.get? c) := by
  unfold child?
  cases node.children <;> rfl

@[simp] theorem walk_nil (node : VNode) : node.walk [] = some node := rfl

theorem walk_cons (node : VNode) (c : List Char) (cs : List (List Char)) :
    node.walk (c :: cs) = (node.child? c).bind (·.walk cs) := by
  simp only [walk]
  cases node.child? c <;> rfl

/-- Walking a joined path walks the first part, then the second from
where the first ended. -/
theorem walk_append (node : VNode) (p q : List (List Char)) :
    node.walk (p ++ q) = (node.walk p).bind (·.walk q) := by
  induction p generalizing node with
  | nil => rfl
  | cons c cs ih =>
    rw [List.cons_append, walk_cons, walk_cons]
    cases node.child? c with
    | none => rfl
    | some child => exact ih child

@[simp] theorem strip_strip (node : VNode) : node.strip.strip = node.strip := rfl

@[simp] theorem fileType_strip (node : VNode) : node.strip.fileType = node.fileType := rfl

/-! ## Editing at a path -/

theorem updateAt_cons (f : VNode → VNode) (node : VNode) (c : List Char) (cs : List (List Char)) :
    node.updateAt f (c :: cs) =
      { node with children := node.children.map (KeyMap.modify c (·.updateAt f cs)) } := rfl

/-- Rebuilding an ancestor keeps its own fields. -/
@[simp] theorem strip_updateAt_cons (f : VNode → VNode) (node : VNode) (c : List Char)
    (cs : List (List Char)) : (node.updateAt f (c :: cs)).strip = node.strip := rfl

/-- Below an ancestor, only the child on the edited path changes. -/
theorem child?_updateAt_cons (f : VNode → VNode) (node : VNode) (c d : List Char)
    (cs : List (List Char)) :
    (node.updateAt f (c :: cs)).child? d =
      if d = c then (node.child? d).map (·.updateAt f cs) else node.child? d := by
  rw [child?_eq_bind, child?_eq_bind, updateAt_cons]
  cases node.children with
  | none => simp
  | some kids => simp [KeyMap.get?_modify]

/-- An edit that leaves the node it reaches alone changes nothing. -/
theorem updateAt_eq_self {f : VNode → VNode} {node : VNode} {p : List (List Char)}
    (fixed : ∀ reached, node.walk p = some reached → f reached = reached) : node.updateAt f p = node := by
  induction p generalizing node with
  | nil => exact fixed node rfl
  | cons c cs ih =>
    rw [updateAt_cons]
    cases node with
    | mk name fileType size data children deviceId =>
      cases children with
      | none => rfl
      | some kids =>
        have childFixed : ∀ child, KeyMap.get? c kids = some child → child.updateAt f cs = child := by
          intro child found
          apply ih
          intro reached below
          apply fixed reached
          rw [walk_cons, child?_eq_bind]
          simpa [found] using below
        simp only [Option.map_some]
        rw [KeyMap.modify_eq_self childFixed]

/-- An edit at a path the walk does not reach changes nothing. -/
theorem updateAt_of_walk_eq_none {f : VNode → VNode} {node : VNode} {p : List (List Char)}
    (missing : node.walk p = none) : node.updateAt f p = node :=
  updateAt_eq_self (fun _ reached => by simp [missing] at reached)

/-- A path that neither lies below the edited one nor leads to it walks
the old tree. -/
theorem walk_updateAt_of_diverge (f : VNode → VNode) (node : VNode) {p q : List (List Char)}
    (notBelow : ¬ p <+: q) (notAbove : ¬ q <+: p) : (node.updateAt f p).walk q = node.walk q := by
  induction p generalizing node q with
  | nil => exact absurd (List.nil_prefix) notBelow
  | cons c cs ih =>
    cases q with
    | nil => exact absurd (List.nil_prefix) notAbove
    | cons d ds =>
      rw [walk_cons, walk_cons, child?_updateAt_cons]
      by_cases same : d = c
      · subst same
        rw [if_pos rfl]
        cases node.child? d with
        | none => rfl
        | some child =>
          simp only [Option.map_some, Option.bind_some]
          exact ih child (fun h => notBelow (List.prefix_cons_inj d |>.mpr h))
            (fun h => notAbove (List.prefix_cons_inj d |>.mpr h))
      · rw [if_neg same]

/-- Below the edited node the edited node is walked. -/
theorem walk_updateAt_append (f : VNode → VNode) {node target : VNode} {p : List (List Char)}
    (found : node.walk p = some target) (r : List (List Char)) :
    (node.updateAt f p).walk (p ++ r) = (f target).walk r := by
  induction p generalizing node with
  | nil =>
    cases found
    rfl
  | cons c cs ih =>
    rw [walk_cons] at found
    obtain ⟨child, isChild, below⟩ := Option.bind_eq_some_iff.mp found
    rw [List.cons_append, walk_cons, child?_updateAt_cons, if_pos rfl, isChild]
    exact ih below

/-- An ancestor of the edited node keeps its own fields. -/
theorem strip_walk_updateAt_of_prefix (f : VNode → VNode) (node : VNode)
    {p q : List (List Char)} (isPrefix : q <+: p) (ne : q ≠ p) :
    ((node.updateAt f p).walk q).map strip = (node.walk q).map strip := by
  induction q generalizing node p with
  | nil =>
    cases p with
    | nil => exact absurd rfl ne
    | cons c cs => rfl
  | cons d ds ih =>
    obtain ⟨rest, rfl⟩ := isPrefix
    rw [List.cons_append, walk_cons, walk_cons, child?_updateAt_cons, if_pos rfl]
    cases node.child? d with
    | none => rfl
    | some child =>
      simp only [Option.map_some, Option.bind_some]
      exact ih child ⟨rest, rfl⟩ (fun h => ne (by rw [List.cons_append, ← h]))

/-! ## Edits of one child -/

/-- `f` changes a node's children under `name` and nothing else: not the
node's own fields, not the children under other names. -/
structure EditsOnly (f : VNode → VNode) (name : List Char) : Prop where
  strip_eq : ∀ node, (f node).strip = node.strip
  child?_eq : ∀ node d, d ≠ name → (f node).child? d = node.child? d

/-- THE FRAME LAW: an edit of one child of the node at `parent` is seen
by no path except the edited entry, what is below it, and the ancestors. -/
theorem walk_edit_frame {f : VNode → VNode} {name : List Char} (edit : EditsOnly f name)
    (node : VNode) {parent q : List (List Char)} (notBelow : ¬ parent ++ [name] <+: q)
    (notAbove : ¬ q <+: parent) : (node.updateAt f parent).walk q = node.walk q := by
  by_cases below : parent <+: q
  · obtain ⟨r, rfl⟩ := below
    cases r with
    | nil => exact (notAbove (by simp)).elim
    | cons d rest =>
      have other : d ≠ name := by
        rintro rfl
        exact notBelow ⟨rest, by simp⟩
      cases atParent : node.walk parent with
      | none => rw [updateAt_of_walk_eq_none atParent]
      | some target =>
        rw [walk_updateAt_append f atParent, walk_append, atParent, Option.bind_some,
          walk_cons, walk_cons, edit.child?_eq target d other]
  · exact walk_updateAt_of_diverge f node below notAbove

/-- The ancestors of an edited entry, its parent included, keep their own
fields. -/
theorem strip_walk_edit_of_prefix {f : VNode → VNode} {name : List Char} (edit : EditsOnly f name)
    (node : VNode) {parent q : List (List Char)} (isPrefix : q <+: parent) :
    ((node.updateAt f parent).walk q).map strip = (node.walk q).map strip := by
  by_cases same : q = parent
  · subst same
    cases atParent : node.walk q with
    | none => rw [updateAt_of_walk_eq_none atParent, atParent]
    | some target =>
      have edited := walk_updateAt_append f atParent []
      rw [List.append_nil] at edited
      rw [edited]
      simp [edit.strip_eq]
  · exact strip_walk_updateAt_of_prefix f node isPrefix same

theorem insertChild_editsOnly (name : List Char) (child : VNode) :
    EditsOnly (·.insertChild name child) name where
  strip_eq _ := rfl
  child?_eq node d other := by
    unfold insertChild child?
    cases node.children <;> simp [KeyMap.get?_insert_of_ne _ _ other]

theorem entryOrInsert_editsOnly (name : List Char) (child : VNode) :
    EditsOnly (·.entryOrInsert name child) name where
  strip_eq _ := rfl
  child?_eq node d other := by
    unfold entryOrInsert child?
    cases node.children with
    | none => simp [KeyMap.get?_insert_of_ne _ _ other]
    | some kids =>
      cases found : KeyMap.get? name kids <;> simp [found, KeyMap.get?_insert_of_ne _ _ other]

theorem removeChild_editsOnly (name : List Char) : EditsOnly (·.removeChild name) name where
  strip_eq _ := rfl
  child?_eq node d other := by
    unfold removeChild child?
    cases node.children <;> simp [KeyMap.get?_erase_of_ne _ other]

@[simp] theorem child?_insertChild_self (name : List Char) (child node : VNode) :
    (node.insertChild name child).child? name = some child := by
  simp [insertChild, child?]

@[simp] theorem child?_removeChild_self (name : List Char) (node : VNode) :
    (node.removeChild name).child? name = none := by
  unfold removeChild child?
  cases node.children <;> simp

/-- `or_insert_with` on a present name changes nothing. -/
theorem entryOrInsert_of_child?_eq_some {node : VNode} {name : List Char} {present : VNode}
    (child : VNode) (found : node.child? name = some present) : node.entryOrInsert name child = node := by
  cases node with
  | mk n fileType size data children deviceId =>
    cases children with
    | none => simp [child?] at found
    | some kids =>
      simp only [child?] at found
      simp [entryOrInsert, found]

/-- `or_insert_with` keeps what is there and otherwise inserts. -/
theorem child?_entryOrInsert_self (name : List Char) (child node : VNode) :
    (node.entryOrInsert name child).child? name = some ((node.child? name).getD child) := by
  unfold entryOrInsert child?
  cases node.children with
  | none => simp
  | some kids =>
    cases found : KeyMap.get? name kids <;> simp [found]

end VNode

end OspabOs.Vfs
