import Mathlib
import OspabOs.Fs.Handle

/-!
# The file-descriptor table

`fs::fd::FdTable` is a vector of optional handles: `insert` fills the
first empty slot, or pushes a new one, and returns its index as the
descriptor; `close` empties a slot; `get_mut` finds the handle of an open
descriptor. `with_stdio` opens 0, 1 and 2 on the keyboard, the
framebuffer and the serial port.

Descriptors are `u32`, and `insert` returns `idx as u32`: the index
truncated to 32 bits. While the table has fewer than `2 ^ 32` slots,
`insert` returns the lowest descriptor that is not open, whose handle is
the new one afterwards (`insert_lowest_free`); `get_mut` fails exactly on
descriptors that are not open (`getMut_isError`); and `close` of a
descriptor in range closes it and no other (`getMut_close`). A table
with `2 ^ 32` open slots is reached by `with_stdio` and `2 ^ 32 - 3`
inserts, and the next insert returns descriptor 0, which stays the
keyboard's (`insert_after_full_table`).
-/

namespace OspabOs.Fs

/-- `FdTable`. -/
structure FdTable where
  entries : List (Option FileHandle)
  deriving DecidableEq, Repr

namespace FdTable

/-- `FdTable::new`. -/
def new : FdTable := ⟨[]⟩

/-- `FdTable::with_stdio`: three slots, then the three devices in them. -/
def withStdio : FdTable :=
  let entries := new.entries ++ List.replicate 3 none
  ⟨((entries.set 0 (some (.device .keyboard))).set 1 (some (.device .framebuffer))).set 2
    (some (.device .serial))⟩

/-- `FdTable::insert`: the first empty slot, else a new one at the end;
the index is returned `as u32`. -/
def insert (t : FdTable) (handle : FileHandle) : UInt32 × FdTable :=
  match t.entries.findIdx? (·.isNone) with
  | some idx => (idx.toUInt32, ⟨t.entries.set idx (some handle)⟩)
  | none => (t.entries.length.toUInt32, ⟨t.entries ++ [some handle]⟩)

/-- `FdTable::get_mut`: the handle of an open descriptor. -/
def getMut (t : FdTable) (fd : UInt32) : Except FsError FileHandle :=
  if fd.toNat ≥ t.entries.length then .error .invalid
  else
    match t.entries[fd.toNat]? with
    | some (some handle) => .ok handle
    | _ => .error .invalid

/-- `FdTable::close`: empty the slot of a descriptor in range. -/
def close (t : FdTable) (fd : UInt32) : Except FsError Unit × FdTable :=
  if fd.toNat ≥ t.entries.length then (.error .invalid, t)
  else (.ok (), ⟨t.entries.set fd.toNat none⟩)

/-- Descriptor `fd` holds a handle. -/
def IsOpen (t : FdTable) (fd : Nat) : Prop := ∃ handle, t.entries[fd]? = some (some handle)

instance (t : FdTable) (fd : Nat) : Decidable (t.IsOpen fd) :=
  decidable_of_iff ((t.entries[fd]?.bind id).isSome = true) (by
    unfold IsOpen
    cases t.entries[fd]? with
    | none => simp
    | some slot => cases slot <;> simp)

/-! ## What each call does -/

variable (t : FdTable)

theorem not_isOpen_of_le {fd : Nat} (past : t.entries.length ≤ fd) : ¬ t.IsOpen fd := by
  rintro ⟨handle, found⟩
  rw [List.getElem?_eq_none past] at found
  cases found

/-- `get_mut` finds exactly the handle of an open descriptor. -/
theorem getMut_eq_ok (fd : UInt32) (handle : FileHandle) :
    t.getMut fd = .ok handle ↔ t.entries[fd.toNat]? = some (some handle) := by
  unfold getMut
  by_cases past : fd.toNat ≥ t.entries.length
  · rw [if_pos past, List.getElem?_eq_none past]
    simp
  · rw [if_neg past]
    split
    · next found => simp [found]
    · next other =>
      constructor
      · nofun
      · intro found
        exact absurd found (other handle)

/-- `get_mut` fails exactly on a descriptor that is not open. -/
theorem getMut_isError (fd : UInt32) : (∃ e, t.getMut fd = .error e) ↔ ¬ t.IsOpen fd.toNat := by
  constructor
  · rintro ⟨e, failed⟩ ⟨handle, found⟩
    rw [(getMut_eq_ok t fd handle).mpr found] at failed
    cases failed
  · intro closed
    cases answer : t.getMut fd with
    | error e => exact ⟨e, rfl⟩
    | ok handle => exact absurd ⟨handle, (getMut_eq_ok t fd handle).mp answer⟩ closed

/-- `close` of a descriptor in range empties its slot and no other. -/
theorem close_of_lt {fd : UInt32} (inRange : fd.toNat < t.entries.length) :
    t.close fd = (.ok (), ⟨t.entries.set fd.toNat none⟩) := by
  unfold close
  rw [if_neg (Nat.not_le.mpr inRange)]

theorem getMut_close {fd : UInt32} (inRange : fd.toNat < t.entries.length) (other : UInt32) :
    (t.close fd).2.getMut other = if other = fd then .error .invalid else t.getMut other := by
  rw [close_of_lt t inRange]
  by_cases same : other = fd
  · subst same
    rw [if_pos rfl]
    unfold getMut
    rw [if_neg (by simp only [List.length_set]; omega), List.getElem?_set_self inRange]
  · rw [if_neg same]
    have apart : other.toNat ≠ fd.toNat := fun eq => same (UInt32.toNat_inj.mp eq)
    unfold getMut
    simp only [List.length_set, List.getElem?_set_ne (Ne.symm apart)]

/-! ## `insert` takes the lowest free descriptor -/

/-- The index `insert` picks: the first empty slot, or the end. -/
def firstFree (t : FdTable) : Nat := (t.entries.findIdx? (·.isNone)).getD t.entries.length

theorem firstFree_le : t.firstFree ≤ t.entries.length := by
  unfold firstFree
  cases found : t.entries.findIdx? (·.isNone) with
  | none => exact Nat.le_refl _
  | some idx =>
    obtain ⟨lt, -⟩ := List.findIdx?_eq_some_iff_getElem.mp found
    exact Nat.le_of_lt lt

/-- Below the index `insert` picks, every descriptor is open, and the
descriptor it picks is not. -/
theorem isOpen_firstFree : ¬ t.IsOpen t.firstFree ∧ ∀ j < t.firstFree, t.IsOpen j := by
  unfold firstFree
  cases found : t.entries.findIdx? (·.isNone) with
  | none =>
    have full := List.findIdx?_eq_none_iff.mp found
    refine ⟨not_isOpen_of_le t (Nat.le_refl _), fun j lt => ?_⟩
    have filled := full t.entries[j] (List.getElem_mem lt)
    cases slot : t.entries[j] with
    | none => simp [slot] at filled
    | some handle => exact ⟨handle, by rw [List.getElem?_eq_getElem lt, slot]⟩
  | some idx =>
    obtain ⟨lt, empty, before⟩ := List.findIdx?_eq_some_iff_getElem.mp found
    rw [Option.getD_some]
    refine ⟨?_, fun j below => ?_⟩
    · rintro ⟨handle, slot⟩
      rw [List.getElem?_eq_getElem lt, Option.some.injEq] at slot
      simp [slot] at empty
    · have filled := before j below
      cases slot : t.entries[j] with
      | none => simp [slot] at filled
      | some handle => exact ⟨handle, by rw [List.getElem?_eq_getElem (Nat.lt_trans below lt), slot]⟩

/-- What `insert` does, through `firstFree`: the descriptor is the index
truncated to 32 bits, and the handle goes to that index. -/
theorem insert_eq (handle : FileHandle) :
    t.insert handle = (t.firstFree.toUInt32,
      ⟨if t.firstFree < t.entries.length then t.entries.set t.firstFree (some handle)
        else t.entries ++ [some handle]⟩) := by
  unfold insert firstFree
  cases found : t.entries.findIdx? (·.isNone) with
  | none => simp
  | some idx =>
    obtain ⟨lt, -⟩ := List.findIdx?_eq_some_iff_getElem.mp found
    simp [lt]

theorem getElem?_insert (handle : FileHandle) : (t.insert handle).2.entries[t.firstFree]? = some (some handle) := by
  rw [insert_eq]
  dsimp only
  split
  · next inside => exact List.getElem?_set_self inside
  · next atEnd =>
    have atLength : t.firstFree = t.entries.length := Nat.le_antisymm (firstFree_le t) (Nat.not_lt.mp atEnd)
    rw [atLength, List.getElem?_append_right (Nat.le_refl _), Nat.sub_self]
    rfl

/-- While the table has fewer than `2 ^ 32` slots, `insert` returns the
lowest descriptor not open, and `get_mut` of it then yields the handle. -/
theorem insert_lowest_free (handle : FileHandle) (fits : t.entries.length < 2 ^ 32) :
    ¬ t.IsOpen (t.insert handle).1.toNat ∧ (∀ j < (t.insert handle).1.toNat, t.IsOpen j) ∧
      (t.insert handle).2.getMut (t.insert handle).1 = .ok handle := by
  have exact : (t.insert handle).1.toNat = t.firstFree := by
    rw [insert_eq]
    exact UInt32.toNat_ofNat_of_lt' (Nat.lt_of_le_of_lt (firstFree_le t) fits)
  obtain ⟨closed, below⟩ := isOpen_firstFree t
  refine ⟨exact ▸ closed, exact ▸ below, ?_⟩
  rw [getMut_eq_ok, exact]
  exact getElem?_insert t handle

/-- A sequence of `insert` calls. -/
def insertAll (t : FdTable) (handles : List FileHandle) : FdTable :=
  handles.foldl (fun t handle => (t.insert handle).2) t

/-- With no empty slot, `insert` appends and returns the length as `u32`. -/
theorem insert_of_full (handle : FileHandle) (full : ∀ slot ∈ t.entries, slot.isSome) :
    t.insert handle = (t.entries.length.toUInt32, ⟨t.entries ++ [some handle]⟩) := by
  have none : t.entries.findIdx? (·.isNone) = none := by
    apply List.findIdx?_eq_none_iff.mpr
    intro slot mem
    simpa [Option.isNone_iff_eq_none, Option.isSome_iff_ne_none] using full slot mem
  unfold insert
  rw [none]

/-- Inserting into a full table only appends. -/
theorem insertAll_of_full (handles : List FileHandle) (full : ∀ slot ∈ t.entries, slot.isSome) :
    (t.insertAll handles).entries = t.entries ++ handles.map some := by
  induction handles generalizing t with
  | nil => simp [insertAll]
  | cons handle handles ih =>
    have step : (t.insertAll (handle :: handles)) = (t.insert handle).2.insertAll handles := rfl
    have stillFull : ∀ slot ∈ (t.insert handle).2.entries, slot.isSome := by
      rw [insert_of_full t handle full]
      intro slot mem
      rcases List.mem_append.mp mem with old | new
      · exact full slot old
      · rw [List.mem_singleton.mp new]
        rfl
    rw [step, ih _ stillFull, insert_of_full t handle full]
    simp

theorem withStdio_full : ∀ slot ∈ withStdio.entries, slot.isSome := by decide

/-- After `with_stdio` and `2 ^ 32 - 3` inserts the table has `2 ^ 32`
slots, all open; the next insert returns descriptor 0, which is open and
whose handle is still the keyboard. -/
theorem insert_after_full_table (handle : FileHandle) :
    (withStdio.insertAll (List.replicate (2 ^ 32 - 3) handle)).entries.length = 2 ^ 32 ∧
    (withStdio.insertAll (List.replicate (2 ^ 32 - 3) handle)).IsOpen 0 ∧
    ((withStdio.insertAll (List.replicate (2 ^ 32 - 3) handle)).insert handle).1 = 0 ∧
    ((withStdio.insertAll (List.replicate (2 ^ 32 - 3) handle)).insert handle).2.getMut 0 =
      .ok (.device .keyboard) := by
  have entries := insertAll_of_full withStdio (List.replicate (2 ^ 32 - 3) handle) withStdio_full
  have stdio : withStdio.entries = [some (.device .keyboard), some (.device .framebuffer),
      some (.device .serial)] := rfl
  have length : (withStdio.insertAll (List.replicate (2 ^ 32 - 3) handle)).entries.length = 2 ^ 32 := by
    rw [entries, List.length_append, List.length_map, List.length_replicate, stdio]
    rfl
  have full : ∀ slot ∈ (withStdio.insertAll (List.replicate (2 ^ 32 - 3) handle)).entries,
      slot.isSome := by
    rw [entries]
    intro slot mem
    rcases List.mem_append.mp mem with old | new
    · exact withStdio_full slot old
    · obtain ⟨h, -, rfl⟩ := List.mem_map.mp new
      rfl
  refine ⟨length, ⟨.device .keyboard, by rw [entries, stdio]; rfl⟩, ?_, ?_⟩
  · rw [insert_of_full _ handle full, length]
    rfl
  · rw [insert_of_full _ handle full, getMut_eq_ok, entries, stdio]
    rfl

end FdTable

end OspabOs.Fs
