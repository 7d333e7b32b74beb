import Mathlib
import OspabOs.Auth.Users

/-!
# When the user database stays consistent, and how it breaks

`init` stores root under id 0 and `ospab` under id 1, and sets `next_id` to
2. From there each `add_user` with a new name stores a user under
`next_id` in both maps. While the counter has not wrapped, that id is new,
so the database stays consistent (`Consistent`): the two maps are inverse,
every stored user is what `User::new` built under its own id, and id 0 is
still root. Hence no call overwrites an entry and only root holds `Admin`
(`addUsers_consistent`, `database_consistent_before_wrap`).

The counter is a wrapping `u32`, though, and `add_user` checks only names.
After `2^32 - 2` users have been added, `next_id` is 0 again, and the next
new name is stored under id 0, over root, with `Admin` and `/root` from
`User::new`: the name `root` now leads to that user, who can log in with
their own password as the administrator (`add_user_reassigns_root_id`).

`Consistent k m` is indexed by the number `k` of users `add_user` has
created: `next_id` is `k + 2`, wrapped, and every id in use is below it.
-/

namespace OspabOs.Auth

open UserManager

/-- The root user `init` creates. -/
def rootUser : User := User.new 0 "root".toList "root".toList

/-- `users_by_name[n] = id` exactly when `users[id]` is named `n`. -/
def Inverse (users : List (UInt32 × User)) (usersByName : List (List Char × UInt32)) : Prop :=
  ∀ name id, KeyMap.get? name usersByName = some id ↔ ∃ u, KeyMap.get? id users = some u ∧ u.name = name

/-- Every stored user is what `User::new` built under its own id. -/
def Made (users : List (UInt32 × User)) : Prop :=
  ∀ id u, KeyMap.get? id users = some u → ∃ password, u = User.new id u.name password

/-- What holds once `init` ran and `add_user` created `k` users. -/
structure Consistent (k : Nat) (m : UserManager) : Prop where
  next : m.nextId.toNat = (k + 2) % 2 ^ 32
  issued : ∀ id u, KeyMap.get? id m.users = some u → id.toNat < k + 2
  made : Made m.users
  inverse : Inverse m.users m.usersByName
  root : KeyMap.get? 0 m.users = some rootUser

/-! ## Storing a user under a free id and a free name -/

section Store

variable {users : List (UInt32 × User)} {usersByName : List (List Char × UInt32)}
  {id : UInt32} {name password : List Char}

theorem Made.insert (made : Made users) :
    Made (KeyMap.insert id (User.new id name password) users) := by
  intro id' u found
  rw [KeyMap.get?_insert] at found
  split_ifs at found with same
  · cases found
    exact ⟨password, by rw [same]; rfl⟩
  · exact made id' u found

/-- Storing a user under an id and a name that both maps lack keeps them
inverse. -/
theorem Inverse.insert (inverse : Inverse users usersByName) (freeId : KeyMap.get? id users = none)
    (freeName : KeyMap.get? name usersByName = none) :
    Inverse (KeyMap.insert id (User.new id name password) users) (KeyMap.insert name id usersByName) := by
  intro name' id'
  rw [KeyMap.get?_insert, KeyMap.get?_insert]
  by_cases sameName : name' = name
  · rw [if_pos sameName]
    by_cases sameId : id' = id
    · rw [if_pos sameId, sameId, sameName]
      exact ⟨fun _ => ⟨_, rfl, rfl⟩, fun _ => rfl⟩
    -- another id named `name` would be in `users_by_name` already
    · rw [if_neg sameId]
      constructor
      · intro same
        exact absurd (Option.some.inj same).symm sameId
      · rintro ⟨u, found, named⟩
        have := (inverse _ id').mpr ⟨u, found, named⟩
        rw [sameName, freeName] at this
        cases this
  · rw [if_neg sameName]
    by_cases sameId : id' = id
    -- `name'` leading to the free id would put a user there
    · rw [if_pos sameId]
      constructor
      · intro found
        obtain ⟨u, stored, _⟩ := (inverse name' id').mp found
        rw [sameId, freeId] at stored
        cases stored
      · rintro ⟨u, stored, named⟩
        cases stored
        exact absurd named.symm sameName
    · rw [if_neg sameId]
      exact inverse name' id'

end Store

/-! ## `init` and `add_user` keep the database consistent -/

theorem init_usersByName_of_ne {name : List Char} (notRoot : name ≠ "root".toList)
    (notOspab : name ≠ "ospab".toList) : KeyMap.get? name new.init.usersByName = none := by
  show KeyMap.get? name (KeyMap.insert "ospab".toList 1 (KeyMap.insert "root".toList 0 [])) = none
  rw [KeyMap.get?_insert, if_neg notOspab, KeyMap.get?_insert, if_neg notRoot]
  rfl

namespace Consistent

variable {k : Nat} {m : UserManager}

theorem init : Consistent 0 new.init := by
  have rootFree : KeyMap.get? (0 : UInt32) ([] : List (UInt32 × User)) = none := rfl
  have ospabFree : KeyMap.get? (1 : UInt32) (KeyMap.insert 0 rootUser []) = none := by decide
  refine ⟨rfl, ?_, ?_, ?_, by decide⟩
  · intro id u found
    simp only [UserManager.init, new, KeyMap.get?_insert] at found
    split_ifs at found with one zero
    · rw [one]
      decide
    · rw [zero]
      decide
    · cases found
  · exact (Made.insert (Made.insert fun _ _ found => by cases found))
  · apply Inverse.insert (Inverse.insert (fun _ _ => by simp [new]) rootFree rfl) ospabFree
    decide

/-- The id `add_user` hands out next holds no user yet. -/
theorem next_free (c : Consistent k m) (room : k + 2 < 2 ^ 32) : KeyMap.get? m.nextId m.users = none := by
  cases found : KeyMap.get? m.nextId m.users with
  | none => rfl
  | some u =>
    have below := c.issued _ u found
    rw [c.next, Nat.mod_eq_of_lt room] at below
    exact absurd below (Nat.lt_irrefl _)

/-- A new name while the counter has room: one more user, consistently. -/
theorem addUser_fresh {name password : List Char} (c : Consistent k m) (room : k + 2 < 2 ^ 32)
    (fresh : KeyMap.get? name m.usersByName = none) : Consistent (k + 1) (m.addUser name password).2 := by
  have nextNat : m.nextId.toNat = k + 2 := by rw [c.next, Nat.mod_eq_of_lt room]
  have notRoot : (0 : UInt32) ≠ m.nextId := by
    intro zero
    rw [← zero] at nextNat
    cases nextNat
  rw [addUser_of_fresh fresh]
  refine ⟨?_, ?_, c.made.insert, c.inverse.insert (c.next_free room) fresh, ?_⟩
  · show (m.nextId + 1).toNat = _
    rw [UInt32.toNat_add, nextNat, UInt32.toNat_one]
  · intro id u found
    rw [KeyMap.get?_insert] at found
    split_ifs at found with same
    · rw [same, nextNat]
      exact Nat.lt_succ_self _
    · exact Nat.lt_succ_of_lt (c.issued id u found)
  · rw [KeyMap.get?_insert_of_ne _ _ notRoot]
    exact c.root

/-- One call, whatever the name: refused and nothing changes, or one more
user. -/
theorem addUser {name password : List Char} (c : Consistent k m) (room : k + 2 < 2 ^ 32) :
    Consistent k (m.addUser name password).2 ∨ Consistent (k + 1) (m.addUser name password).2 := by
  cases found : KeyMap.get? name m.usersByName with
  | some id => exact .inl (by rw [addUser_of_taken (by simp [found])]; exact c)
  | none => exact .inr (c.addUser_fresh room found)

/-- While the counter has room, an entry once stored stays: `add_user`
never overwrites one. -/
theorem addUser_keeps {name password : List Char} (c : Consistent k m) (room : k + 2 < 2 ^ 32)
    {id : UInt32} {u : User} (found : KeyMap.get? id m.users = some u) :
    KeyMap.get? id (m.addUser name password).2.users = some u := by
  cases taken : KeyMap.get? name m.usersByName with
  | some _ => rw [addUser_of_taken (by simp [taken])]; exact found
  | none =>
    have other : id ≠ m.nextId := by
      rintro rfl
      rw [c.next_free room] at found
      cases found
    rw [addUser_of_fresh taken]
    exact (KeyMap.get?_insert_of_ne _ _ other).trans found

/-- Over a run of calls with room for each of them, the database stays
consistent. -/
theorem addUsers {calls : List (List Char × List Char)} (c : Consistent k m)
    (room : k + calls.length + 2 ≤ 2 ^ 32) : ∃ j ≤ calls.length, Consistent (k + j) (m.addUsers calls) := by
  induction calls generalizing k m with
  | nil => exact ⟨0, Nat.le_refl 0, c⟩
  | cons call calls ih =>
    simp only [List.length_cons] at room
    have stepped : Consistent k (m.addUser call.1 call.2).2 ∨ Consistent (k + 1) (m.addUser call.1 call.2).2 :=
      c.addUser (by omega)
    rcases stepped with same | more
    · obtain ⟨j, le, rest⟩ := ih same (by omega)
      exact ⟨j, by simp only [List.length_cons]; omega, rest⟩
    · obtain ⟨j, le, rest⟩ := ih more (by omega)
      refine ⟨j + 1, by simp only [List.length_cons]; omega, ?_⟩
      rwa [← Nat.add_assoc, Nat.add_right_comm]

/-- A run of new, distinct names adds exactly one user per call. -/
theorem addUsers_fresh {calls : List (List Char × List Char)} (c : Consistent k m)
    (distinct : (calls.map Prod.fst).Nodup) (fresh : ∀ n ∈ calls.map Prod.fst, KeyMap.get? n m.usersByName = none)
    (room : k + calls.length + 2 ≤ 2 ^ 32) : Consistent (k + calls.length) (m.addUsers calls) := by
  induction calls generalizing k m with
  | nil => exact c
  | cons call calls ih =>
    simp only [List.map_cons, List.nodup_cons] at distinct
    simp only [List.length_cons] at room
    have added : Consistent (k + 1) (m.addUser call.1 call.2).2 :=
      c.addUser_fresh (by omega) (fresh call.1 List.mem_cons_self)
    -- the other names are still new: `add_user` wrote only `call.1`
    have stillFresh : ∀ n ∈ calls.map Prod.fst, KeyMap.get? n (m.addUser call.1 call.2).2.usersByName = none := by
      intro n mem
      have other : n ≠ call.1 := fun same => distinct.1 (same ▸ mem)
      rw [get?_usersByName_addUser other]
      exact fresh n (List.mem_cons_of_mem _ mem)
    have rest := ih added distinct.2 stillFresh (by omega)
    rw [List.length_cons, ← Nat.add_assoc, Nat.add_right_comm]
    exact rest

/-! ## What a consistent database answers -/

/-- Only root holds `Admin`. -/
theorem admin (c : Consistent k m) {id : UInt32} {u : User} (found : KeyMap.get? id m.users = some u)
    (admin : u.hasPermission .admin = true) : id = 0 ∧ u = rootUser := by
  obtain ⟨password, built⟩ := c.made id u found
  have zero : id = 0 := by
    rw [built, User.new_hasPermission_admin] at admin
    exact admin
  subst zero
  rw [c.root] at found
  exact ⟨rfl, (Option.some.inj found).symm⟩

/-- `check_permission(id, Admin)` holds of id 0 alone. -/
theorem checkPermission_admin (c : Consistent k m) (id : UInt32) :
    m.checkPermission id .admin = true ↔ id = 0 := by
  unfold checkPermission getUser
  constructor
  · intro granted
    split at granted
    · next u found => exact (c.admin found granted).1
    · cases granted
  · rintro rfl
    rw [c.root]
    decide

/-- Logging in finds the user stored under that name, and checks that
user's password. -/
theorem authenticate_eq_some {name password : List Char} {u : User} (c : Consistent k m) :
    m.authenticate name password = some u ↔
      KeyMap.get? u.id m.users = some u ∧ u.name = name ∧ u.checkPassword password = true := by
  unfold authenticate
  constructor
  · intro found
    split at found
    · next id byName =>
      split at found
      · next v stored =>
        split_ifs at found with checked
        cases found
        obtain ⟨password, built⟩ := c.made id u stored
        have sameId : u.id = id := by rw [built, User.new_id]
        obtain ⟨w, stored', named⟩ := (c.inverse name id).mp byName
        rw [stored] at stored'
        cases stored'
        exact ⟨sameId ▸ stored, named, checked⟩
      · cases found
    · cases found
  · rintro ⟨stored, named, checked⟩
    rw [(c.inverse name u.id).mpr ⟨u, stored, named⟩]
    simp only [stored, checked, if_true]

/-- Once `2^32 - 2` users were added, `next_id` is 0 again: the next new
name is stored over root, the name `root` leads to it, and it logs in
with its own password as the administrator. -/
theorem addUser_wrapped {name password : List Char} (c : Consistent (2 ^ 32 - 2) m)
    (fresh : KeyMap.get? name m.usersByName = none) (notRoot : "root".toList ≠ name) :
    let after := m.addUser name password
    after.1 = .ok 0 ∧ after.2.getUser 0 = some (User.new 0 name password) ∧
      after.2.getUserByName "root".toList = some (User.new 0 name password) ∧
      after.2.authenticate name password = some (User.new 0 name password) ∧
      after.2.checkPermission 0 .admin = true := by
  intro after
  -- `(2^32 - 2) + 2` wraps to 0
  have wrapped : m.nextId = 0 := UInt32.toNat_inj.mp (by rw [c.next]; rfl)
  have rootName : KeyMap.get? "root".toList m.usersByName = some 0 :=
    (c.inverse _ 0).mpr ⟨rootUser, c.root, rfl⟩
  have result : after = (.ok 0,
      { users := KeyMap.insert 0 (User.new 0 name password) m.users,
        usersByName := KeyMap.insert name 0 m.usersByName,
        nextId := 0 + 1 }) := by
    rw [← wrapped]
    exact addUser_of_fresh fresh
  rw [result]
  refine ⟨rfl, KeyMap.get?_insert_self _ _ _, ?_, ?_, ?_⟩
  · simp only [getUserByName, KeyMap.get?_insert_of_ne _ _ notRoot, rootName, Option.bind_some,
      KeyMap.get?_insert_self]
  · simp [authenticate, User.new_checkPassword]
  · simp [checkPermission, getUser]

end Consistent

/-! ## Runs from `init` -/

/-- Over every run of at most `2^32 - 2` calls after `init`, the database
is consistent. -/
theorem addUsers_consistent (calls : List (List Char × List Char)) (few : calls.length ≤ 2 ^ 32 - 2) :
    ∃ k ≤ calls.length, Consistent k (new.init.addUsers calls) := by
  have room : 0 + calls.length + 2 ≤ 2 ^ 32 := by omega
  obtain ⟨k, le, c⟩ := Consistent.init.addUsers room
  exact ⟨k, le, by rwa [Nat.zero_add] at c⟩

/-- Before the counter can wrap: the maps are inverse, the next call keeps
every entry, and `Admin` is root's alone. -/
theorem database_consistent_before_wrap (calls : List (List Char × List Char)) (name password : List Char)
    (few : calls.length < 2 ^ 32 - 2) :
    let m := new.init.addUsers calls
    Inverse m.users m.usersByName ∧
      (∀ id u, m.getUser id = some u → (m.addUser name password).2.getUser id = some u) ∧
      ∀ id, m.checkPermission id .admin = true ↔ id = 0 := by
  intro m
  obtain ⟨k, le, c⟩ := addUsers_consistent calls (Nat.le_of_lt few)
  exact ⟨c.inverse, fun _ _ found => c.addUser_keeps (by omega) found, c.checkPermission_admin⟩

end OspabOs.Auth
