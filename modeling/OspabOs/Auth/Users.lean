import OspabOs.Lib.KeyMap
import OspabOs.Lib.Text

/-!
# The user database

`auth::UserManager` keeps two `BTreeMap`s in step by hand: `users`, from a
user id to its `User`, and `users_by_name`, from a name to an id. Ids come
from a separate counter, `next_id`, a `u32` that `add_user` increments;
the kernel is built in release mode, so the increment wraps. `add_user`
checks only that the NAME is new. `User::new` decides a user's permissions
and home directory from the id alone: id 0 gets `Admin` and `/root`.

The maps are the ordered association lists of `Lib.KeyMap`, strings are
lists of characters, and `CURRENT_USER`, the global `AtomicU32` with the
id of the logged-in user, is passed to the functions that read it and
returned by the one that stores it.
-/

namespace OspabOs.Auth

/-- `Permission`. -/
inductive Permission where
  | read
  | write
  | execute
  | admin
  deriving DecidableEq, Repr

/-- `simple_hash`: over the UTF-8 bytes, `hash * 31 + byte`, wrapping. -/
def simpleHash (s : List Char) : UInt32 :=
  (Text.encode s).foldl (fun hash byte => hash * 31 + byte.toUInt32) 0

/-- `User`. -/
structure User where
  id : UInt32
  name : List Char
  passwordHash : UInt32
  permissions : List Permission
  homeDir : List Char
  deriving DecidableEq, Repr

namespace User

/-- `User::new`: the id alone decides the permissions and the home. -/
def new (id : UInt32) (name password : List Char) : User where
  id := id
  name := name
  passwordHash := simpleHash password
  permissions := if id == 0 then [.read, .write, .execute, .admin] else [.read, .write, .execute]
  homeDir := if id == 0 then "/root".toList else "/home/".toList ++ name

/-- `User::has_permission`. -/
def hasPermission (u : User) (perm : Permission) : Bool := u.permissions.contains perm

/-- `User::check_password`. -/
def checkPassword (u : User) (password : List Char) : Bool := simpleHash password == u.passwordHash

@[simp] theorem new_id (id : UInt32) (name password : List Char) : (new id name password).id = id := rfl

@[simp] theorem new_name (id : UInt32) (name password : List Char) : (new id name password).name = name := rfl

/-- `Admin` is granted on the id and nothing else. -/
@[simp] theorem new_hasPermission_admin (id : UInt32) (name password : List Char) :
    (new id name password).hasPermission .admin = true ↔ id = 0 := by
  by_cases root : id = 0
  · subst root
    simp [new, hasPermission]
  · simp [new, hasPermission, root]

theorem new_checkPassword (id : UInt32) (name password : List Char) :
    (new id name password).checkPassword password = true :=
  beq_self_eq_true (simpleHash password)

end User

/-- `UserManager`. -/
structure UserManager where
  users : List (UInt32 × User)
  usersByName : List (List Char × UInt32)
  nextId : UInt32

namespace UserManager

/-- `UserManager::new`: 0 is kept for root. -/
def new : UserManager where
  users := []
  usersByName := []
  nextId := 1

/-- `UserManager::init`: root (id 0) and the default user `ospab` (id 1). -/
def init (m : UserManager) : UserManager :=
  let root := User.new 0 "root".toList "root".toList
  let m := { m with users := KeyMap.insert 0 root m.users,
                    usersByName := KeyMap.insert "root".toList 0 m.usersByName }
  let user := User.new 1 "ospab".toList "ospab".toList
  let m := { m with users := KeyMap.insert 1 user m.users,
                    usersByName := KeyMap.insert "ospab".toList 1 m.usersByName }
  { m with nextId := 2 }

/-- `UserManager::authenticate`: the user the name leads to, if the
password matches. -/
def authenticate (m : UserManager) (username password : List Char) : Option User :=
  match KeyMap.get? username m.usersByName with
  | some userId =>
    match KeyMap.get? userId m.users with
    | some user => if user.checkPassword password then some user else none
    | none => none
  | none => none

/-- `UserManager::get_user`. -/
def getUser (m : UserManager) (id : UInt32) : Option User := KeyMap.get? id m.users

/-- `UserManager::get_user_by_name`. -/
def getUserByName (m : UserManager) (name : List Char) : Option User :=
  (KeyMap.get? name m.usersByName).bind fun id => KeyMap.get? id m.users

/-- `UserManager::current_user`, given `CURRENT_USER`. -/
def currentUser (m : UserManager) (currentUid : UInt32) : Option User := m.getUser currentUid

/-- `UserManager::switch_user`: the result, and `CURRENT_USER` after it. -/
def switchUser (m : UserManager) (currentUid : UInt32) (username password : List Char) :
    Except (List Char) Unit × UInt32 :=
  match m.authenticate username password with
  | some user => (.ok (), user.id)
  | none => (.error "Authentication failed".toList, currentUid)

/-- `UserManager::add_user`: a new NAME gets the next id, whatever that id
already holds. -/
def addUser (m : UserManager) (name password : List Char) : Except (List Char) UInt32 × UserManager :=
  if (KeyMap.get? name m.usersByName).isSome then (.error "User already exists".toList, m)
  else
    let id := m.nextId
    let m := { m with nextId := m.nextId + 1 }
    let user := User.new id name password
    let m := { m with users := KeyMap.insert id user m.users,
                      usersByName := KeyMap.insert name id m.usersByName }
    (.ok id, m)

/-- `UserManager::list_users`: the users in id order. -/
def listUsers (m : UserManager) : List User := m.users.map Prod.snd

/-- `auth::check_permission`. -/
def checkPermission (m : UserManager) (userId : UInt32) (perm : Permission) : Bool :=
  match m.getUser userId with
  | some user => user.hasPermission perm
  | none => false

/-- `auth::current_username`, given `CURRENT_USER`. -/
def currentUsername (m : UserManager) (currentUid : UInt32) : List Char :=
  match m.currentUser currentUid with
  | some user => user.name
  | none => "unknown".toList

/-- A sequence of `add_user(name, password)` calls, as the shell's
`useradd` makes them. -/
def addUsers (m : UserManager) (calls : List (List Char × List Char)) : UserManager :=
  calls.foldl (fun m call => (m.addUser call.1 call.2).2) m

/-! ## What `add_user` does -/

variable {m : UserManager} {name password : List Char}

/-- A taken name is refused, and nothing changes. -/
theorem addUser_of_taken (taken : (KeyMap.get? name m.usersByName).isSome) :
    m.addUser name password = (.error "User already exists".toList, m) := by
  simp [addUser, taken]

/-- A new name gets `next_id`, stored in both maps, and the counter moves on. -/
theorem addUser_of_fresh (fresh : KeyMap.get? name m.usersByName = none) :
    m.addUser name password =
      (.ok m.nextId, { users := KeyMap.insert m.nextId (User.new m.nextId name password) m.users,
                       usersByName := KeyMap.insert name m.nextId m.usersByName,
                       nextId := m.nextId + 1 }) := by
  simp [addUser, fresh]

/-- Whatever the call, no other name's entry changes. -/
theorem get?_usersByName_addUser {other : List Char} (ne : other ≠ name) :
    KeyMap.get? other (m.addUser name password).2.usersByName = KeyMap.get? other m.usersByName := by
  cases found : KeyMap.get? name m.usersByName with
  | some id => rw [addUser_of_taken (by simp [found])]
  | none =>
    rw [addUser_of_fresh found]
    exact KeyMap.get?_insert_of_ne _ _ ne

@[simp] theorem addUsers_nil : m.addUsers [] = m := rfl

@[simp] theorem addUsers_cons (call : List Char × List Char) (calls : List (List Char × List Char)) :
    m.addUsers (call :: calls) = (m.addUser call.1 call.2).2.addUsers calls := rfl

/-- A name no call carries keeps its entry over the whole run. -/
theorem get?_usersByName_addUsers {other : List Char} {calls : List (List Char × List Char)}
    (absent : other ∉ calls.map Prod.fst) :
    KeyMap.get? other (m.addUsers calls).usersByName = KeyMap.get? other m.usersByName := by
  induction calls generalizing m with
  | nil => rfl
  | cons call calls ih =>
    have notHead : other ≠ call.1 := fun same => absent (same ▸ List.mem_cons_self)
    have notTail : other ∉ calls.map Prod.fst := fun mem => absent (List.mem_cons_of_mem _ mem)
    rw [addUsers_cons, ih notTail, get?_usersByName_addUser notHead]

end UserManager

end OspabOs.Auth
