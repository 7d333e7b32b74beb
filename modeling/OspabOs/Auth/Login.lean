import Mathlib
import OspabOs.Auth.Consistency

/-!
# Logging in: what `switch_user` accepts

`switch_user(name, password)` goes through `authenticate`, which follows
`users_by_name` to a user and compares `simple_hash(password)` with the
hash stored when the user was made. In a consistent database
(`Consistency`), a registered name is accepted exactly with the passwords
whose hash is the stored one, and `CURRENT_USER` becomes its id; an
unregistered name is refused and `CURRENT_USER` stays as it was
(`switchUser_of_registered`, `switchUser_of_unregistered`).

That is not "exactly the registered password": `simple_hash` starts from
0 and multiplies by 31 before it adds a byte, so a leading NUL byte adds
nothing (`simpleHash_nul_cons`), and every registered user is also
accepted with its password behind a NUL
(`switch_user_accepts_nul_prefixed_password`). Nor does it take a
character the keyboard cannot type: `31 * 'o' + 't' = 31 * 'p' + 'U'`,
so root's password `root` has the second password `ropU`.
-/

namespace OspabOs.Auth

open UserManager

/-- A leading NUL byte leaves the hash at 0 and changes nothing after it. -/
theorem simpleHash_nul_cons (s : List Char) : simpleHash ('\x00' :: s) = simpleHash s := by
  unfold simpleHash
  rw [Text.encode_cons]
  rfl

namespace Consistent

variable {k : Nat} {m : UserManager}

/-- `authenticate` of a registered user's name checks that user's password. -/
theorem authenticate_of_registered (c : Consistent k m) {u : User} (stored : KeyMap.get? u.id m.users = some u)
    (password : List Char) :
    m.authenticate u.name password = if u.checkPassword password then some u else none := by
  unfold authenticate
  rw [(c.inverse u.name u.id).mpr ⟨u, stored, rfl⟩]
  simp only [stored]

/-- A registered name is accepted exactly with the passwords whose hash is
the stored one, and `CURRENT_USER` then becomes its id. -/
theorem switchUser_of_registered (c : Consistent k m) {u : User} (stored : KeyMap.get? u.id m.users = some u)
    (currentUid : UInt32) (password : List Char) :
    m.switchUser currentUid u.name password =
      if simpleHash password = u.passwordHash then (.ok (), u.id)
      else (.error "Authentication failed".toList, currentUid) := by
  unfold switchUser
  rw [c.authenticate_of_registered stored]
  by_cases hashed : simpleHash password = u.passwordHash
  · have checked : u.checkPassword password = true := beq_iff_eq.mpr hashed
    rw [if_pos checked, if_pos hashed]
  · have refused : u.checkPassword password = false := beq_eq_false_iff_ne.mpr hashed
    rw [if_neg (by rw [refused]; decide), if_neg hashed]

end Consistent

/-- An unregistered name is refused, whatever the state, and
`CURRENT_USER` stays as it was. -/
theorem switchUser_of_unregistered {m : UserManager} {name : List Char}
    (unknown : KeyMap.get? name m.usersByName = none) (currentUid : UInt32) (password : List Char) :
    m.switchUser currentUid name password = (.error "Authentication failed".toList, currentUid) := by
  unfold switchUser authenticate
  rw [unknown]

/-- In every consistent state, a user registered with `password` is also
accepted with `'\0'` followed by `password`, a different string. -/
theorem switch_user_accepts_nul_prefixed_password {k : Nat} {m : UserManager} (c : Consistent k m) {u : User}
    {password : List Char} (stored : KeyMap.get? u.id m.users = some u)
    (given : u.passwordHash = simpleHash password) (currentUid : UInt32) :
    m.switchUser currentUid u.name ('\x00' :: password) = (.ok (), u.id) ∧ '\x00' :: password ≠ password := by
  refine ⟨?_, List.cons_ne_self _ _⟩
  rw [c.switchUser_of_registered stored, if_pos (by rw [simpleHash_nul_cons, given])]

theorem switch_user_accepts_nul_prefixed_password_root :
    new.init.switchUser 1 "root".toList ('\x00' :: "root".toList) = (.ok (), 0) ∧
      new.init.switchUser 1 "root".toList "ropU".toList = (.ok (), 0) :=
  have accepted := switch_user_accepts_nul_prefixed_password (u := rootUser) Consistent.init Consistent.init.root
    (rfl : rootUser.passwordHash = simpleHash "root".toList) 1
  ⟨accepted.1, rfl⟩

end OspabOs.Auth
