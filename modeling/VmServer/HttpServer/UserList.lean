import VmServer.HttpServer.Reload
import VmServer.Library.Keyed

/-!
# The entry that an upsert writes

`apiAddUser` and `-add-user` change the user list in the same way: the first
entry with the name is replaced, or one is added at the end. The checks that
come before and the arguments they are about differ.
-/

namespace VmServer.HttpServer

open Config

/-- The configuration with an entry in the place of the first one under its name, or at the
end. -/
def withUser (cfg : Config) (u : User) : Config :=
  { cfg with users := Keyed.put User.username u cfg.users }

section Entry

variable {cfg : Config} {name hash : String} {admin : Bool}

theorem modifyUser_eq_withUser (found : (cfg.findUser name).isSome) :
    cfg.modifyUser name (fun u => { u with passwordHash := hash, admin }) =
      withUser cfg ⟨name, hash, admin⟩ := by
  have found : (Keyed.get User.username (⟨name, hash, admin⟩ : User).username cfg.users).isSome :=
    found
  have change (u : User) (same : u.username = name) :
      { u with passwordHash := hash, admin } = (⟨name, hash, admin⟩ : User) := by rw [same]
  exact congrArg (fun users => { cfg with users }) (Keyed.modify_findIdx found change)

theorem concat_eq_withUser (missing : ¬ (cfg.findUser name).isSome) :
    { cfg with users := cfg.users ++ [⟨name, hash, admin⟩] } =
      withUser cfg ⟨name, hash, admin⟩ := by
  have missing :
      ¬ (Keyed.get User.username (⟨name, hash, admin⟩ : User).username cfg.users).isSome := missing
  exact congrArg (fun users => { cfg with users }) (Keyed.concat_of_missing missing)

/-- The upsert that `apiAddUser` and `addUserCmd` share. -/
theorem upsert_eq_withUser :
    (if (cfg.findUser name).isSome then
      cfg.modifyUser name fun u => { u with passwordHash := hash, admin }
    else { cfg with users := cfg.users ++ [⟨name, hash, admin⟩] }) =
      withUser cfg ⟨name, hash, admin⟩ := by
  split
  · exact modifyUser_eq_withUser ‹_›
  · exact concat_eq_withUser ‹_›

theorem findUser_withUser :
    (withUser cfg ⟨name, hash, admin⟩).findUser name = some ⟨name, hash, admin⟩ :=
  Keyed.get_put_self User.username ⟨name, hash, admin⟩ cfg.users

theorem findUser_withUser_of_ne {other : String} (apart : other ≠ name) :
    (withUser cfg ⟨name, hash, admin⟩).findUser other = cfg.findUser other :=
  Keyed.get_put_of_ne apart

theorem others_withUser :
    (withUser cfg ⟨name, hash, admin⟩).users.filter (·.username ≠ name) =
      cfg.users.filter (·.username ≠ name) :=
  Keyed.filter_put User.username ⟨name, hash, admin⟩ cfg.users

/-- A search after a change of one user's entry that keeps its name. -/
theorem findUser_modifyUser {username : String} {change : User → User} {u : User}
    (found : cfg.findUser name = some u) (keep : ∀ u, (change u).username = u.username) :
    (cfg.modifyUser username change).findUser name =
      some (if username = name then change u else u) := by
  by_cases same : username = name
  · subst same
    rw [if_pos rfl]
    exact (Keyed.get_modify_self keep).trans (congrArg (Option.map change) found)
  · rw [if_neg same]
    exact (Keyed.get_modify_of_ne keep (Ne.symm same)).trans found

end Entry

/-- What `apiAddUser` asks of its request, and the entry it writes. -/
theorem checkAddUser_eq_ok {cfg d : Config} {a : Answers} {body : UserBody} :
    checkAddUser cfg a (some body) = .ok d ↔
      trimSpace body.username ≠ "" ∧ 8 ≤ body.password.utf8ByteSize ∧
        ∃ hash, a.hashPassword body.password = .ok hash ∧
          d = withUser cfg ⟨trimSpace body.username, hash, body.admin⟩ := by
  simp only [checkAddUser, ← apply_ite Except.ok, upsert_eq_withUser]
  split
  · rename_i refused
    refine ⟨fun h => (by cases h), ?_⟩
    rintro ⟨named, long, _⟩
    exact (refused.elim named (Nat.not_lt.mpr long)).elim
  · rename_i accepted
    obtain ⟨named, short⟩ := not_or.mp accepted
    cases a.hashPassword body.password with
    | error text => simp
    | ok hash => simp [named, Nat.not_lt.mp short, eq_comm]

/-- What `-add-user` asks of its specification, and the entry it writes. -/
theorem addUserCmd_eq_ok {cfg d : Config} {spec : String}
    {hashPassword : String → Except String String} :
    addUserCmd cfg spec hashPassword = .ok d ↔
      ∃ username password rest, splitSpec spec = username :: password :: rest ∧
        username ≠ "" ∧ 8 ≤ password.utf8ByteSize ∧
          ∃ hash, hashPassword password = .ok hash ∧
            d = withUser cfg ⟨username, hash, rest = ["admin"]⟩ := by
  simp only [addUserCmd, ← apply_ite Except.ok, upsert_eq_withUser]
  split
  · rename_i username password rest pieces
    split
    · rename_i refused
      refine ⟨fun h => (by cases h), ?_⟩
      rintro ⟨_, _, _, same, named, long, _⟩
      obtain ⟨rfl, rfl, rfl⟩ := by simpa using pieces.symm.trans same
      exact (refused.elim named (Nat.not_lt.mpr long)).elim
    · rename_i accepted
      obtain ⟨named, short⟩ := not_or.mp accepted
      cases hashed : hashPassword password with
      | error text =>
          refine ⟨fun h => (by cases h), ?_⟩
          rintro ⟨_, _, _, same, _, _, hash, made, _⟩
          obtain ⟨rfl, rfl, rfl⟩ := by simpa using pieces.symm.trans same
          cases hashed.symm.trans made
      | ok hash =>
          refine ⟨fun h => ⟨username, password, rest, pieces, named, Nat.not_lt.mp short, hash,
            hashed, (Except.ok.inj h).symm⟩, ?_⟩
          rintro ⟨_, _, _, same, _, _, hash', made, rfl⟩
          obtain ⟨rfl, rfl, rfl⟩ := by simpa using pieces.symm.trans same
          obtain rfl := Except.ok.inj (hashed.symm.trans made)
          rfl
  · rename_i other
    refine ⟨fun h => (by cases h), ?_⟩
    rintro ⟨username, password, rest, pieces, _⟩
    exact (other username password rest pieces).elim

end VmServer.HttpServer
