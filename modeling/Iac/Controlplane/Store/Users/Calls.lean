import Iac.Controlplane.Store.Users
import Iac.Sql.ReadCommitted.Slots
import Iac.Sql.ReadCommitted.Sweep

open sql

namespace iac_controlplane.store

/-- A call that opens, continues or revokes sessions. -/
inductive UserCall where
  | login (req : LoginRequest)
  | refresh_user_token (req : RefreshRequest)
  | set_user_password (salt user_id new_password : String)
  | disable_user (dialect : Dialect) (now : jiff.Timestamp) (user_id : String)
  | enable_user (user_id : String)

def UserCall.tx (crates : UserCrates) : UserCall → UserTx Unit
  | .login req => do
    let _ ← store.login crates req
    return ()
  | .refresh_user_token req => do
    let _ ← store.refresh_user_token crates req
    return ()
  | .set_user_password salt user_id new_password => store.set_user_password crates salt user_id new_password
  | .disable_user dialect now user_id => store.disable_user crates dialect now user_id
  | .enable_user user_id => store.enable_user user_id

/-- The user whose row the first SELECT of the call answers with. -/
def UserCall.user (crates : UserCrates) (db : sql.Rows UserTable.Row) : UserCall → Option UserRow
  | .login req => find_user req.username db
  | .refresh_user_token req => find_session (hash_token crates.toCrates req.token) req.now.to_string db
  | _ => none

/-- The user whose sessions the call revokes. -/
def UserCall.revokes : UserCall → Option String
  | .set_user_password _ user_id _ | .disable_user _ _ user_id => some user_id
  | _ => none

/-- The user can still log in with the same password. -/
def KeepsAccess (before after : UserRow) : Prop :=
  after.password_hash = before.password_hash ∧ (before.disabled_at = none → after.disabled_at = none)

/-- What a call may do that opens a session of this user, once it has read the user's row. -/
def opener_rights (user_id : String) : Rights UserTable.Row where
  select := False
  update
    | .users, _, _ => False
    | .user_tokens, _, new => new = none
  insert
    | .users, _ => False
    | .user_tokens, row => row.user_id = user_id

/-- What the other calls may do. -/
def admin_rights (revokes : Option String) : Rights UserTable.Row where
  select := True
  update
    | .users, before, new =>
      ∃ after, new = some after ∧ after.id = before.id ∧ (revokes ≠ some before.id → KeepsAccess before after)
    | .user_tokens, _, new => new = none
  insert _ _ := False

def UserCall.opens : UserCall → Bool
  | .login _ | .refresh_user_token _ => true
  | _ => false

/-- The login has verified its password on this row. -/
def UserCall.verifies (crates : UserCrates) (row : UserRow) : UserCall → Bool
  | .login req => crates.verify_password req.password row.password_hash
  | _ => true

section Programs

variable {crates : UserCrates}

private theorem within_session {user_id : String} {row : UserTokenRow} {result : String × String × UserRecord}
    (h : row.user_id = user_id) :
    (do
      let _ ← Prog.insert_into unique_violation UserTable.user_tokens fun _ => row
      return result : UserTx (String × String × UserRecord)).within (opener_rights user_id) :=
  within_bind (within_insert_into fun _ => h) fun _ => within_pure _

private theorem login_checked_cases (req : LoginRequest) (row : UserRow) :
    (∃ e, login_checked crates req (some row) = .done (.error e)) ∨
      row.disabled_at = none ∧ crates.verify_password req.password row.password_hash = true ∧
        (login_checked crates req (some row)).within (opener_rights row.id) := by
  simp only [login_checked]
  by_cases hdisabled : row.disabled_at.isSome
  · exact .inl ⟨.Unauthorized, by rw [if_pos hdisabled]; rfl⟩
  · by_cases hverify : crates.verify_password req.password row.password_hash = false
    · exact .inl ⟨.Unauthorized, by rw [if_neg hdisabled, if_pos hverify]; rfl⟩
    · refine .inr ⟨by simpa using hdisabled, by simpa using hverify, ?_⟩
      rw [if_neg hdisabled, if_neg hverify]
      exact within_bind (within_ofExcept _) fun expires => within_session rfl

private theorem refresh_checked_cases (req : RefreshRequest) (row : UserRow) :
    (∃ e, refresh_checked crates req (some row) = .done (.error e)) ∨
      row.disabled_at = none ∧ (refresh_checked crates req (some row)).within (opener_rights row.id) := by
  simp only [refresh_checked]
  by_cases hdisabled : row.disabled_at.isSome
  · exact .inl ⟨.Unauthorized, by rw [if_pos hdisabled]; rfl⟩
  · refine .inr ⟨by simpa using hdisabled, ?_⟩
    rw [if_neg hdisabled]
    refine within_bind (within_ofExcept _) fun expires => ?_
    refine within_bind (within_delete_where fun _ _ => rfl) fun deleted => ?_
    split
    · exact within_throw _
    · exact within_session rfl

private theorem error_bind {α β : Type} {p : UserTx α} {k : α → UserTx β} (h : ∃ e, p = .done (.error e)) :
    ∃ e, p.bind k = .done (.error e) := by
  obtain ⟨e, rfl⟩ := h
  exact ⟨e, rfl⟩

/-- A call that opens a session reads a user first, then fails or opens one of an enabled user. -/
theorem opener_reads {call : UserCall} (h : call.opens = true) : ∃ next, call.tx crates = .select next ∧
    (∀ db, call.user crates db = none → ∃ e, next db = .done (.error e)) ∧
    ∀ db row, call.user crates db = some row → (∃ e, next db = .done (.error e)) ∨
      row.disabled_at = none ∧ call.verifies crates row = true ∧ (next db).within (opener_rights row.id) := by
  cases call with
  | set_user_password salt user_id new_password | disable_user dialect now user_id | enable_user user_id => cases h
  | login req =>
    refine ⟨fun db => (login_checked crates req ((UserCall.login req).user crates db)).bind fun _ => .done (.ok ()), rfl,
      fun db hnone => ?_, fun db row hrow => ?_⟩
    · simp only [hnone]
      exact error_bind ⟨_, rfl⟩
    · simp only [hrow]
      obtain hfails | ⟨henabled, hverified, hwithin⟩ := login_checked_cases req row
      · exact .inl (error_bind hfails)
      · exact .inr ⟨henabled, hverified, within_bind hwithin fun _ => within_pure _⟩
  | refresh_user_token req =>
    refine ⟨fun db => (refresh_checked crates req ((UserCall.refresh_user_token req).user crates db)).bind
      fun _ => .done (.ok ()), rfl, fun db hnone => ?_, fun db row hrow => ?_⟩
    · simp only [hnone]
      exact error_bind ⟨_, rfl⟩
    · simp only [hrow]
      obtain hfails | ⟨henabled, hwithin⟩ := refresh_checked_cases req row
      · exact .inl (error_bind hfails)
      · exact .inr ⟨henabled, rfl, within_bind hwithin fun _ => within_pure _⟩

private theorem keepsAccess_refl (row : UserRow) : KeepsAccess row row := ⟨rfl, fun h => h⟩

theorem KeepsAccess.trans {a b c : UserRow} (h : KeepsAccess a b) (h' : KeepsAccess b c) : KeepsAccess a c :=
  ⟨h'.1.trans h.1, fun hnone => h'.2 (h.2 hnone)⟩

private theorem within_revoke_sessions (user_id : String) (revokes : Option String) :
    (revoke_sessions user_id).within (admin_rights revokes) :=
  within_bind (within_delete_where fun _ _ => rfl) fun _ => within_pure _

private theorem within_ensure_active_admin_remains (dialect : Dialect) (user_id : String) (change : ProposedChange)
    (revokes : Option String) :
    (ensure_active_admin_remains crates.toCrates dialect user_id change).within (admin_rights revokes) := by
  have hrows : (select_users dialect).within (admin_rights revokes) := by
    cases dialect with
    | Postgres => exact within_update_where fun row _ => ⟨row, rfl, rfl, fun _ => keepsAccess_refl row⟩
    | Sqlite => exact within_query trivial _
  refine within_bind hrows fun rows => ?_
  dsimp only
  split
  · exact within_throw _
  · exact within_pure _

/-- The other calls change users as they may. -/
theorem admin_within {call : UserCall} (h : call.opens = false) : (call.tx crates).within (admin_rights call.revokes) := by
  cases call with
  | login req | refresh_user_token req => cases h
  | set_user_password salt user_id new_password =>
    simp only [UserCall.tx, set_user_password]
    split
    · exact within_throw _
    · refine within_bind (within_ofExcept _) fun hash => within_bind (within_update_where fun row hrow => ?_) fun res => ?_
      · obtain rfl : row.id = user_id := by simpa using hrow
        exact ⟨_, rfl, rfl, fun hne => absurd rfl hne⟩
      · split
        · exact within_throw _
        · exact within_revoke_sessions _ _
  | disable_user dialect now user_id =>
    simp only [UserCall.tx, disable_user]
    refine within_bind (within_ensure_active_admin_remains _ _ _ _) fun _ => ?_
    refine within_bind (within_update_where fun row hrow => ?_) fun res => ?_
    · obtain ⟨rfl, -⟩ : row.id = user_id ∧ row.disabled_at.isNone = true := by simpa using hrow
      exact ⟨_, rfl, rfl, fun hne => absurd rfl hne⟩
    · split
      · exact within_throw _
      · exact within_revoke_sessions _ _
  | enable_user user_id =>
    simp only [UserCall.tx, enable_user]
    refine within_bind (within_update_where fun row hrow => ⟨_, rfl, rfl, fun _ => ⟨rfl, fun _ => rfl⟩⟩) fun res => ?_
    split
    · exact within_throw _
    · exact within_pure _

private theorem leaves_ensure_active_admin_remains (dialect : Dialect) (user_id : String) (change : ProposedChange) :
    (ensure_active_admin_remains crates.toCrates dialect user_id change).leaves UserTable.user_tokens := by
  have hrows : (select_users dialect).leaves UserTable.user_tokens := by
    cases dialect with
    | Postgres => exact leaves_update_where (by decide) _ _
    | Sqlite => exact leaves_query _
  refine leaves_bind hrows fun rows => ?_
  dsimp only
  split
  · exact leaves_throw _
  · exact leaves_pure _

/-- A reset and a disable delete the user's sessions before they commit. -/
theorem revoker_sweeps {call : UserCall} {user_id : String} (h : call.revokes = some user_id) :
    (call.tx crates).sweeps UserTable.user_tokens fun token => token.user_id == user_id := by
  cases call with
  | login req | refresh_user_token req | enable_user user_id => cases h
  | set_user_password salt user_id' new_password =>
    obtain rfl := Option.some.inj h
    simp only [UserCall.tx, set_user_password]
    split
    · exact sweeps_throw _
    · refine sweeps_bind (leaves_ofExcept _) fun hash => sweeps_bind (leaves_update_where (by decide) _ _) fun res => ?_
      split
      · exact sweeps_throw _
      · exact sweeps_delete_where ()
  | disable_user dialect now user_id' =>
    obtain rfl := Option.some.inj h
    simp only [UserCall.tx, disable_user]
    refine sweeps_bind (leaves_ensure_active_admin_remains _ _ _) fun _ => ?_
    refine sweeps_bind (leaves_update_where (by decide) _ _) fun res => ?_
    split
    · exact sweeps_throw _
    · exact sweeps_delete_where ()

end Programs

end iac_controlplane.store
