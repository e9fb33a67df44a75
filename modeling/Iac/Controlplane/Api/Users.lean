import Iac.Collections.Commits
import Iac.Collections.Effect
import Iac.Controlplane.Store.Audit
import Iac.Controlplane.Store.Users.LastAdmin
import Iac.Controlplane.Store.Users

open iac_controlplane.identity iac_controlplane.store serde_json sql

namespace iac_controlplane.api.users

structure UpdateUserRequest where
  roles : Option (List String) := none
  disabled : Option Bool := none
  password : Option String := none

/-- A call of `update_user` with the salt that `hash_password` draws and the clock, at the change and at its audit row. -/
structure UpdateUser where
  identity : Identity
  user_id : String
  req : UpdateUserRequest
  salt : String
  now : jiff.Timestamp
  audit_now : jiff.Timestamp

/-- The tables of the users and those of the store, with the audit chain. -/
structure Tables where
  users : sql.Db UserTable.Row
  store : Store

/-- A transaction of its own on the tables of the users. -/
def on_users {α : Type} (p : UserTx α) : effect.Prog Tables ApiError α :=
  effect.of_fun fun s => ((p.exec s.users).1, { s with users := (p.exec s.users).2 })

def on_store {α : Type} (p : Tx α) : effect.Prog Tables ApiError α :=
  effect.of_fun fun s => ((p.exec s.store).1, { s with store := (p.exec s.store).2 })

def of_except {α : Type} (result : Except ApiError α) : effect.Prog Tables ApiError α :=
  effect.of_fun fun s => (result, s)

def parse_role (name : String) : Except ApiError Role :=
  match role_of_name name with
  | some role => .ok role
  | none => .error (.BadRequest ("unknown role " ++ str.debug name ++ "; valid: viewer | operator | approver | admin"))

def parse_roles (roles : List String) : Except ApiError (List Role) := roles.mapM parse_role

section Handler

variable (crates : UserCrates) (dialect : Dialect) (call : UpdateUser)

def update_roles : effect.Prog Tables ApiError (List String) :=
  match call.req.roles with
  | none => return []
  | some roles_strs => do
    let roles ← of_except (parse_roles roles_strs)
    on_users (update_user_roles crates dialect call.user_id roles)
    return ["roles"]

def update_disabled : effect.Prog Tables ApiError (List String) :=
  match call.req.disabled with
  | none => return []
  | some true => do
    on_users (disable_user crates dialect call.now call.user_id)
    return ["disabled"]
  | some false => do
    on_users (enable_user call.user_id)
    return ["enabled"]

def update_password : effect.Prog Tables ApiError (List String) :=
  match call.req.password with
  | none => return []
  | some new_password => do
    on_users (set_user_password crates call.salt call.user_id new_password)
    return ["password"]

def update_audit (applied : List String) : AuditRecord :=
  { actor := call.identity.audit_actor, kind := "user.updated"
    payload := json [("user_id", .string call.user_id), ("fields", .array (applied.map .string)),
      ("roles", (call.req.roles.map fun roles => Value.array (roles.map .string)).getD .null),
      ("disabled", (call.req.disabled.map Value.bool).getD .null), ("password_changed", .bool call.req.password.isSome)] }

def update_user : effect.Prog Tables ApiError (List String) := do
  let _ ← of_except (require_role call.identity .Admin)
  let roles ← update_roles crates dialect call
  let disabled ← update_disabled crates dialect call
  let password ← update_password crates call
  let applied := roles ++ disabled ++ password
  if applied.isEmpty then
    throw (.BadRequest "request must set at least one of: roles, disabled, password")
  else do
    on_store (record_audit_on crates.toCrates call.audit_now.to_string (update_audit call applied))
    return applied

end Handler

/-- The fields that the request sets. -/
def requested (req : UpdateUserRequest) : List String :=
  (if req.roles.isSome then ["roles"] else []) ++
    (match req.disabled with | none => [] | some true => ["disabled"] | some false => ["enabled"]) ++
    if req.password.isSome then ["password"] else []

/-- The text that the roles of the request are stored as. -/
def UpdateUser.roles_json (crates : UserCrates) (call : UpdateUser) : Option String :=
  match call.req.roles.map parse_roles with
  | some (.ok roles) => some (crates.to_string (roles_value roles))
  | _ => none

def UpdateUser.disabled_at (call : UpdateUser) : Option (Option String) :=
  call.req.disabled.map fun disabled => if disabled then some call.now.to_string else none

def UpdateUser.password_hash (crates : UserCrates) (call : UpdateUser) : Option String :=
  match call.req.password.map (hash_password crates call.salt) with
  | some (.ok hash) => some hash
  | _ => none

/-- The row of a user with every field of the request set, and no other. -/
def UpdateUser.write (crates : UserCrates) (call : UpdateUser) (row : UserRow) : UserRow :=
  if row.id = call.user_id then
    { row with
      roles_json := (call.roles_json crates).getD row.roles_json
      disabled_at := call.disabled_at.getD row.disabled_at
      password_hash := (call.password_hash crates).getD row.password_hash }
  else row

/-- The fields of a user that differ. -/
def changed_fields (before after : UserRow) : List String :=
  (if after.roles_json ≠ before.roles_json then ["roles"] else []) ++
    (if after.disabled_at ≠ before.disabled_at then [if after.disabled_at.isSome then "disabled" else "enabled"] else []) ++
    if after.password_hash ≠ before.password_hash then ["password"] else []

/-- An error leaves the users and their sessions as they were. A change of them is
of the one user, is answered with success and leaves one audit row, which lists the
fields that differ. -/
structure Audited (crates : UserCrates) (call : UpdateUser) (before after : Tables) (answer : Except ApiError (List String)) :
    Prop where
  refused : ∀ e, answer = .error e → after.users.rows = before.users.rows
  changed : after.users.rows ≠ before.users.rows → ∃ fields change, answer = .ok fields ∧
    (∃ prev_hash id, after.store.rows .audit_events = before.store.rows .audit_events ++
      [audit_row crates.toCrates call.audit_now.to_string prev_hash (update_audit call fields) id]) ∧
    after.users.rows .users = (before.users.rows .users).map change ∧
    ∀ row ∈ before.users.rows .users,
      if row.id = call.user_id then fields = changed_fields row (change row) else change row = row

/-- A change of one user by one call of the store. -/
inductive UserUpdate where
  | update_user_roles (roles : List Role)
  | disable_user (now : jiff.Timestamp)
  | enable_user
  | set_user_password (salt new_password : String)

section Updates

variable (crates : UserCrates) (dialect : Dialect) (user_id : String)

def UserUpdate.tx : UserUpdate → UserTx Unit
  | .update_user_roles roles => store.update_user_roles crates dialect user_id roles
  | .disable_user now => store.disable_user crates dialect now user_id
  | .enable_user => store.enable_user user_id
  | .set_user_password salt new_password => store.set_user_password crates salt user_id new_password

/-- The change takes away the last active admin. -/
def loses_admin (change : ProposedChange) (users : List UserRow) : Prop :=
  0 < users.countP (fun row => active_admin row.disabled_at.isSome (store.parse_roles crates.toCrates row.roles_json)) ∧
    users.countP (active_admin_after crates.toCrates user_id change) = 0

instance (change : ProposedChange) (users : List UserRow) : Decidable (loses_admin crates user_id change users) :=
  inferInstanceAs (Decidable (_ ∧ _))

/-- What the call checks before its UPDATE. -/
def UserUpdate.barred (users : List UserRow) : UserUpdate → Bool
  | .update_user_roles roles => decide (loses_admin crates user_id (.SetRoles roles) users)
  | .disable_user _ => decide (loses_admin crates user_id .Disable users)
  | .enable_user => false
  | .set_user_password salt new_password => new_password.isEmpty || !(hash_password crates salt new_password).isOk

/-- The rows that the UPDATE is for. -/
def UserUpdate.which : UserUpdate → UserRow → Bool
  | .update_user_roles _, user | .set_user_password _ _, user => user.id == user_id
  | .disable_user _, user => user.id == user_id && user.disabled_at.isNone
  | .enable_user, user => user.id == user_id && user.disabled_at.isSome

def UserUpdate.change : UserUpdate → UserRow → UserRow
  | .update_user_roles roles, user => { user with roles_json := crates.to_string (roles_value roles) }
  | .disable_user now, user => { user with disabled_at := some now.to_string }
  | .enable_user, user => { user with disabled_at := none }
  | .set_user_password salt new_password, user =>
    match hash_password crates salt new_password with
    | .ok hash => { user with password_hash := hash }
    | .error _ => user

def UserUpdate.revokes : UserUpdate → Bool
  | .update_user_roles _ | .enable_user => false
  | .disable_user _ | .set_user_password _ _ => true

/-- The call answers with an error. -/
def UserUpdate.refuses (update : UserUpdate) (rows : sql.Rows UserTable.Row) : Bool :=
  update.barred crates user_id (rows .users) || !(rows .users).any (update.which user_id)

/-- The rows after a call that is not refused. -/
def UserUpdate.write (update : UserUpdate) (rows : sql.Rows UserTable.Row) : sql.Rows UserTable.Row
  | .users => (rows .users).map (updated (update.which user_id) (update.change crates))
  | .user_tokens => (rows .user_tokens).filter fun t => !(update.revokes && t.user_id == user_id)

theorem UserUpdate.id_of_which {update : UserUpdate} {user_id : String} {user : UserRow}
    (h : update.which user_id user = true) : user.id = user_id := by
  cases update <;> simp only [UserUpdate.which, Bool.and_eq_true, beq_iff_eq] at h <;> simp only [h]

theorem UserUpdate.change_id {crates : UserCrates} (update : UserUpdate) (user : UserRow) :
    (update.change crates user).id = user.id := by
  cases update with
  | update_user_roles | disable_user | enable_user => rfl
  | set_user_password salt new_password =>
    rw [UserUpdate.change]
    split <;> rfl

end Updates

section Calls

variable {crates : UserCrates} {dialect : Dialect} {user_id : String} {db : sql.Db UserTable.Row}

private theorem run_ensure_active_admin_remains (change : ProposedChange) :
    (ensure_active_admin_remains crates.toCrates dialect user_id change).run db =
      (if loses_admin crates user_id change (db.rows .users) then
        .error (.Conflict "refusing change: at least one active admin must remain") else .ok (), db) := by
  have hselect : (select_users dialect).run db = (.ok (db.rows .users), db) := by
    cases dialect with
    | Postgres =>
      have hall : (db.rows .users).map (updated (fun _ => true) id) = db.rows .users := by
        rw [List.map_congr_left fun _ _ => updated_of_true rfl, List.map_id]
      rw [select_users, run_update_where, hall, Db.set_rows_rows]
      simp
    | Sqlite => rfl
  rw [ensure_active_admin_remains, run_bind_ok hselect]
  by_cases hloses : loses_admin crates user_id change (db.rows .users)
  · rw [if_pos hloses]
    exact congrArg (fun p : UserTx Unit => p.run db) (if_pos hloses)
  · rw [if_neg hloses]
    exact congrArg (fun p : UserTx Unit => p.run db) (if_neg hloses)

/-- The UPDATE of a call and what comes after it. -/
private def change_user (crates : UserCrates) (user_id : String) (update : UserUpdate) : UserTx Unit := do
  let res ← Prog.update_where UserTable.users (update.which user_id) (update.change crates)
  if res.length = 0 then
    Prog.throw .NotFound
  else if update.revokes then
    revoke_sessions user_id
  else
    return ()

variable (crates) in
private theorem run_change_user {update : UserUpdate} (h : (db.rows .users).any (update.which user_id) = true) :
    ∃ after, (change_user crates user_id update).run db = (.ok (), after) ∧
      after.rows = update.write crates user_id db.rows := by
  have hsome : (((db.rows .users).filter (update.which user_id)).map (update.change crates)).length ≠ 0 := by
    simpa [List.filter_eq_nil_iff] using h
  rw [change_user, run_bind_ok (run_update_where _ _ _ _), if_neg hsome]
  cases hrevokes : update.revokes with
  | true =>
    refine ⟨_, rfl, funext fun t => ?_⟩
    cases t with
    | users => simp [UserUpdate.write]
    | user_tokens => simp [UserUpdate.write, hrevokes, filterMap_rewrite_none]
  | false =>
    refine ⟨_, rfl, funext fun t => ?_⟩
    cases t with
    | users => simp [UserUpdate.write]
    | user_tokens => simp [UserUpdate.write, hrevokes]

variable (crates) in
private theorem run_change_no_user {update : UserUpdate} (h : (db.rows .users).any (update.which user_id) = false) :
    ((change_user crates user_id update).run db).1 = .error .NotFound := by
  have hnone : (((db.rows .users).filter (update.which user_id)).map (update.change crates)).length = 0 := by
    simpa [List.filter_eq_nil_iff] using h
  rw [change_user, run_bind_ok (run_update_where _ _ _ _), if_pos hnone]
  rfl

private theorem run_of_barred {update : UserUpdate} (h : update.barred crates user_id (db.rows .users) = true) :
    ∃ e, ((update.tx crates dialect user_id).run db).1 = .error e := by
  cases update with
  | update_user_roles roles =>
    rw [UserUpdate.tx, store.update_user_roles, run_bind, run_ensure_active_admin_remains, if_pos (of_decide_eq_true h)]
    exact ⟨_, rfl⟩
  | disable_user now =>
    rw [UserUpdate.tx, store.disable_user, run_bind, run_ensure_active_admin_remains, if_pos (of_decide_eq_true h)]
    exact ⟨_, rfl⟩
  | enable_user => cases h
  | set_user_password salt new_password =>
    rw [UserUpdate.tx, store.set_user_password]
    split_ifs with hempty
    · exact ⟨_, rfl⟩
    · cases hhash : hash_password crates salt new_password with
      | ok hash => simp [UserUpdate.barred, hempty, hhash, Except.isOk, Except.toBool] at h
      | error e => exact ⟨e, rfl⟩

variable (dialect) in
private theorem run_of_not_barred {update : UserUpdate} (h : update.barred crates user_id (db.rows .users) = false) :
    (update.tx crates dialect user_id).run db = (change_user crates user_id update).run db := by
  cases update with
  | update_user_roles roles =>
    rw [UserUpdate.tx, store.update_user_roles, run_bind, run_ensure_active_admin_remains, if_neg (of_decide_eq_false h)]
    rfl
  | disable_user now =>
    rw [UserUpdate.tx, store.disable_user, run_bind, run_ensure_active_admin_remains, if_neg (of_decide_eq_false h)]
    rfl
  | enable_user => rfl
  | set_user_password salt new_password =>
    obtain ⟨hnonempty, hok⟩ : new_password.isEmpty = false ∧ (hash_password crates salt new_password).isOk = true := by
      simpa [UserUpdate.barred] using h
    rw [UserUpdate.tx, store.set_user_password, if_neg (by simp [hnonempty])]
    cases hhash : hash_password crates salt new_password with
    | ok hash =>
      have hchange : UserUpdate.change crates (.set_user_password salt new_password) =
          fun user => { user with password_hash := hash } := by
        funext user
        rw [UserUpdate.change, hhash]
      rw [change_user, hchange]
      rfl
    | error e =>
      rw [hhash] at hok
      cases hok

private theorem exec_of_error {p : UserTx Unit} {e : ApiError} (h : (p.run db).1 = .error e) :
    (p.exec db).1 = .error e ∧ (p.exec db).2.rows = db.rows := by
  rcases hrun : p.run db with ⟨result, after⟩
  rw [hrun] at h
  obtain rfl : result = .error e := h
  rw [exec_of_run_error hrun]
  exact ⟨rfl, rfl⟩

variable (crates dialect user_id db) in
/-- A call leaves the rows as they were when it is refused, and else it makes its change. -/
theorem exec_update (update : UserUpdate) :
    (update.refuses crates user_id db.rows = true →
      ∃ e, ((update.tx crates dialect user_id).exec db).1 = .error e ∧
        ((update.tx crates dialect user_id).exec db).2.rows = db.rows) ∧
    (update.refuses crates user_id db.rows = false →
      ((update.tx crates dialect user_id).exec db).1 = .ok () ∧
        ((update.tx crates dialect user_id).exec db).2.rows = update.write crates user_id db.rows) := by
  cases hbarred : update.barred crates user_id (db.rows .users) with
  | true =>
    obtain ⟨e, herror⟩ := run_of_barred hbarred
    refine ⟨fun _ => ⟨e, exec_of_error herror⟩, fun h => ?_⟩
    simp [UserUpdate.refuses, hbarred] at h
  | false =>
    have hrun := run_of_not_barred dialect hbarred
    cases hsome : (db.rows .users).any (update.which user_id) with
    | true =>
      obtain ⟨after, hafter, hrows⟩ := run_change_user crates hsome
      rw [hafter] at hrun
      refine ⟨fun h => ?_, fun _ => ?_⟩
      · simp [UserUpdate.refuses, hbarred, hsome] at h
      · rw [exec_of_run_ok hrun]
        exact ⟨rfl, hrows⟩
    | false =>
      have hnone := run_change_no_user crates hsome
      rw [← hrun] at hnone
      refine ⟨fun _ => ⟨.NotFound, exec_of_error hnone⟩, fun h => ?_⟩
      simp [UserUpdate.refuses, hbarred, hsome] at h

end Calls

end iac_controlplane.api.users
