import Iac.Controlplane.Identity
import Iac.Controlplane.Store.Agents
import Iac.Core.Text
import Iac.Core.Timestamp
import Iac.Core.Timestamp.Order
import Mathlib.Data.List.Nodup

open iac_controlplane.identity serde_json sql

namespace iac_controlplane.store

structure UserRow where
  id : String
  username : String
  password_hash : String
  roles_json : String
  created_at : String
  disabled_at : Option String := none

structure UserTokenRow where
  token_hash : String
  user_id : String
  issued_at : String
  expires_at : String

/-- The tables of the identities. No transaction writes both one of them and a table of operations. -/
inductive UserTable where
  | users
  | user_tokens
  deriving DecidableEq, Repr

@[reducible] def UserTable.Row : UserTable → Type
  | .users => UserRow
  | .user_tokens => UserTokenRow

def UserTable.clash : (t : UserTable) → t.Row → t.Row → Bool
  | .users, a, b => a.id == b.id || a.username == b.username
  | .user_tokens, a, b => a.token_hash == b.token_hash

instance : sql.Schema UserTable.Row := ⟨UserTable.clash⟩

abbrev UserTx (α : Type) := sql.Prog UserTable.Row ApiError α

/-- The functions of the argon2 crate, beside the others: the PHC text of a
password under a salt, and the check of a password against a PHC text. A text
that is none matches no password. -/
structure UserCrates extends Crates where
  hash_password : String → String → Except String String
  verify_password : String → String → Bool

def role_of_name : String → Option Role
  | "viewer" => some .Viewer
  | "operator" => some .Operator
  | "approver" => some .Approver
  | "admin" => some .Admin
  | _ => none

def role_of_value : Value → Option Role
  | .string name => role_of_name name
  | .object [(name, .null)] => role_of_name name
  | _ => none

/-- `serde_json::from_str(..).unwrap_or_default()` at a list of roles. -/
def parse_roles (crates : Crates) (roles_json : String) : List Role :=
  match crates.from_str roles_json with
  | .ok (.array items) => (items.mapM role_of_value).getD []
  | _ => []

def role_name : Role → String
  | .Viewer => "viewer"
  | .Operator => "operator"
  | .Approver => "approver"
  | .Admin => "admin"

/-- What `serde_json::to_string` makes of a list of roles. -/
def roles_value (roles : List Role) : Value :=
  .array (roles.map fun role => .string (role_name role))

theorem role_of_role_name (role : Role) : role_of_name (role_name role) = some role := by
  cases role <;> rfl

/-- A stored list of roles is read as it was written. -/
theorem parse_roles_roles_value {crates : Crates} {roles_json : String} {roles : List Role}
    (h : crates.from_str roles_json = .ok (roles_value roles)) : parse_roles crates roles_json = roles := by
  have hroles : (roles.map fun role => Value.string (role_name role)).mapM role_of_value = some roles := by
    clear h
    induction roles with
    | nil => rfl
    | cons role roles ih => simp [role_of_value, role_of_role_name, ih]
  simp [parse_roles, h, roles_value, hroles]

structure UserRecord where
  id : String
  username : String
  roles : List Role

def user_record (crates : Crates) (row : UserRow) : UserRecord :=
  { id := row.id, username := row.username, roles := parse_roles crates row.roles_json }

/-- The expiry of a token, as the text of `ApiError::Internal` prints jiff's error. -/
def user_token_expiry (now : jiff.Timestamp) (ttl_secs : Int) : Except ApiError String :=
  if jiff.max_span_seconds < ttl_secs.natAbs then .error (.Internal "ttl span")
  else
    match now.minus_seconds (-ttl_secs) with
    | some expires => .ok expires.to_string
    | none => .error (.Internal "ttl arithmetic")

/-- A request of `create_user` with the id that `Ulid::new` mints, the salt
that `hash_password` draws and the clock. -/
structure CreateUser where
  username : String
  password : String
  roles : List Role
  id : String
  salt : String
  now : jiff.Timestamp

/-- A request of `login` with the token that `issue_token` mints and the clock. -/
structure LoginRequest where
  username : String
  password : String
  token : String
  ttl_secs : Int
  now : jiff.Timestamp

/-- A request of `refresh_user_token` with the token that `issue_token` mints and the clock. -/
structure RefreshRequest where
  token : String
  new_token : String
  ttl_secs : Int
  now : jiff.Timestamp

def find_user (username : String) (db : sql.Rows UserTable.Row) : Option UserRow :=
  (db .users).find? fun user => user.username == username

/-- The owner of a session. -/
def owner (user_id : String) (db : sql.Rows UserTable.Row) : Option UserRow :=
  (db .users).find? fun user => user.id == user_id

theorem owner_id {user_id : String} {db : sql.Rows UserTable.Row} {user : UserRow} (h : owner user_id db = some user) :
    user.id = user_id := by
  unfold owner at h
  simpa using List.find?_some h

/-- `WHERE t.token_hash = ? AND t.expires_at > ?`. -/
def presents (token_hash now : String) (row : UserTokenRow) : Bool :=
  row.token_hash == token_hash && decide (now < row.expires_at)

/-- `user_tokens t JOIN users u ON u.id = t.user_id` on an unexpired token. -/
def find_session (token_hash now : String) (db : sql.Rows UserTable.Row) : Option UserRow :=
  ((db .user_tokens).find? (presents token_hash now)).bind fun row => owner row.user_id db

def hash_password (crates : UserCrates) (salt password : String) : Except ApiError String :=
  (crates.hash_password salt password).mapError fun e => .Internal ("argon2 hash: " ++ e)

def create_user (crates : UserCrates) (req : CreateUser) : UserTx String :=
  if req.username.isEmpty || req.password.isEmpty then
    Prog.throw (.BadRequest "username and password must be non-empty")
  else do
    let hash ← Prog.ofExcept (hash_password crates req.salt req.password)
    let _ ← Prog.insert_into (.Conflict ("user " ++ str.debug req.username ++ " already exists")) UserTable.users fun _ =>
      { id := req.id, username := req.username, password_hash := hash,
        roles_json := crates.to_string (roles_value req.roles), created_at := req.now.to_string : UserRow }
    return req.id

/-- `login` from the row of its user on. -/
def login_checked (crates : UserCrates) (req : LoginRequest) : Option UserRow → UserTx (String × String × UserRecord)
  | none => Prog.throw .Unauthorized
  | some row =>
    if row.disabled_at.isSome then
      Prog.throw .Unauthorized
    else if crates.verify_password req.password row.password_hash = false then
      Prog.throw .Unauthorized
    else do
      let expires ← Prog.ofExcept (user_token_expiry req.now req.ttl_secs)
      let _ ← Prog.insert_into unique_violation UserTable.user_tokens fun _ =>
        { token_hash := hash_token crates.toCrates req.token, user_id := row.id, issued_at := req.now.to_string,
          expires_at := expires : UserTokenRow }
      return (req.token, expires, user_record crates.toCrates row)

/-- The SELECT and the INSERT are transactions of their own. As the first one
writes nothing, they are the statements of one here. -/
def login (crates : UserCrates) (req : LoginRequest) : UserTx (String × String × UserRecord) := do
  let row ← Prog.query (find_user req.username)
  login_checked crates req row

/-- `refresh_user_token` from the row of the token's owner on. -/
def refresh_checked (crates : UserCrates) (req : RefreshRequest) : Option UserRow → UserTx (String × String × UserRecord)
  | none => Prog.throw .Unauthorized
  | some row =>
    if row.disabled_at.isSome then
      Prog.throw .Unauthorized
    else do
      let expires ← Prog.ofExcept (user_token_expiry req.now req.ttl_secs)
      let deleted ← Prog.delete_where UserTable.user_tokens fun t =>
        t.token_hash == hash_token crates.toCrates req.token
      if deleted.length ≠ 1 then
        Prog.throw .Unauthorized
      else do
        let _ ← Prog.insert_into unique_violation UserTable.user_tokens fun _ =>
          { token_hash := hash_token crates.toCrates req.new_token, user_id := row.id, issued_at := req.now.to_string,
            expires_at := expires : UserTokenRow }
        return (req.new_token, expires, user_record crates.toCrates row)

def refresh_user_token (crates : UserCrates) (req : RefreshRequest) : UserTx (String × String × UserRecord) := do
  let row ← Prog.query (find_session (hash_token crates.toCrates req.token) req.now.to_string)
  refresh_checked crates req row

/-- The user that a bearer token authenticates. -/
def find_user_by_token (crates : UserCrates) (now : jiff.Timestamp) (token : String) : UserTx (Option UserRecord) := do
  let row ← Prog.query (find_session (hash_token crates.toCrates token) now.to_string)
  match row with
  | none => return none
  | some row => return if row.disabled_at.isSome then none else some (user_record crates.toCrates row)

/-- Logout. -/
def revoke_user_token (crates : UserCrates) (token : String) : UserTx Unit := do
  let _ ← Prog.delete_where UserTable.user_tokens fun t => t.token_hash == hash_token crates.toCrates token
  return ()

/-- The number of sessions whose expiry had passed. -/
def prune_expired_tokens (now : jiff.Timestamp) : UserTx Nat := do
  let deleted ← Prog.delete_where UserTable.user_tokens fun t => decide (t.expires_at ≤ now.to_string)
  return deleted.length

inductive Dialect where
  | Postgres
  | Sqlite
  deriving DecidableEq, Repr

inductive ProposedChange where
  | Disable
  | SetRoles (roles : List Role)

def active_admin (disabled : Bool) (roles : List Role) : Bool :=
  !disabled && roles.contains .Admin

/-- Whether the user is an active admin once the change is made. -/
def active_admin_after (crates : Crates) (target_user_id : String) (change : ProposedChange) (row : UserRow) : Bool :=
  if row.id = target_user_id then
    match change with
    | .Disable => active_admin true (parse_roles crates row.roles_json)
    | .SetRoles roles => active_admin row.disabled_at.isSome roles
  else active_admin row.disabled_at.isSome (parse_roles crates row.roles_json)

/-- `SELECT … FROM users`, and `FOR UPDATE` on Postgres. -/
def select_users : Dialect → UserTx (List UserRow)
  | .Postgres => Prog.update_where UserTable.users (fun _ => true) id
  | .Sqlite => Prog.query fun db => db .users

def ensure_active_admin_remains (crates : Crates) (dialect : Dialect) (target_user_id : String) (change : ProposedChange) :
    UserTx Unit := do
  let rows ← select_users dialect
  let before := rows.countP fun row => active_admin row.disabled_at.isSome (parse_roles crates row.roles_json)
  let after := rows.countP (active_admin_after crates target_user_id change)
  if 0 < before ∧ after = 0 then
    Prog.throw (.Conflict "refusing change: at least one active admin must remain")
  else
    return ()

/-- Revokes the sessions of the user. -/
def revoke_sessions (user_id : String) : UserTx Unit := do
  let _ ← Prog.delete_where UserTable.user_tokens fun t => t.user_id == user_id
  return ()

def update_user_roles (crates : UserCrates) (dialect : Dialect) (user_id : String) (roles : List Role) : UserTx Unit := do
  ensure_active_admin_remains crates.toCrates dialect user_id (.SetRoles roles)
  let res ← Prog.update_where UserTable.users (fun user => user.id == user_id) fun user =>
    { user with roles_json := crates.to_string (roles_value roles) }
  if res.length = 0 then
    Prog.throw .NotFound
  else
    return ()

def disable_user (crates : UserCrates) (dialect : Dialect) (now : jiff.Timestamp) (user_id : String) : UserTx Unit := do
  ensure_active_admin_remains crates.toCrates dialect user_id .Disable
  let res ← Prog.update_where UserTable.users (fun user => user.id == user_id && user.disabled_at.isNone) fun user =>
    { user with disabled_at := some now.to_string }
  if res.length = 0 then
    Prog.throw .NotFound
  else
    revoke_sessions user_id

def enable_user (user_id : String) : UserTx Unit := do
  let res ← Prog.update_where UserTable.users (fun user => user.id == user_id && user.disabled_at.isSome) fun user =>
    { user with disabled_at := none }
  if res.length = 0 then
    Prog.throw .NotFound
  else
    return ()

/-- `salt` is what `hash_password` draws. -/
def set_user_password (crates : UserCrates) (salt user_id new_password : String) : UserTx Unit :=
  if new_password.isEmpty then
    Prog.throw (.BadRequest "password must not be empty")
  else do
    let hash ← Prog.ofExcept (hash_password crates salt new_password)
    let res ← Prog.update_where UserTable.users (fun user => user.id == user_id) fun user =>
      { user with password_hash := hash }
    if res.length = 0 then
      Prog.throw .NotFound
    else
      revoke_sessions user_id

variable {crates : UserCrates} {db after : sql.Db UserTable.Row}

/-- The primary keys of the two tables. -/
structure Keyed (db : sql.Rows UserTable.Row) : Prop where
  users : ((db .users).map UserRow.id).Nodup
  tokens : ((db .user_tokens).map UserTokenRow.token_hash).Nodup

/-- A session with this hash and expiry, of a user that is not disabled. -/
def HasSession (db : sql.Rows UserTable.Row) (token_hash expires_at : String) : Prop :=
  ∃ row ∈ db .user_tokens, row.token_hash = token_hash ∧ row.expires_at = expires_at ∧
    ∃ user, owner row.user_id db = some user ∧ user.disabled_at = none

/-- Whether the bearer of the token is let in now. -/
def accepts (crates : UserCrates) (now : jiff.Timestamp) (db : sql.Db UserTable.Row) (token : String) : Bool :=
  match ((find_user_by_token crates now token).exec db).1 with
  | .ok (some _) => true
  | _ => false

/-- A session lets its bearer in for as long as the clock's text is before that of its expiry. -/
theorem accepts_of_session {now : jiff.Timestamp} {token expires_at : String} (hkeyed : Keyed db.rows)
    (hsession : HasSession db.rows (hash_token crates.toCrates token) expires_at) (hlive : now.to_string < expires_at) :
    accepts crates now db token = true := by
  obtain ⟨row, hrow, hhash, rfl, user, howner, henabled⟩ := hsession
  have hfind : (db.rows .user_tokens).find? (presents (hash_token crates.toCrates token) now.to_string) = some row := by
    cases hfind : (db.rows .user_tokens).find? (presents (hash_token crates.toCrates token) now.to_string) with
    | none =>
      have hnot := List.find?_eq_none.mp hfind row hrow
      simp [presents, hhash, hlive] at hnot
    | some found =>
      have hpresents : found.token_hash = hash_token crates.toCrates token ∧ now.to_string < found.expires_at := by
        simpa [presents] using List.find?_some hfind
      rw [List.inj_on_of_nodup_map hkeyed.tokens (List.mem_of_find?_eq_some hfind) hrow (hpresents.1.trans hhash.symm)]
  have hrun : (find_user_by_token crates now token).run db = (.ok (some (user_record crates.toCrates user)), db) := by
    rw [find_user_by_token, run_bind_ok (run_query _ _), find_session, hfind, Option.bind_some, howner]
    simp [henabled]
  rw [accepts, exec_of_run_ok hrun]

/-- What a call that opens a session does to the tables: the sessions that it does not revoke stay. -/
structure Opens (db after : sql.Rows UserTable.Row) (revoked : Option String) (token_hash expires_at : String) : Prop where
  keyed : Keyed after
  opened : HasSession after token_hash expires_at
  kept : ∀ hash expires, HasSession db hash expires → revoked ≠ some hash → HasSession after hash expires

theorem owner_of_mem {db : sql.Rows UserTable.Row} {user : UserRow} (hkeyed : Keyed db) (h : user ∈ db .users) :
    owner user.id db = some user := by
  cases howner : owner user.id db with
  | none => exact absurd (List.find?_eq_none.mp howner user h) (by simp)
  | some found =>
    rw [List.inj_on_of_nodup_map hkeyed.users (List.mem_of_find?_eq_some howner) h (owner_id howner)]

/-- A table of sessions without the revoked one, with the one that is opened at its end. -/
theorem opens_of_rows {db after : sql.Rows UserTable.Row} {revoked : Option String} {row : UserTokenRow} {user : UserRow}
    (hkeyed : Keyed db) (husers : after .users = db .users)
    (htokens : after .user_tokens = ((db .user_tokens).filter fun t => revoked != some t.token_hash) ++ [row])
    (hunique : row.token_hash ∉ ((db .user_tokens).filter fun t => revoked != some t.token_hash).map UserTokenRow.token_hash)
    (hid : row.user_id = user.id) (huser : user ∈ db .users) (henabled : user.disabled_at = none) :
    Opens db after revoked row.token_hash row.expires_at := by
  have howner (user_id : String) : owner user_id after = owner user_id db := by rw [owner, owner, husers]
  refine ⟨⟨husers ▸ hkeyed.users, ?_⟩, ?_, ?_⟩
  · rw [htokens, List.map_append]
    exact (hkeyed.tokens.sublist (List.filter_sublist.map _)).append (List.nodup_singleton _)
      (List.disjoint_singleton.mpr hunique)
  · refine ⟨row, by rw [htokens]; simp, rfl, rfl, user, ?_, henabled⟩
    rw [howner, hid, owner_of_mem hkeyed huser]
  · rintro hash expires ⟨kept, hmem, rfl, rfl, owned⟩ hne
    refine ⟨kept, ?_, rfl, rfl, by rwa [howner]⟩
    rw [htokens]
    exact List.mem_append_left _ (List.mem_filter.mpr ⟨hmem, by simpa using hne⟩)

theorem user_token_expiry_ok {now : jiff.Timestamp} {ttl_secs : Int} {expires_at : String}
    (h : user_token_expiry now ttl_secs = .ok expires_at) :
    ∃ expires : jiff.Timestamp, expires_at = expires.to_string ∧
      expires.nanos = now.nanos + ttl_secs * jiff.nanos_per_second := by
  rw [user_token_expiry] at h
  split_ifs at h
  split at h
  · rename_i expires hshift
    refine ⟨expires, (Except.ok.inj h).symm, ?_⟩
    rw [jiff.minus_seconds_nanos hshift, Int.neg_mul, Int.sub_neg]
  · cases h

/-- The rows after an INSERT of a session, when it violates no key. -/
private theorem insert_token {row : UserTokenRow}
    {result : String × String × UserRecord} {answer : String × String × UserRecord}
    (h : (do
      let _ ← Prog.insert_into unique_violation UserTable.user_tokens fun _ => row
      return result : UserTx (String × String × UserRecord)).run db = (.ok answer, after)) :
    answer = result ∧ after.rows .users = db.rows .users ∧ after.rows .user_tokens = db.rows .user_tokens ++ [row] ∧
      row.token_hash ∉ (db.rows .user_tokens).map UserTokenRow.token_hash := by
  obtain ⟨inserted, mid, hinsert, hreturn⟩ := run_bind_eq_ok_iff.mp h
  rw [run_insert_into] at hinsert
  split_ifs at hinsert with hclash
  · cases (Prod.mk.inj hinsert).1
  · obtain ⟨-, rfl⟩ := Prod.mk.inj hinsert
    obtain ⟨hanswer, rfl⟩ := Prod.mk.inj hreturn
    refine ⟨(Except.ok.inj hanswer).symm, by simp, by simp, fun hmem => hclash ?_⟩
    obtain ⟨old, hold, hhash⟩ := List.mem_map.mp hmem
    exact List.any_eq_true.mpr ⟨old, hold, by simp [Schema.clash, UserTable.clash, hhash]⟩

/-- What a call that answers with a session has done. -/
def Answers (crates : UserCrates) (now : jiff.Timestamp) (ttl_secs : Int) (token : String) (revoked : Option String)
    (db after : sql.Rows UserTable.Row) (answer : String × String × UserRecord) : Prop :=
  answer.1 = token ∧ user_token_expiry now ttl_secs = .ok answer.2.1 ∧
    Opens db after revoked (hash_token crates.toCrates token) answer.2.1

theorem login_cases (req : LoginRequest) (hkeyed : Keyed db.rows) :
    (∃ e after, (login crates req).exec db = (.error e, after) ∧ after.rows = db.rows) ∨
      ∃ answer after, (login crates req).exec db = (.ok answer, after) ∧
        Answers crates req.now req.ttl_secs req.token none db.rows after.rows answer := by
  refine (exec_cases (login crates req) db).imp (fun ⟨e, herror, hrows⟩ => ⟨e, _, Prod.ext herror rfl, hrows⟩) ?_
  rintro ⟨answer, after, hrun, hexec⟩
  refine ⟨answer, after, hexec, ?_⟩
  rw [login, run_bind_ok (run_query _ _)] at hrun
  cases hfind : find_user req.username db.rows with
  | none =>
    rw [hfind, login_checked, run_throw] at hrun
    cases (Prod.mk.inj hrun).1
  | some user =>
    rw [hfind, login_checked] at hrun
    split_ifs at hrun with hdisabled
    · cases (Prod.mk.inj hrun).1
    · cases (Prod.mk.inj hrun).1
    · obtain ⟨expires, hexpires, hinsert⟩ := run_ofExcept_bind_eq_ok_iff.mp hrun
      obtain ⟨rfl, husers, htokens, hunique⟩ := insert_token hinsert
      have hall : ((db.rows .user_tokens).filter fun t => none != some t.token_hash) = db.rows .user_tokens :=
        List.filter_eq_self.mpr fun _ _ => rfl
      rw [← hall] at htokens hunique
      have hopens := opens_of_rows hkeyed husers htokens hunique rfl (List.mem_of_find?_eq_some hfind)
        (by simpa using hdisabled)
      exact ⟨rfl, hexpires, hopens⟩

theorem refresh_cases (req : RefreshRequest) (hkeyed : Keyed db.rows) :
    (∃ e after, (refresh_user_token crates req).exec db = (.error e, after) ∧ after.rows = db.rows) ∨
      ∃ answer after, (refresh_user_token crates req).exec db = (.ok answer, after) ∧
        Answers crates req.now req.ttl_secs req.new_token (some (hash_token crates.toCrates req.token))
          db.rows after.rows answer := by
  refine (exec_cases (refresh_user_token crates req) db).imp
    (fun ⟨e, herror, hrows⟩ => ⟨e, _, Prod.ext herror rfl, hrows⟩) ?_
  rintro ⟨answer, after, hrun, hexec⟩
  refine ⟨answer, after, hexec, ?_⟩
  rw [refresh_user_token, run_bind_ok (run_query _ _)] at hrun
  cases hfind : find_session (hash_token crates.toCrates req.token) req.now.to_string db.rows with
  | none =>
    rw [hfind, refresh_checked, run_throw] at hrun
    cases (Prod.mk.inj hrun).1
  | some user =>
    obtain ⟨session, -, howner⟩ := Option.bind_eq_some_iff.mp hfind
    rw [hfind, refresh_checked] at hrun
    split_ifs at hrun with hdisabled
    · cases (Prod.mk.inj hrun).1
    · obtain ⟨expires, hexpires, hrest⟩ := run_ofExcept_bind_eq_ok_iff.mp hrun
      rw [run_bind_ok (run_delete_where _ _ _)] at hrest
      split_ifs at hrest with hgate
      · cases (Prod.mk.inj hrest).1
      · obtain ⟨rfl, husers, htokens, hunique⟩ := insert_token hrest
        have hsame : ((db.rows .user_tokens).filter fun t => !(t.token_hash == hash_token crates.toCrates req.token)) =
            (db.rows .user_tokens).filter fun t => some (hash_token crates.toCrates req.token) != some t.token_hash := by
          refine List.filter_congr fun t _ => ?_
          rw [bne, Option.some_beq_some, BEq.comm]
        rw [Db.set_rows_self, hsame] at htokens hunique
        rw [Db.set_rows_of_ne _ _ (by decide)] at husers
        have hopens := opens_of_rows hkeyed husers htokens hunique rfl (List.mem_of_find?_eq_some howner)
          (by simpa using hdisabled)
        exact ⟨rfl, hexpires, hopens⟩

end iac_controlplane.store
