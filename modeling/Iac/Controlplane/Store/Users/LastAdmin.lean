import Iac.Controlplane.Store.Run
import Iac.Controlplane.Store.Users
import Iac.Sql.ReadCommitted.Survivor

open iac_controlplane.identity sql

namespace iac_controlplane.store

/-- A call that makes, demotes, disables or enables users. -/
inductive AdminCall where
  | create_user (req : CreateUser)
  | update_user_roles (user_id : String) (roles : List Role)
  | disable_user (now : jiff.Timestamp) (user_id : String)
  | enable_user (user_id : String)

def AdminCall.tx (crates : UserCrates) (dialect : Dialect) : AdminCall → UserTx Unit
  | .create_user req => do
    let _ ← store.create_user crates req
    return ()
  | .update_user_roles user_id roles => store.update_user_roles crates dialect user_id roles
  | .disable_user now user_id => store.disable_user crates dialect now user_id
  | .enable_user user_id => store.enable_user user_id

/-- The roles that the call stores. -/
def AdminCall.roles : AdminCall → Option (List Role)
  | .create_user req => some req.roles
  | .update_user_roles _ roles => some roles
  | .disable_user _ _ | .enable_user _ => none

/-- The id of the user that the call changes. -/
def AdminCall.names : AdminCall → Option String
  | .create_user _ => none
  | .update_user_roles user_id _ | .disable_user _ user_id | .enable_user user_id => some user_id

/-- The id that `Ulid::new` mints for the call. -/
def AdminCall.mints : AdminCall → Option String
  | .create_user req => some req.id
  | .update_user_roles _ _ | .disable_user _ _ | .enable_user _ => none

def user_key : (t : UserTable) → t.Row → String
  | .users, row => row.id
  | .user_tokens, row => row.token_hash

/-- The rows of active admins. -/
def active_admins (crates : UserCrates) : (t : UserTable) → t.Row → Bool
  | .users, row => active_admin row.disabled_at.isSome (parse_roles crates.toCrates row.roles_json)
  | .user_tokens, _ => false

section Programs

variable {crates : UserCrates} {user_id : String} {change : ProposedChange}

private theorem spares_tokens {p : UserTokenRow → Bool} {change : UserTokenRow → Option UserTokenRow} (row : UserTokenRow)
    (_ : p row = true) : (sparing (active_admins crates)).update UserTable.user_tokens row (change row) :=
  fun h => nomatch h

private theorem spares_revoke_sessions : (revoke_sessions user_id).within (sparing (active_admins crates)) :=
  within_bind (within_delete_where spares_tokens) fun _ => within_pure _

private theorem spares_create_user (req : CreateUser) : (create_user crates req).within (sparing (active_admins crates)) := by
  rw [create_user]
  split
  · exact within_throw _
  · refine within_bind (within_ofExcept _) fun hash => within_bind (within_insert_into fun _ => trivial) fun _ => ?_
    exact within_pure _

private theorem spares_enable_user : (enable_user user_id).within (sparing (active_admins crates)) := by
  refine within_bind (within_update_where fun row hrow hactive => ?_) fun res => ?_
  · obtain ⟨-, hdisabled⟩ : row.id = user_id ∧ row.disabled_at.isSome = true := by simpa using hrow
    simp [active_admins, active_admin, hdisabled] at hactive
  · split
    · exact within_throw _
    · exact within_pure _

private theorem keyed_revoke_sessions {mint : Option String} : (revoke_sessions user_id).within (keyed user_key mint) :=
  within_bind (within_delete_where fun _ _ after hafter => by cases hafter) fun _ => within_pure _

private theorem keyed_check {mint : Option String} :
    (ensure_active_admin_remains crates.toCrates .Postgres user_id change).within (keyed user_key mint) := by
  refine within_bind (within_update_where fun row _ after hafter => Option.some.inj hafter ▸ rfl) fun rows => ?_
  dsimp only
  split
  · exact within_throw _
  · exact within_pure _

private theorem keyed_refusal {mint : Option String} (res : List UserRow) {p : UserTx Unit}
    (hp : p.within (keyed user_key mint)) :
    (if res.length = 0 then Prog.throw .NotFound else p).within (keyed user_key mint) := by
  split
  · exact within_throw _
  · exact hp

/-- No call changes an id, and only `create_user` inserts a user, with the id it mints. -/
theorem keyed_admin_call (call : AdminCall) : (call.tx crates .Postgres).within (keyed user_key call.mints) := by
  cases call with
  | create_user req =>
    simp only [AdminCall.tx, create_user]
    split
    · exact within_throw _
    · refine within_bind (within_bind (within_ofExcept _) fun hash => ?_) fun _ => within_pure _
      exact within_bind (within_insert_into fun _ => rfl) fun _ => within_pure _
  | update_user_roles user_id roles =>
    refine within_bind keyed_check fun _ => within_bind (within_update_where fun row _ after hafter => ?_) fun res => ?_
    · exact Option.some.inj hafter ▸ rfl
    · exact keyed_refusal res (within_pure _)
  | disable_user now user_id =>
    refine within_bind keyed_check fun _ => within_bind (within_update_where fun row _ after hafter => ?_) fun res => ?_
    · exact Option.some.inj hafter ▸ rfl
    · exact keyed_refusal res keyed_revoke_sessions
  | enable_user user_id =>
    refine within_bind (within_update_where fun row _ after hafter => ?_) fun res => ?_
    · exact Option.some.inj hafter ▸ rfl
    · exact keyed_refusal res (within_pure _)

/-- The check locks the users and fails when the UPDATE after it would leave no
active admin of those it has locked. -/
private theorem guards_of_check {k : Unit → UserTx Unit} {which : UserRow → Bool} {rewritten_row : UserRow → Option UserRow}
    {rest : List UserRow → UserTx Unit} (hk : k () = .update .users which rewritten_row rest)
    (hnames : ∀ row, which row = true → row.id = user_id)
    (hafter : ∀ row, (rewrite which rewritten_row row).any (active_admins crates .users) =
      active_admin_after crates.toCrates user_id change row)
    (hspares : ∀ out, (rest out).within (sparing (active_admins crates))) :
    (ensure_active_admin_remains crates.toCrates .Postgres user_id change >>= k).guards .users (active_admins crates) user_key
      (some user_id) := by
  refine ⟨fun out => (if 0 < out.countP (active_admins crates .users) ∧
      out.countP (active_admin_after crates.toCrates user_id change) = 0 then
    Prog.throw (.Conflict "refusing change: at least one active admin must remain")
  else return ()) >>= k, rfl, fun out => ?_⟩
  by_cases hrefused : 0 < out.countP (active_admins crates .users) ∧
      out.countP (active_admin_after crates.toCrates user_id change) = 0
  · simp only [if_pos hrefused]
    exact .inl ⟨_, rfl⟩
  · simp only [if_neg hrefused]
    refine .inr ⟨which, rewritten_row, rest, hk, fun row hrow => congrArg some (hnames row hrow).symm, fun hactive => ?_,
      hspares⟩
    have hremains : 0 < out.countP (active_admin_after crates.toCrates user_id change) :=
      Nat.pos_of_ne_zero fun hnone => hrefused ⟨List.countP_pos_iff.mpr hactive, hnone⟩
    obtain ⟨row, hrow, hafter_row⟩ := List.countP_pos_iff.mp hremains
    exact ⟨row, hrow, (hafter row).trans hafter_row⟩

private theorem spares_refusal (res : List UserRow) {p : UserTx Unit} (hp : p.within (sparing (active_admins crates))) :
    (if res.length = 0 then Prog.throw .NotFound else p).within (sparing (active_admins crates)) := by
  split
  · exact within_throw _
  · exact hp

private theorem guards_update_user_roles {roles : List Role}
    (hread : crates.from_str (crates.to_string (roles_value roles)) = .ok (roles_value roles)) :
    (update_user_roles crates .Postgres user_id roles).guards .users (active_admins crates) user_key (some user_id) := by
  let which (user : UserRow) : Bool := user.id == user_id
  let after (user : UserRow) : Option UserRow := some { user with roles_json := crates.to_string (roles_value roles) }
  have hafter (row : UserRow) : (rewrite which after row).any (active_admins crates .users) =
      active_admin_after crates.toCrates user_id (.SetRoles roles) row := by
    by_cases hid : row.id = user_id
    · simp [which, after, rewrite, active_admin_after, active_admins, hid, parse_roles_roles_value hread]
    · simp [which, rewrite, active_admin_after, active_admins, hid]
  exact guards_of_check rfl (fun row hrow => by simpa using hrow) hafter fun res => spares_refusal res (within_pure _)

private theorem guards_disable_user {now : jiff.Timestamp} :
    (disable_user crates .Postgres now user_id).guards .users (active_admins crates) user_key (some user_id) := by
  let which (user : UserRow) : Bool := user.id == user_id && user.disabled_at.isNone
  let after (user : UserRow) : Option UserRow := some { user with disabled_at := some now.to_string }
  have hafter (row : UserRow) : (rewrite which after row).any (active_admins crates .users) =
      active_admin_after crates.toCrates user_id .Disable row := by
    by_cases hid : row.id = user_id
    · cases hdisabled : row.disabled_at <;>
        simp [which, after, rewrite, active_admin_after, active_admins, active_admin, hid, hdisabled]
    · simp [which, rewrite, active_admin_after, active_admins, hid]
  refine guards_of_check rfl (fun row hrow => ?_) hafter fun res => spares_refusal res spares_revoke_sessions
  exact (by simpa using hrow : row.id = user_id ∧ row.disabled_at = none).1

/-- The calls that take an admin away check first; the others take none away. -/
theorem guards_or_spares {call : AdminCall} (hread : ∀ roles, call.roles = some roles →
      crates.from_str (crates.to_string (roles_value roles)) = .ok (roles_value roles)) :
    (call.tx crates .Postgres).guards .users (active_admins crates) user_key call.names ∨
      (call.tx crates .Postgres).within (sparing (active_admins crates)) := by
  cases call with
  | create_user req => exact .inr (within_bind (spares_create_user req) fun _ => within_pure _)
  | update_user_roles user_id roles => exact .inl (guards_update_user_roles (hread roles rfl))
  | disable_user now user_id => exact .inl guards_disable_user
  | enable_user user_id => exact .inr spares_enable_user

end Programs

section Interleavings

variable {ι : Type} [DecidableEq ι]

/-- An active admin stays in every interleaving of the calls, and a call that
is refused changes nothing. A call can name a user only when the one that mints
the user's id has ended, as nobody knows the id before. -/
theorem active_admin_remains {crates : UserCrates} {calls : ι → AdminCall}
    (hread : ∀ i roles, (calls i).roles = some roles →
      crates.from_str (crates.to_string (roles_value roles)) = .ok (roles_value roles))
    {db : Db UserTable.Row} (hadmin : ∃ user ∈ db.rows .users, active_admins crates .users user = true)
    {w : World ι UserTable.Row ApiError Unit}
    (hrun : Interleaving (minted_first (fun i => (calls i).names) fun i => (calls i).mints)
      (World.start db fun i => (calls i).tx crates .Postgres) w) :
    (∃ user ∈ w.committed .users, active_admins crates .users user = true) ∧
      ∀ (a : Action ι ApiError) (u : World ι UserTable.Row ApiError Unit), w.step a = some u → ¬ u.succeeded a.client →
        u.committed = w.committed :=
  ⟨live_of_interleaving (fun i => guards_or_spares (hread i)) (fun i => keyed_admin_call (calls i)) hadmin hrun,
    fun _ _ hstep hrefused => committed_of_moved (moved_of_step hstep) hrefused⟩

end Interleavings

/-- What the crates do with these lists of roles and these passwords. -/
def role_crates : UserCrates where
  toCrates := Crates.on [roles_value [.Admin], roles_value [.Viewer]]
  hash_password salt password := .ok ("$argon2id$" ++ salt ++ "$" ++ password)
  verify_password password hash := (hash.toList.reverse.takeWhile (· != '$')).reverse == password.toList

/-- An active admin with this id. -/
def an_admin (id username : String) : UserRow :=
  { id, username, password_hash := "$argon2id$s0$pw", roles_json := "[\"admin\"]", created_at := midnight.to_string }

def ann : UserRow := an_admin "01JT2N8Q4V6C0W3Y5Z7A9B1D2E" "ann"

def bea : UserRow := an_admin "01JT2NCX8G0H2J4K6M8N0P2Q4R" "bea"

def admins (users : List UserRow) : Db UserTable.Row where
  rows
    | .users => users
    | .user_tokens => []
  seq _ := 1

/-- `bea` is created before the two calls that demote `ann` and her. -/
def two_demotions : Fin 3 → AdminCall
  | 0 => .create_user { username := "bea", password := "pw", roles := [.Admin], id := bea.id, salt := "s1", now := midnight }
  | 1 => .update_user_roles ann.id [.Viewer]
  | 2 => .disable_user midnight bea.id

/-- Of two demotions that start at once, the one that waits is refused. -/
theorem second_demotion_is_refused : ∃ w : World (Fin 3) UserTable.Row ApiError Unit,
    ((w.sessions 1).committed = true ∧ (w.sessions 2).failed = true) ∧
    (∃ user ∈ w.committed .users, active_admins role_crates .users user = true) ∧
      ∀ (a : Action (Fin 3) ApiError) (u : World (Fin 3) UserTable.Row ApiError Unit), w.step a = some u →
        ¬ u.succeeded a.client → u.committed = w.committed := by
  have hread (i : Fin 3) (roles : List Role) (hroles : (two_demotions i).roles = some roles) :
      role_crates.from_str (role_crates.to_string (roles_value roles)) = .ok (roles_value roles) := by
    obtain rfl | rfl | rfl : i = 0 ∨ i = 1 ∨ i = 2 := by omega
    · obtain rfl := Option.some.inj hroles
      rfl
    · obtain rfl := Option.some.inj hroles
      rfl
    · cases hroles
  have hfollow : ((World.start (admins [ann]) fun i => (two_demotions i).tx role_crates .Postgres).follow
      (fun w a => match a with
        | .advance i => decide (∀ j, ∀ k ∈ (two_demotions j).mints, (two_demotions i).names = some k →
            (w.sessions j).todo.isNone = true)
        | .abort _ _ => true)
      (List.replicate 2 (.advance 0) ++ [.advance 2] ++ List.replicate 5 (.advance 1) ++ List.replicate 2 (.advance 2))).any
          (fun w => (w.sessions 1).committed && (w.sessions 2).failed) = true := by
    decide
  obtain ⟨w, hrun, hdone⟩ : ∃ w, Interleaving
      (minted_first (fun i => (two_demotions i).names) fun i => (two_demotions i).mints)
      (World.start (admins [ann]) fun i => (two_demotions i).tx role_crates .Postgres) w ∧
      ((w.sessions 1).committed && (w.sessions 2).failed) = true :=
    interleaving_of_follow (fun w a ha i hi => by simpa [hi] using ha) hfollow
  refine ⟨w, by simpa using hdone, active_admin_remains hread ⟨ann, ?_, ?_⟩ hrun⟩
  · exact List.mem_cons_self
  · decide

end iac_controlplane.store
