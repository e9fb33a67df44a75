import Iac.Controlplane.Api.Users
import Iac.Sql.Query

open iac_controlplane.identity iac_controlplane.store sql

namespace iac_controlplane.api.users

section Requests

variable (crates : UserCrates) (dialect : Dialect) (call : UpdateUser)

def UpdateUser.role_updates : Except ApiError (List UserUpdate) :=
  match call.req.roles with
  | none => .ok []
  | some roles_strs => (parse_roles roles_strs).map fun roles => [.update_user_roles roles]

def UpdateUser.disabled_updates : List UserUpdate :=
  match call.req.disabled with
  | none => []
  | some true => [.disable_user call.now]
  | some false => [.enable_user]

def UpdateUser.password_updates : List UserUpdate :=
  match call.req.password with
  | none => []
  | some new_password => [.set_user_password call.salt new_password]

/-- The calls of the store that the request stands for, when its roles are known ones. -/
def UpdateUser.updates : Except ApiError (List UserUpdate) :=
  call.role_updates.map fun roles => roles ++ (call.disabled_updates ++ call.password_updates)

/-- The request is let in, and a call of the store is refused after the ones
before it have changed the users or their sessions. -/
def Interrupted (rows : sql.Rows UserTable.Row) : Prop :=
  call.identity.has_role .Admin = true ∧ ∃ updates, call.updates = .ok updates ∧
    commits.Interrupted (UserUpdate.refuses crates call.user_id) (UserUpdate.write crates call.user_id) updates rows

/-- The request sets the roles or the password hash that the user has already. -/
def UpdateUser.Repeats (row : UserRow) : Prop :=
  call.roles_json crates = some row.roles_json ∨ call.password_hash crates = some row.password_hash

/-- The request ends the sessions of the user. -/
def UpdateUser.revokes : Bool := call.req.disabled == some true || call.req.password.isSome

/-- The request changes the row of the user, or ends a session. -/
def UpdateUser.Alters (rows : sql.Rows UserTable.Row) (row : UserRow) : Prop :=
  call.write crates row ≠ row ∨ call.revokes = true ∧ ∃ t ∈ rows .user_tokens, t.user_id = call.user_id

/-- The request is let in, no call of the store is refused, and it changes
something, but not all that it sets. -/
def Overstated (rows : sql.Rows UserTable.Row) : Prop :=
  call.identity.has_role .Admin = true ∧ ∃ updates, call.updates = .ok updates ∧
    commits.Accepted (UserUpdate.refuses crates call.user_id) (UserUpdate.write crates call.user_id) updates rows ∧
    ∃ row ∈ rows .users, row.id = call.user_id ∧ call.Repeats crates row ∧ call.Alters crates rows row

/-- The calls, each in a transaction of its own. -/
def make_updates : List UserUpdate → effect.Prog Tables ApiError Unit
  | [] => return ()
  | update :: rest => do
    on_users (update.tx crates dialect call.user_id)
    make_updates rest

end Requests

section Handler

variable {crates : UserCrates} {dialect : Dialect} {call : UpdateUser}

private theorem of_except_error_bind {α β : Type} (e : ApiError) (k : α → effect.Prog Tables ApiError β) :
    of_except (.error e) >>= k = of_except (.error e) := rfl

private theorem of_except_ok_bind {α β : Type} (a : α) (k : α → effect.Prog Tables ApiError β) :
    of_except (.ok a) >>= k = k a := rfl

theorem make_updates_append (first second : List UserUpdate) :
    make_updates crates dialect call (first ++ second) =
      make_updates crates dialect call first >>= fun _ => make_updates crates dialect call second := by
  induction first with
  | nil => rfl
  | cons update rest ih => rw [List.cons_append, make_updates, make_updates, ih, bind_assoc]

private theorem update_roles_eq :
    update_roles crates dialect call = of_except call.role_updates >>= fun updates =>
      make_updates crates dialect call updates >>= fun _ => return if call.req.roles.isSome then ["roles"] else [] := by
  rw [update_roles, UpdateUser.role_updates]
  cases call.req.roles with
  | none => rfl
  | some roles_strs =>
    cases hroles : parse_roles roles_strs with
    | ok roles => simp [hroles, of_except_ok_bind, Except.map, make_updates, UserUpdate.tx]
    | error e => simp [hroles, of_except_error_bind, Except.map]

private theorem update_disabled_eq :
    update_disabled crates dialect call = make_updates crates dialect call call.disabled_updates >>= fun _ =>
      return match call.req.disabled with
        | none => []
        | some true => ["disabled"]
        | some false => ["enabled"] := by
  rw [update_disabled, UpdateUser.disabled_updates]
  rcases call.req.disabled with _ | _ | _ <;> simp [make_updates, UserUpdate.tx]

variable (dialect) in
private theorem update_password_eq :
    update_password crates call = make_updates crates dialect call call.password_updates >>= fun _ =>
      return if call.req.password.isSome then ["password"] else [] := by
  rw [update_password, UpdateUser.password_updates]
  cases call.req.password <;> simp [make_updates, UserUpdate.tx]

/-- The calls of the store come first, and the fields of the request are answered with and audited. -/
theorem update_user_eq : update_user crates dialect call = (do
    let _ ← of_except (require_role call.identity .Admin)
    let updates ← of_except call.updates
    make_updates crates dialect call updates
    if (requested call.req).isEmpty then
      throw (.BadRequest "request must set at least one of: roles, disabled, password")
    else do
      on_store (record_audit_on crates.toCrates call.audit_now.to_string (update_audit call (requested call.req)))
      return requested call.req) := by
  rw [update_user, update_roles_eq, update_disabled_eq, update_password_eq dialect, UpdateUser.updates]
  cases call.role_updates with
  | error e => simp [of_except_error_bind, Except.map]
  | ok roles =>
    simp only [of_except_ok_bind, Except.map, make_updates_append, bind_assoc, pure_bind]
    rfl

variable (crates dialect call) in
theorem perform_make_updates (updates : List UserUpdate) (s : Tables) :
    ∃ answer users, effect.perform (make_updates crates dialect call updates) s = (answer, { s with users }) ∧
      commits.run (UserUpdate.refuses crates call.user_id) (UserUpdate.write crates call.user_id) updates s.users.rows =
        (answer.isOk, users.rows) := by
  induction updates generalizing s with
  | nil => exact ⟨.ok (), s.users, rfl, rfl⟩
  | cons update rest ih =>
    obtain ⟨hrefused, haccepted⟩ := exec_update crates dialect call.user_id s.users update
    rw [make_updates, effect.perform_bind, commits.run, on_users, effect.perform_of_fun]
    cases hrefuses : update.refuses crates call.user_id s.users.rows with
    | true =>
      obtain ⟨e, herror, hrows⟩ := hrefused hrefuses
      rw [herror, if_pos rfl]
      exact ⟨.error e, _, rfl, by rw [hrows]; rfl⟩
    | false =>
      obtain ⟨hok, hrows⟩ := haccepted hrefuses
      obtain ⟨answer, users, hrest, hrun⟩ := ih { s with users := ((update.tx crates dialect call.user_id).exec s.users).2 }
      rw [hok, if_neg (by simp), ← hrows]
      exact ⟨answer, users, hrest, hrun⟩

private theorem updates_eq_nil_iff : call.updates = .ok [] ↔ (requested call.req).isEmpty = true := by
  rw [UpdateUser.updates, UpdateUser.role_updates, UpdateUser.disabled_updates, UpdateUser.password_updates, requested]
  cases call.req.roles with
  | none => rcases call.req.disabled with _ | _ | _ <;> cases call.req.password <;> simp [Except.map]
  | some roles_strs => cases hparse : parse_roles roles_strs <;> simp [hparse, Except.map]

variable (crates dialect call) in
/-- The request is turned away before a call of the store, or a call of it is refused, or
all are accepted. -/
theorem perform_update_user (s : Tables) :
    ((call.identity.has_role .Admin = false ∨ (∃ e, call.updates = .error e) ∨ call.updates = .ok []) ∧
      ∃ e, effect.perform (update_user crates dialect call) s = (.error e, s)) ∨
    ∃ updates users, call.identity.has_role .Admin = true ∧ call.updates = .ok updates ∧ updates ≠ [] ∧
      ((commits.run (UserUpdate.refuses crates call.user_id) (UserUpdate.write crates call.user_id) updates s.users.rows =
          (false, users.rows) ∧ ∃ e, effect.perform (update_user crates dialect call) s = (.error e, { s with users })) ∨
        commits.run (UserUpdate.refuses crates call.user_id) (UserUpdate.write crates call.user_id) updates s.users.rows =
            (true, users.rows) ∧
          ∃ prev_hash id after, effect.perform (update_user crates dialect call) s =
            (.ok (requested call.req), ⟨users, after⟩) ∧
            after.rows .audit_events = s.store.rows .audit_events ++
              [audit_row crates.toCrates call.audit_now.to_string prev_hash (update_audit call (requested call.req)) id]) := by
  rw [update_user_eq]
  cases hadmin : call.identity.has_role .Admin with
  | false =>
    rw [require_role, if_neg (by simp [hadmin])]
    exact .inl ⟨.inl rfl, _, rfl⟩
  | true =>
    rw [require_role, if_pos hadmin, of_except_ok_bind]
    cases hupdates : call.updates with
    | error e => exact .inl ⟨.inr (.inl ⟨e, rfl⟩), e, rfl⟩
    | ok updates =>
      rw [of_except_ok_bind]
      cases hempty : (requested call.req).isEmpty with
      | true =>
        obtain rfl : updates = [] := Except.ok.inj (hupdates.symm.trans (updates_eq_nil_iff.mpr hempty))
        exact .inl ⟨.inr (.inr rfl), _, rfl⟩
      | false =>
        obtain ⟨answer, users, hmake, hrun⟩ := perform_make_updates crates dialect call updates s
        refine .inr ⟨updates, users, rfl, rfl, ?_, ?_⟩
        · rintro rfl
          rw [updates_eq_nil_iff.mp hupdates] at hempty
          cases hempty
        rw [effect.perform_bind, hmake]
        cases answer with
        | error e => exact .inl ⟨hrun, e, rfl⟩
        | ok _ =>
          obtain ⟨prev_hash, id, after, haudit, hrow, -⟩ := record_audit_on_spec crates.toCrates call.audit_now.to_string
            (update_audit call (requested call.req)) s.store
          refine .inr ⟨hrun, prev_hash, id, after, ?_, hrow⟩
          have hstore : effect.perform (on_store (record_audit_on crates.toCrates call.audit_now.to_string
              (update_audit call (requested call.req)))) { s with users } = (.ok (), ⟨users, after⟩) := by
            rw [on_store, effect.perform_of_fun, exec_of_run_ok haudit]
          exact effect.perform_bind_ok hstore

end Handler

section Rows

variable {crates : UserCrates} {user_id : String} {call : UpdateUser} {rows : sql.Rows UserTable.Row}

/-- An accepted call changes the row of the user, and no other. -/
private theorem write_users {update : UserUpdate} (hids : ((rows .users).map UserRow.id).Nodup)
    (haccepted : update.refuses crates user_id rows = false) :
    update.write crates user_id rows .users =
      (rows .users).map fun user => if user.id = user_id then update.change crates user else user := by
  obtain ⟨-, hsome⟩ : update.barred crates user_id (rows .users) = false ∧ (rows .users).any (update.which user_id) = true := by
    simpa [UserUpdate.refuses] using haccepted
  obtain ⟨taken, hmem, htaken⟩ := List.any_eq_true.mp hsome
  rw [UserUpdate.write]
  refine List.map_congr_left fun user huser => ?_
  by_cases hid : user.id = user_id
  · obtain rfl : user = taken := List.inj_on_of_nodup_map hids huser hmem (hid.trans (UserUpdate.id_of_which htaken).symm)
    rw [updated_of_true htaken, if_pos hid]
  · have hnot : update.which user_id user = false := by
      cases hwhich : update.which user_id user with
      | true => exact absurd (UserUpdate.id_of_which hwhich) hid
      | false => rfl
    rw [updated_of_false hnot, if_neg hid]

private theorem write_all_users {updates : List UserUpdate} (hids : ((rows .users).map UserRow.id).Nodup)
    (haccepted : commits.Accepted (UserUpdate.refuses crates user_id) (UserUpdate.write crates user_id) updates rows) :
    commits.write_all (UserUpdate.write crates user_id) updates rows .users = (rows .users).map fun user =>
      if user.id = user_id then updates.foldl (fun user update => update.change crates user) user else user := by
  induction updates generalizing rows with
  | nil => simp [commits.write_all]
  | cons update rest ih =>
    have hwrite := write_users hids haccepted.1
    have hids' : ((update.write crates user_id rows .users).map UserRow.id).Nodup := by
      rw [hwrite, sql.map_key_map fun user _ => ?_]
      · exact hids
      · split
        · exact UserUpdate.change_id update user
        · rfl
    rw [commits.write_all, List.foldl_cons, ← commits.write_all, ih hids' haccepted.2, hwrite, List.map_map]
    refine List.map_congr_left fun user _ => ?_
    by_cases hid : user.id = user_id
    · simp [hid, UserUpdate.change_id]
    · simp [hid]

private theorem write_all_tokens (updates : List UserUpdate) (rows : sql.Rows UserTable.Row) :
    commits.write_all (UserUpdate.write crates user_id) updates rows .user_tokens =
      (rows .user_tokens).filter fun t => !(updates.any UserUpdate.revokes && t.user_id == user_id) := by
  induction updates generalizing rows with
  | nil => simp [commits.write_all]
  | cons update rest ih =>
    rw [commits.write_all, List.foldl_cons, ← commits.write_all, ih, UserUpdate.write, List.filter_filter]
    refine List.filter_congr fun t _ => ?_
    rw [List.any_cons]
    cases update.revokes <;> cases rest.any UserUpdate.revokes <;> cases t.user_id == user_id <;> rfl

private theorem foldl_role_updates {roles : List UserUpdate} (h : call.role_updates = .ok roles) (user : UserRow) :
    roles.foldl (fun user update => update.change crates user) user =
      { user with roles_json := (call.roles_json crates).getD user.roles_json } := by
  rw [UpdateUser.role_updates] at h
  rw [UpdateUser.roles_json]
  cases hroles : call.req.roles with
  | none =>
    rw [hroles] at h
    obtain rfl := Except.ok.inj h
    rfl
  | some roles_strs =>
    cases hparse : parse_roles roles_strs with
    | error e => simp [hroles, hparse, Except.map] at h
    | ok parsed =>
      simp only [hroles, hparse, Except.map, Except.ok.injEq] at h
      subst h
      simp [UserUpdate.change, hparse]

private theorem updates_split {updates : List UserUpdate} (h : call.updates = .ok updates) :
    ∃ roles, call.role_updates = .ok roles ∧ updates = roles ++ (call.disabled_updates ++ call.password_updates) := by
  rw [UpdateUser.updates] at h
  cases hroles : call.role_updates with
  | error e => simp [hroles, Except.map] at h
  | ok roles =>
    rw [hroles] at h
    exact ⟨roles, rfl, (Except.ok.inj h).symm⟩

private theorem foldl_change {updates : List UserUpdate} (h : call.updates = .ok updates) (user : UserRow) :
    (if user.id = call.user_id then updates.foldl (fun user update => update.change crates user) user else user) =
      call.write crates user := by
  have hpassword (user : UserRow) : call.password_updates.foldl (fun user update => update.change crates user) user =
      { user with password_hash := (call.password_hash crates).getD user.password_hash } := by
    rw [UpdateUser.password_updates, UpdateUser.password_hash]
    cases call.req.password with
    | none => rfl
    | some new_password => cases hhash : hash_password crates call.salt new_password <;> simp [UserUpdate.change, hhash]
  have hdisabled (user : UserRow) : call.disabled_updates.foldl (fun user update => update.change crates user) user =
      { user with disabled_at := call.disabled_at.getD user.disabled_at } := by
    rw [UpdateUser.disabled_updates, UpdateUser.disabled_at]
    rcases call.req.disabled with _ | _ | _ <;> rfl
  obtain ⟨roles, hroles, rfl⟩ := updates_split h
  rw [UpdateUser.write, List.foldl_append, List.foldl_append, foldl_role_updates hroles, hdisabled, hpassword]

private theorem revokes_of_updates {updates : List UserUpdate} (h : call.updates = .ok updates) :
    updates.any UserUpdate.revokes = call.revokes := by
  obtain ⟨roles, hroles, rfl⟩ := updates_split h
  have hnone : roles.any UserUpdate.revokes = false := by
    rw [UpdateUser.role_updates] at hroles
    cases hreq : call.req.roles with
    | none =>
      rw [hreq] at hroles
      obtain rfl := Except.ok.inj hroles
      rfl
    | some roles_strs =>
      cases hparse : parse_roles roles_strs with
      | error e => simp [hreq, hparse, Except.map] at hroles
      | ok parsed =>
        simp only [hreq, hparse, Except.map, Except.ok.injEq] at hroles
        subst hroles
        rfl
  rw [List.any_append, List.any_append, hnone, UpdateUser.revokes, UpdateUser.disabled_updates, UpdateUser.password_updates]
  rcases call.req.disabled with _ | _ | _ <;> cases call.req.password <;> rfl

end Rows

section Accepted

variable {crates : UserCrates} {call : UpdateUser} {rows : sql.Rows UserTable.Row} {updates : List UserUpdate}
  (hids : ((rows .users).map UserRow.id).Nodup) (hupdates : call.updates = .ok updates)
  (haccepted : commits.Accepted (UserUpdate.refuses crates call.user_id) (UserUpdate.write crates call.user_id) updates rows)
include haccepted

/-- An accepted request has the row that it is for. -/
private theorem user_of_accepted (hsome : updates ≠ []) : ∃ row ∈ rows .users, row.id = call.user_id := by
  cases updates with
  | nil => exact absurd rfl hsome
  | cons update rest =>
    obtain ⟨-, hany⟩ : update.barred crates call.user_id (rows .users) = false ∧
        (rows .users).any (update.which call.user_id) = true := by
      simpa [UserUpdate.refuses] using haccepted.1
    obtain ⟨row, hrow, hwhich⟩ := List.any_eq_true.mp hany
    exact ⟨row, hrow, UserUpdate.id_of_which hwhich⟩

include hids hupdates

/-- A user who is disabled was not, and one who is enabled was disabled. -/
private theorem disabled_differs {row : UserRow} (hrow : row ∈ rows .users) (hid : row.id = call.user_id) :
    (call.req.disabled = some true → row.disabled_at = none) ∧ (call.req.disabled = some false → row.disabled_at ≠ none) := by
  obtain ⟨roles, hroles, rfl⟩ := updates_split hupdates
  obtain ⟨hroles_accepted, hrest⟩ := commits.accepted_append.mp haccepted
  have husers := write_all_users hids hroles_accepted
  have hwhich (update : UserUpdate) (haccepted : update.refuses crates call.user_id
      (commits.write_all (UserUpdate.write crates call.user_id) roles rows) = false) :
      update.which call.user_id { row with roles_json := (call.roles_json crates).getD row.roles_json } = true := by
    obtain ⟨-, hany⟩ : _ ∧ ((commits.write_all (UserUpdate.write crates call.user_id) roles rows) .users).any
        (update.which call.user_id) = true := by
      simpa [UserUpdate.refuses] using haccepted
    rw [husers, List.any_map] at hany
    obtain ⟨user, huser, hwhich⟩ := List.any_eq_true.mp hany
    have huser_id : user.id = call.user_id := by
      by_contra hother
      rw [Function.comp_apply, if_neg hother] at hwhich
      exact hother (UserUpdate.id_of_which hwhich)
    obtain rfl := List.inj_on_of_nodup_map hids huser hrow (huser_id.trans hid.symm)
    rwa [Function.comp_apply, if_pos hid, foldl_role_updates hroles] at hwhich
  constructor
  · intro hdisabled
    rw [UpdateUser.disabled_updates, hdisabled] at hrest
    have hnone := hwhich _ hrest.1
    simp only [UserUpdate.which, Bool.and_eq_true, Option.isNone_iff_eq_none] at hnone
    exact hnone.2
  · intro hdisabled
    rw [UpdateUser.disabled_updates, hdisabled] at hrest
    have hsome := hwhich _ hrest.1
    simp only [UserUpdate.which, Bool.and_eq_true, Option.isSome_iff_ne_none] at hsome
    exact hsome.2

omit hids in
/-- What the request sets is known. -/
private theorem columns_of_accepted : (call.roles_json crates).isSome = call.req.roles.isSome ∧
    (call.password_hash crates).isSome = call.req.password.isSome := by
  obtain ⟨roles, hroles, rfl⟩ := updates_split hupdates
  constructor
  · rw [UpdateUser.role_updates] at hroles
    rw [UpdateUser.roles_json]
    cases hreq : call.req.roles with
    | none => rfl
    | some roles_strs => cases hparse : parse_roles roles_strs <;> simp_all [Except.map]
  · rw [← List.append_assoc] at haccepted
    obtain ⟨-, hrest⟩ := commits.accepted_append.mp haccepted
    rw [UpdateUser.password_updates] at hrest
    rw [UpdateUser.password_hash]
    cases hreq : call.req.password with
    | none => rfl
    | some new_password =>
      rw [hreq] at hrest
      obtain ⟨⟨-, hok⟩, -⟩ : (new_password ≠ "" ∧ (hash_password crates call.salt new_password).isOk = true) ∧ _ := by
        simpa [UserUpdate.refuses, UserUpdate.barred] using hrest.1
      cases hhash : hash_password crates call.salt new_password with
      | ok hash => simp [hhash]
      | error e =>
        rw [hhash] at hok
        cases hok

/-- The fields of the request are those that differ, unless it repeats one. -/
private theorem requested_eq_iff {row : UserRow} (hrow : row ∈ rows .users) (hid : row.id = call.user_id) :
    requested call.req = changed_fields row (call.write crates row) ↔ ¬ call.Repeats crates row := by
  obtain ⟨hroles, hpassword⟩ := columns_of_accepted hupdates haccepted
  obtain ⟨htrue, hfalse⟩ := disabled_differs hids hupdates haccepted hrow hid
  have hdisabled : (if (call.write crates row).disabled_at ≠ row.disabled_at then
      [if (call.write crates row).disabled_at.isSome then "disabled" else "enabled"] else []) =
      match call.req.disabled with | none => [] | some true => ["disabled"] | some false => ["enabled"] := by
    rw [UpdateUser.write, if_pos hid, UpdateUser.disabled_at]
    rcases hreq : call.req.disabled with _ | _ | _
    · simp
    · simpa using (hfalse hreq).symm
    · simp [htrue hreq]
  rw [changed_fields, hdisabled, requested, ← hroles, ← hpassword, UpdateUser.Repeats, UpdateUser.write, if_pos hid]
  cases call.roles_json crates <;> cases call.password_hash crates <;> rcases call.req.disabled with _ | _ | _ <;>
    simp only [Option.getD_none, Option.getD_some] <;> split_ifs <;> simp_all

/-- The rows differ when the request alters something. -/
private theorem write_all_ne_iff {row : UserRow} (hrow : row ∈ rows .users) (hid : row.id = call.user_id) :
    commits.write_all (UserUpdate.write crates call.user_id) updates rows ≠ rows ↔ call.Alters crates rows row := by
  have husers : commits.write_all (UserUpdate.write crates call.user_id) updates rows .users = rows .users ↔
      call.write crates row = row := by
    rw [write_all_users hids haccepted, List.map_congr_left fun user _ => foldl_change hupdates user]
    constructor
    · intro hsame
      have heach := (List.map_inj_left (f := call.write crates) (g := id)).mp (hsame.trans (List.map_id _).symm)
      exact heach row hrow
    · intro hsame
      conv_rhs => rw [← List.map_id (rows .users)]
      refine List.map_congr_left fun user huser => ?_
      by_cases huser_id : user.id = call.user_id
      · obtain rfl := List.inj_on_of_nodup_map hids huser hrow (huser_id.trans hid.symm)
        exact hsame
      · rw [UpdateUser.write, if_neg huser_id]
        rfl
  have htokens : commits.write_all (UserUpdate.write crates call.user_id) updates rows .user_tokens = rows .user_tokens ↔
      ¬ (call.revokes = true ∧ ∃ t ∈ rows .user_tokens, t.user_id = call.user_id) := by
    rw [write_all_tokens, revokes_of_updates hupdates, List.filter_eq_self]
    simp only [Bool.not_eq_true', Bool.and_eq_false_iff, beq_eq_false_iff_ne]
    push Not
    exact ⟨fun h hrevokes t ht => (h t ht).resolve_left (by simp [hrevokes]),
      fun h t ht => (Bool.eq_false_or_eq_true call.revokes).symm.imp_right fun hrevokes => h hrevokes t ht⟩
  rw [UpdateUser.Alters, ← not_iff_not, not_or, not_not, not_not, ← husers, ← htokens]
  constructor
  · intro hsame
    rw [hsame]
    exact ⟨rfl, rfl⟩
  · rintro ⟨husers, htokens⟩
    funext t
    cases t with
    | users => exact husers
    | user_tokens => exact htokens

end Accepted

/-- The request is atomic and audited exactly when no call of the store is refused
after an earlier one has changed the users or their sessions, and none of the
fields that a change comes with is repeated. -/
theorem audited_iff_not_interrupted (crates : UserCrates) (dialect : Dialect) (call : UpdateUser) (before : Tables)
    (hkeyed : Keyed before.users.rows) :
    Audited crates call before (effect.perform (update_user crates dialect call) before).2
      (effect.perform (update_user crates dialect call) before).1 ↔
        ¬ Interrupted crates call before.users.rows ∧ ¬ Overstated crates call before.users.rows := by
  obtain ⟨hturned, e, hperform⟩ | ⟨updates, users, hadmin, hupdates, hsome, ⟨hrun, e, hperform⟩ |
    ⟨hrun, prev_hash, id, after, hperform, hrow⟩⟩ := perform_update_user crates dialect call before
  · rw [hperform]
    have hadmitted (hadmin : call.identity.has_role .Admin = true) {updates : List UserUpdate}
        (hupdates : call.updates = .ok updates) : updates = [] := by
      obtain hnot | ⟨e, hnot⟩ | hnot := hturned
      · rw [hadmin] at hnot
        cases hnot
      · rw [hupdates] at hnot
        cases hnot
      · exact Except.ok.inj (hupdates.symm.trans hnot)
    refine iff_of_true ⟨fun _ _ => rfl, fun hchanged => absurd rfl hchanged⟩ ⟨?_, ?_⟩
    · rintro ⟨hadmin, updates, hupdates, done, step, rest, rfl, -⟩
      simpa using hadmitted hadmin hupdates
    · rintro ⟨hadmin, updates, hupdates, haccepted, row, hrow, hid, hrepeats, -⟩
      obtain rfl := hadmitted hadmin hupdates
      obtain ⟨hroles, hpassword⟩ := columns_of_accepted hupdates haccepted
      have hempty := updates_eq_nil_iff.mp hupdates
      rw [UpdateUser.Repeats] at hrepeats
      cases hreq_roles : call.req.roles <;> cases hreq_password : call.req.password <;>
        simp_all [requested]
  · have hinterrupted : Interrupted crates call before.users.rows ↔ users.rows ≠ before.users.rows := by
      refine ⟨?_, fun hchanged => ⟨hadmin, updates, hupdates,
          commits.interrupted_iff.mpr (by rw [hrun]; exact ⟨rfl, hchanged⟩)⟩⟩
      rintro ⟨-, updates', hupdates', hinterrupted⟩
      obtain rfl : updates' = updates := Except.ok.inj (hupdates'.symm.trans hupdates)
      have hstopped := commits.interrupted_iff.mp hinterrupted
      rw [hrun] at hstopped
      exact hstopped.2
    have hoverstated : ¬ Overstated crates call before.users.rows := by
      rintro ⟨-, updates', hupdates', haccepted, -⟩
      obtain rfl : updates' = updates := Except.ok.inj (hupdates'.symm.trans hupdates)
      have hall := commits.accepted_iff.mp haccepted
      rw [hrun] at hall
      cases hall
    rw [hperform, hinterrupted, not_not, and_iff_left hoverstated]
    exact ⟨fun haudited => haudited.refused e rfl, fun hsame => ⟨fun _ _ => hsame, fun hchanged => absurd hsame hchanged⟩⟩
  · have haccepted := commits.accepted_iff.mpr (congrArg Prod.fst hrun)
    rw [commits.run_of_accepted haccepted] at hrun
    obtain ⟨-, hrows⟩ := Prod.mk.inj hrun
    have husers : users.rows .users = (before.users.rows .users).map (call.write crates) := by
      rw [← hrows, write_all_users hkeyed.users haccepted]
      exact List.map_congr_left fun user _ => foldl_change hupdates user
    have hinterrupted : ¬ Interrupted crates call before.users.rows := by
      rintro ⟨-, updates', hupdates', hinterrupted⟩
      obtain rfl : updates' = updates := Except.ok.inj (hupdates'.symm.trans hupdates)
      have hstopped := (commits.interrupted_iff.mp hinterrupted).1
      rw [commits.run_of_accepted haccepted] at hstopped
      cases hstopped
    obtain ⟨user, huser, huser_id⟩ := user_of_accepted haccepted hsome
    have halters : users.rows ≠ before.users.rows ↔ call.Alters crates before.users.rows user :=
      hrows ▸ write_all_ne_iff hkeyed.users hupdates haccepted huser huser_id
    have hfields := requested_eq_iff hkeyed.users hupdates haccepted huser huser_id
    rw [hperform, and_iff_right hinterrupted]
    constructor
    · rintro haudited ⟨-, updates', hupdates', -, row, hrow', hid, hrepeats, halter⟩
      obtain rfl := List.inj_on_of_nodup_map hkeyed.users hrow' huser (hid.trans huser_id.symm)
      obtain ⟨fields, change, hanswer, -, hchange, hlisted⟩ := haudited.changed (halters.mpr halter)
      obtain rfl := Except.ok.inj hanswer
      have hsame := List.map_inj_left.mp (husers.symm.trans hchange) row huser
      have hlist := hlisted row huser
      rw [if_pos hid, ← hsame] at hlist
      exact hfields.mp hlist hrepeats
    · intro hnot
      refine ⟨fun _ herror => (by cases herror), fun hchanged => ?_⟩
      have hrepeats : ¬ call.Repeats crates user := fun hrepeats =>
        hnot ⟨hadmin, updates, hupdates, haccepted, user, huser, huser_id, hrepeats, halters.mp hchanged⟩
      refine ⟨_, call.write crates, rfl, ⟨prev_hash, id, hrow⟩, husers, fun row hrow' => ?_⟩
      split_ifs with hid
      · obtain rfl := List.inj_on_of_nodup_map hkeyed.users hrow' huser (hid.trans huser_id.symm)
        exact hfields.mpr hrepeats
      · rw [UpdateUser.write, if_neg hid]

/-- `bea` made a viewer, with nothing else or disabled as well, in a table that has her disabled or not. -/
def demote_bea (disabled : Option Bool) : UpdateUser where
  identity := .LegacyAdmin
  user_id := bea.id
  req := { roles := some ["viewer"], disabled }
  salt := "s2"
  now := midnight
  audit_now := midnight

def ann_and_bea (disabled_at : Option String) : Tables where
  users := admins [ann, { bea with disabled_at }]
  store := migrated

/-- The demotion of an active user is answered with the field that it sets. -/
theorem demotion_is_audited :
    Keyed (ann_and_bea none).users.rows ∧
    (effect.perform (update_user role_crates .Postgres (demote_bea none)) (ann_and_bea none)).1.toOption = some ["roles"] ∧
    Audited role_crates (demote_bea none) (ann_and_bea none)
      (effect.perform (update_user role_crates .Postgres (demote_bea none)) (ann_and_bea none)).2
      (effect.perform (update_user role_crates .Postgres (demote_bea none)) (ann_and_bea none)).1 := by
  have hkeyed : Keyed (ann_and_bea none).users.rows := ⟨by decide, by decide⟩
  refine ⟨hkeyed, by decide, (audited_iff_not_interrupted role_crates .Postgres (demote_bea none) (ann_and_bea none) hkeyed).mpr
    ⟨?_, ?_⟩⟩
  · rintro ⟨-, updates, hupdates, hinterrupted⟩
    obtain rfl : updates = [.update_user_roles [.Viewer]] := (Except.ok.inj hupdates).symm
    exact absurd (commits.interrupted_iff.mp hinterrupted).1 (by decide)
  · have hdiffers : ∀ row ∈ (ann_and_bea none).users.rows .users, row.id = bea.id →
        (demote_bea none).roles_json role_crates ≠ some row.roles_json := by
      decide
    rintro ⟨-, -, -, -, row, hrow, hid, hroles | hpassword, -⟩
    · exact hdiffers row hrow hid hroles
    · cases hpassword

/-- A request that demotes and disables a user who is disabled already makes the
demotion, answers `NotFound` and leaves no audit row. -/
theorem refused_disable_leaves_roles :
    let before := ann_and_bea (some midnight.to_string)
    let run := effect.perform (update_user role_crates .Postgres (demote_bea (some true))) before
    Keyed before.users.rows ∧ run.1 = .error .NotFound ∧
      (before.users.rows .users).map UserRow.roles_json = ["[\"admin\"]", "[\"admin\"]"] ∧
      (run.2.users.rows .users).map UserRow.roles_json = ["[\"admin\"]", "[\"viewer\"]"] ∧
      run.2.store.rows .audit_events = [] ∧ ¬ Audited role_crates (demote_bea (some true)) before run.2 run.1 := by
  intro before run
  have hbefore : (before.users.rows .users).map UserRow.roles_json = ["[\"admin\"]", "[\"admin\"]"] := by decide
  have hafter : (run.2.users.rows .users).map UserRow.roles_json = ["[\"admin\"]", "[\"viewer\"]"] := by decide
  refine ⟨⟨by decide, by decide⟩, rfl, hbefore, hafter, rfl, fun haudited => ?_⟩
  have hsame := haudited.refused .NotFound rfl
  rw [hsame, hbefore] at hafter
  revert hafter
  decide

end iac_controlplane.api.users
