import Iac.Controlplane.Store.Users
import Iac.Core.Sha256
import Iac.Sql.ReadCommitted.Consume

open iac_controlplane.identity sql

namespace iac_controlplane.store

/-- A call that writes users or their sessions. -/
inductive AccountCall where
  | create_user (req : CreateUser)
  | login (req : LoginRequest)
  | refresh_user_token (req : RefreshRequest)
  | revoke_user_token (token : String)
  | prune_expired_tokens (now : jiff.Timestamp)
  | update_user_roles (dialect : Dialect) (user_id : String) (roles : List Role)
  | disable_user (dialect : Dialect) (now : jiff.Timestamp) (user_id : String)
  | enable_user (user_id : String)
  | set_user_password (salt user_id new_password : String)

def AccountCall.tx (crates : UserCrates) : AccountCall → UserTx Unit
  | .create_user req => do
    let _ ← store.create_user crates req
    return ()
  | .login req => do
    let _ ← store.login crates req
    return ()
  | .refresh_user_token req => do
    let _ ← store.refresh_user_token crates req
    return ()
  | .revoke_user_token token => store.revoke_user_token crates token
  | .prune_expired_tokens now => do
    let _ ← store.prune_expired_tokens now
    return ()
  | .update_user_roles dialect user_id roles => store.update_user_roles crates dialect user_id roles
  | .disable_user dialect now user_id => store.disable_user crates dialect now user_id
  | .enable_user user_id => store.enable_user user_id
  | .set_user_password salt user_id new_password => store.set_user_password crates salt user_id new_password

/-- The token that the call mints. -/
def AccountCall.minted : AccountCall → Option String
  | .login req => some req.token
  | .refresh_user_token req => some req.new_token
  | _ => none

/-- The call exchanges this token. -/
def AccountCall.refreshes (token : String) : AccountCall → Prop
  | .refresh_user_token req => req.token = token
  | _ => False

/-- The session that a token opens. -/
def session_of (crates : UserCrates) (token : String) (row : UserTokenRow) : Bool :=
  row.token_hash == hash_token crates.toCrates token

section Programs

variable {crates : UserCrates} {token : String}

/-- A refresh commits only when its DELETE has found the session. -/
theorem consumes_refresh_user_token {req : RefreshRequest} (h : req.token = token) :
    (refresh_user_token crates req).consumes UserTable.user_tokens (session_of crates token) := by
  refine consumes_bind fun row => ?_
  cases row with
  | none => exact consumes_throw _
  | some user =>
    rw [refresh_checked]
    split
    · exact consumes_throw _
    · refine consumes_bind fun expires => consumes_delete_where (fun row hrow => by rwa [session_of, ← h]) ?_
      exact consumes_throw _

private theorem unguarding_session {row : UserTokenRow} {result : String × String × UserRecord}
    (h : row.token_hash ≠ hash_token crates.toCrates token) :
    (do
      let _ ← Prog.insert_into unique_violation UserTable.user_tokens fun _ => row
      return result : UserTx (String × String × UserRecord)).within
        (unguarding UserTable.user_tokens (session_of crates token)) :=
  within_bind (within_insert_into fun _ _ => by simpa [session_of] using h) fun _ => within_pure _

theorem unguarding_refresh_user_token {req : RefreshRequest}
    (h : hash_token crates.toCrates req.new_token ≠ hash_token crates.toCrates token) :
    (refresh_user_token crates req).within (unguarding UserTable.user_tokens (session_of crates token)) := by
  refine within_bind (within_query trivial _) fun row => ?_
  cases row with
  | none => exact within_throw _
  | some user =>
    rw [refresh_checked]
    split
    · exact within_throw _
    · refine within_bind (within_ofExcept _) fun expires => within_bind (unguarding_delete_where _ _) fun deleted => ?_
      split
      · exact within_throw _
      · exact unguarding_session h

private theorem unguarding_ensure_active_admin_remains (dialect : Dialect) (user_id : String) (change : ProposedChange) :
    (ensure_active_admin_remains crates.toCrates dialect user_id change).within
      (unguarding UserTable.user_tokens (session_of crates token)) := by
  have hrows : (select_users dialect).within (unguarding UserTable.user_tokens (session_of crates token)) := by
    cases dialect with
    | Postgres => exact unguarding_update_where (by decide) _ _
    | Sqlite => exact within_query trivial _
  refine within_bind hrows fun rows => ?_
  dsimp only
  split
  · exact within_throw _
  · exact within_pure _

private theorem unguarding_revoke_sessions (user_id : String) :
    (revoke_sessions user_id).within (unguarding UserTable.user_tokens (session_of crates token)) :=
  within_bind (unguarding_delete_where _ _) fun _ => within_pure _

/-- A call that does not mint the token opens no session of it. -/
theorem unguarding_account_call {call : AccountCall}
    (h : ∀ minted, call.minted = some minted → hash_token crates.toCrates minted ≠ hash_token crates.toCrates token) :
    (call.tx crates).within (unguarding UserTable.user_tokens (session_of crates token)) := by
  cases call with
  | create_user req =>
    refine within_bind ?_ fun _ => within_pure _
    rw [create_user]
    split
    · exact within_throw _
    · exact within_bind (within_ofExcept _) fun hash =>
        within_bind (unguarding_insert_into (by decide) _ _) fun _ => within_pure _
  | login req =>
    refine within_bind (within_bind (within_query trivial _) fun row => ?_) fun _ => within_pure _
    cases row with
    | none => exact within_throw _
    | some user =>
      rw [login_checked]
      split
      · exact within_throw _
      · split
        · exact within_throw _
        · exact within_bind (within_ofExcept _) fun expires => unguarding_session (h _ rfl)
  | refresh_user_token req => exact within_bind (unguarding_refresh_user_token (h _ rfl)) fun _ => within_pure _
  | revoke_user_token token' => exact within_bind (unguarding_delete_where _ _) fun _ => within_pure _
  | prune_expired_tokens now =>
    exact within_bind (within_bind (unguarding_delete_where _ _) fun _ => within_pure _) fun _ => within_pure _
  | update_user_roles dialect user_id roles =>
    refine within_bind (unguarding_ensure_active_admin_remains _ _ _) fun _ =>
      within_bind (unguarding_update_where (by decide) _ _) fun res => ?_
    split
    · exact within_throw _
    · exact within_pure _
  | disable_user dialect now user_id =>
    refine within_bind (unguarding_ensure_active_admin_remains _ _ _) fun _ =>
      within_bind (unguarding_update_where (by decide) _ _) fun res => ?_
    split
    · exact within_throw _
    · exact unguarding_revoke_sessions _
  | enable_user user_id =>
    refine within_bind (unguarding_update_where (by decide) _ _) fun res => ?_
    split
    · exact within_throw _
    · exact within_pure _
  | set_user_password salt user_id new_password =>
    simp only [AccountCall.tx, set_user_password]
    split
    · exact within_throw _
    · refine within_bind (within_ofExcept _) fun hash => within_bind (unguarding_update_where (by decide) _ _) fun res => ?_
      split
      · exact within_throw _
      · exact unguarding_revoke_sessions _

end Programs

section Sessions

variable {crates : UserCrates} {db : sql.Rows UserTable.Row} {token : String}

/-- A table has at most one session of a token. -/
theorem one_session (h : Keyed db) (n m : Nat) (row row' : UserTokenRow) (hn : (db .user_tokens)[n]? = some row)
    (hm : (db .user_tokens)[m]? = some row') (hrow : session_of crates token row = true)
    (hrow' : session_of crates token row' = true) : n = m := by
  have hlt : n < ((db .user_tokens).map UserTokenRow.token_hash).length := by
    rw [List.length_map]
    exact (List.getElem?_eq_some_iff.mp hn).1
  refine (List.getElem?_inj hlt h.tokens).mp ?_
  rw [List.getElem?_map, List.getElem?_map, hn, hm]
  simp only [session_of, beq_iff_eq] at hrow hrow'
  simp [hrow, hrow']

/-- Without a session the bearer of the token is refused at any time. -/
theorem refused_without_session (h : ∀ row ∈ db .user_tokens, session_of crates token row = false) (seq : UserTable → Nat)
    (now : jiff.Timestamp) : accepts crates now ⟨db, seq⟩ token = false := by
  have hfind : (db .user_tokens).find? (presents (hash_token crates.toCrates token) now.to_string) = none := by
    refine List.find?_eq_none.mpr fun row hrow => ?_
    have hnot := h row hrow
    simp only [session_of] at hnot
    simp [presents, hnot]
  have hrun : (find_user_by_token crates now token).run ⟨db, seq⟩ = (.ok none, ⟨db, seq⟩) := by
    rw [find_user_by_token, run_bind_ok (run_query _ _), find_session, hfind]
    rfl
  rw [accepts, exec_of_run_ok hrun]

/-- What a refresh that commits has done, and answers with: the session of its
token is exchanged for a new one of the same user. -/
structure Exchanged (crates : UserCrates) (req : RefreshRequest) (before after : sql.Rows UserTable.Row)
    (answer : String × String × UserRecord) : Prop where
  token : answer.1 = req.new_token
  expires : user_token_expiry req.now req.ttl_secs = .ok answer.2.1
  users : after .users = before .users
  tokens : ∃ user, find_session (hash_token crates.toCrates req.token) req.now.to_string before = some user ∧
    user.disabled_at = none ∧ answer.2.2 = user_record crates.toCrates user ∧
    after .user_tokens = ((before .user_tokens).filter fun row => !session_of crates req.token row) ++
      [{ token_hash := hash_token crates.toCrates req.new_token, user_id := user.id, issued_at := req.now.to_string,
         expires_at := answer.2.1 }]
  opens : Opens before after (some (hash_token crates.toCrates req.token)) (hash_token crates.toCrates req.new_token)
    answer.2.1

theorem wp_refresh_user_token (req : RefreshRequest) (hkeyed : Keyed db) :
    (refresh_user_token crates req).wp db fun answer after => Exchanged crates req db after answer := by
  rw [refresh_user_token, wp_bind, wp_query]
  cases hfind : find_session (hash_token crates.toCrates req.token) req.now.to_string db with
  | none => trivial
  | some user =>
    obtain ⟨session, -, howner⟩ := Option.bind_eq_some_iff.mp hfind
    rw [refresh_checked]
    split_ifs with hdisabled
    · trivial
    · have henabled : user.disabled_at = none := by simpa using hdisabled
      rw [wp_bind, wp_ofExcept]
      intro expires hexpires
      rw [wp_bind, wp_delete_where]
      split_ifs
      · trivial
      · rw [wp_bind, wp_insert_into]
        intro id hclash
        rw [Function.update_self] at hclash ⊢
        have hsame : ((db .user_tokens).filter fun row => !(row.token_hash == hash_token crates.toCrates req.token)) =
            (db .user_tokens).filter fun row => some (hash_token crates.toCrates req.token) != some row.token_hash := by
          refine List.filter_congr fun row _ => ?_
          rw [bne, Option.some_beq_some, BEq.comm]
        generalize hafter : Function.update (Function.update db UserTable.user_tokens _) UserTable.user_tokens _ = after
        have husers : after .users = db .users := by
          rw [← hafter, Function.update_of_ne (by decide), Function.update_of_ne (by decide)]
        have htokens : after .user_tokens =
            ((db .user_tokens).filter fun row => some (hash_token crates.toCrates req.token) != some row.token_hash) ++
              [{ token_hash := hash_token crates.toCrates req.new_token, user_id := user.id,
                 issued_at := req.now.to_string, expires_at := expires }] := by
          rw [← hafter, Function.update_self, hsame]
        have hunique : hash_token crates.toCrates req.new_token ∉
            ((db .user_tokens).filter fun row => some (hash_token crates.toCrates req.token) != some row.token_hash).map
              UserTokenRow.token_hash := by
          intro hmem
          obtain ⟨row, hrow, hhash⟩ := List.mem_map.mp hmem
          rw [← hsame] at hrow
          have hnot := List.any_eq_false.mp hclash row hrow
          simp [Schema.clash, UserTable.clash, hhash] at hnot
        have hopens := opens_of_rows hkeyed husers htokens hunique rfl (List.mem_of_find?_eq_some howner) henabled
        exact ⟨rfl, hexpires, husers, ⟨user, hfind, henabled, rfl, htokens.trans (congrArg (· ++ _) hsame.symm)⟩, hopens⟩

end Sessions

/-- SHA-256 beside what the other crates do with one list of roles. -/
def refresh_crates : UserCrates where
  toCrates := { Crates.on [roles_value [.Operator]] with sha256_hex := sha2.hex_digest }
  hash_password salt password := .ok ("$argon2id$" ++ salt ++ "$" ++ password)
  verify_password password hash := (hash.toList.reverse.takeWhile (· != '$')).reverse == password.toList

def refresh_instant : jiff.Timestamp := ⟨62167219200000000000, jiff.unix_epoch_in_range⟩

def an_operator : UserRow :=
  { id := "u1", username := "dana", password_hash := "$argon2id$s0$pw", roles_json := "[\"operator\"]",
    created_at := "1969-12-01T00:00:00Z" }

def old_session : UserTokenRow :=
  { token_hash := hash_token refresh_crates.toCrates "t0", user_id := "u1", issued_at := "1969-12-31T23:30:00Z",
    expires_at := "1970-01-01T00:30:00Z" }

/-- An operator with one session, of the token `t0`. -/
def one_operator : sql.Db UserTable.Row where
  rows
    | .users => [an_operator]
    | .user_tokens => [old_session]
  seq _ := 1

theorem one_operator_keyed : Keyed one_operator.rows := ⟨by decide, by decide⟩

def two_refreshes : Bool → RefreshRequest
  | false => { token := "t0", new_token := "t1", ttl_secs := 3600, now := refresh_instant }
  | true => { token := "t0", new_token := "t2", ttl_secs := 3600, now := refresh_instant }

/-- Both refreshes have read the session before the first one deletes it. -/
def both_have_read : List (Action Bool ApiError) :=
  [.advance false, .advance true, .advance false, .advance true] ++ List.replicate 3 (.advance false) ++
    List.replicate 2 (.advance true)

private theorem minted_anew (i : Bool) :
    hash_token refresh_crates.toCrates (two_refreshes i).new_token ≠ hash_token refresh_crates.toCrates "t0" := by
  cases i <;> decide

section Runs

variable {ι : Type} [DecidableEq ι] {crates : UserCrates} {db : sql.Db UserTable.Row} {token : String}

/-- Beside any other calls that write users and sessions, and however they
interleave, at most one refresh of a token commits, and once one has the token
is never accepted again. -/
theorem refreshed_at_most_once (hkeyed : Keyed db.rows) {calls : ι → AccountCall}
    (hfresh : ∀ i minted, (calls i).minted = some minted →
      hash_token crates.toCrates minted ≠ hash_token crates.toCrates token)
    {w : World ι UserTable.Row ApiError Unit}
    (hrun : Interleaving (fun _ _ => True) (World.start db fun i => (calls i).tx crates) w) :
    (∀ i j, (calls i).refreshes token → (calls j).refreshes token → w.succeeded i → w.succeeded j → i = j) ∧
      ∀ i, (calls i).refreshes token → w.succeeded i → ∀ seq now, accepts crates now ⟨w.committed, seq⟩ token = false := by
  have hgate : ∀ i, (calls i).refreshes token →
      ((calls i).tx crates).consumes UserTable.user_tokens (session_of crates token) := by
    intro i hi
    cases hcall : calls i with
    | refresh_user_token req =>
      rw [hcall] at hi
      exact consumes_then (consumes_refresh_user_token hi)
    | create_user _ | login _ | revoke_user_token _ | prune_expired_tokens _ | update_user_roles _ _ _
    | disable_user _ _ _ | enable_user _ | set_user_password _ _ _ =>
      rw [hcall] at hi
      cases hi
  obtain ⟨honce, hgone⟩ := consumed_once (one_session hkeyed) hgate (fun i => unguarding_account_call (hfresh i)) hrun
  exact ⟨honce, fun i hi hdone seq now => refused_without_session (hgone i hi hdone) seq now⟩

/-- Two refreshes of one session, and the sweep of the expired ones. -/
def refreshes_and_sweep : Fin 3 → AccountCall
  | 0 => .refresh_user_token (two_refreshes false)
  | 1 => .refresh_user_token (two_refreshes true)
  | 2 => .prune_expired_tokens refresh_instant

theorem exchanged_token_is_refused : ∃ w : World (Fin 3) UserTable.Row ApiError Unit,
    ((w.sessions 0).committed = true ∧ (w.sessions 1).failed = true ∧ (w.sessions 2).committed = true) ∧
    (∀ i j, (refreshes_and_sweep i).refreshes "t0" → (refreshes_and_sweep j).refreshes "t0" → w.succeeded i →
      w.succeeded j → i = j) ∧
    ∀ i, (refreshes_and_sweep i).refreshes "t0" → w.succeeded i →
      ∀ seq now, accepts refresh_crates now ⟨w.committed, seq⟩ "t0" = false := by
  have hfollow : ((World.start one_operator fun i => (refreshes_and_sweep i).tx refresh_crates).follow any_step
      ([.advance 0, .advance 1, .advance 2, .advance 0, .advance 1] ++ List.replicate 3 (.advance 0) ++
        List.replicate 2 (.advance 1) ++ List.replicate 2 (.advance 2))).any
          (fun w => (w.sessions 0).committed && ((w.sessions 1).failed && (w.sessions 2).committed)) = true := by
    set_option maxRecDepth 4000 in decide
  obtain ⟨w, hrun, hdone⟩ := interleaving_of_follow (fun _ _ _ => trivial) hfollow
  have hfresh (i : Fin 3) (minted : String) (hminted : (refreshes_and_sweep i).minted = some minted) :
      hash_token refresh_crates.toCrates minted ≠ hash_token refresh_crates.toCrates "t0" := by
    obtain rfl | rfl | rfl : i = 0 ∨ i = 1 ∨ i = 2 := by omega
    · exact Option.some.inj hminted ▸ minted_anew false
    · exact Option.some.inj hminted ▸ minted_anew true
    · cases hminted
  exact ⟨w, by simpa using hdone, refreshed_at_most_once one_operator_keyed hfresh hrun⟩

/-- Of any refreshes of one token at most one commits, in every interleaving. Its
answer opens a session in the place of the old one; the others leave nothing behind. -/
theorem refreshes_race (hkeyed : Keyed db.rows) {requests : ι → RefreshRequest} (hsame : ∀ i, (requests i).token = token)
    (hfresh : ∀ i, hash_token crates.toCrates (requests i).new_token ≠ hash_token crates.toCrates token)
    {w : World ι UserTable.Row ApiError (String × String × UserRecord)}
    (hrun : Interleaving (fun _ _ => True) (World.start db fun i => refresh_user_token crates (requests i)) w) :
    (w.committed = db.rows ∧ ∀ i answer, w.sessions i ≠ .finished (.ok answer)) ∨
      ∃ i answer, (∀ j other, w.sessions j = .finished (.ok other) ↔ j = i ∧ other = answer) ∧
        Exchanged crates (requests i) db.rows w.committed answer ∧
        ∀ seq now, accepts crates now ⟨w.committed, seq⟩ token = false ∧
          (now.to_string < answer.2.1 → accepts crates now ⟨w.committed, seq⟩ answer.1 = true) := by
  refine (consuming_interleaving (one_session hkeyed) (fun i => consumes_refresh_user_token (hsame i))
    (fun i => unguarding_refresh_user_token (hfresh i)) (fun i => wp_refresh_user_token (requests i) hkeyed) hrun).imp_right ?_
  rintro ⟨i, answer, hexchanged, hwinner⟩
  refine ⟨i, answer, hwinner, hexchanged, fun seq now => ⟨?_, fun hlive => ?_⟩⟩
  · refine refused_without_session (fun row hrow => ?_) seq now
    obtain ⟨user, -, -, -, htokens⟩ := hexchanged.tokens
    rw [htokens, hsame i] at hrow
    obtain hold | hnew := List.mem_append.mp hrow
    · simpa using (List.mem_filter.mp hold).2
    · rw [List.mem_singleton.mp hnew]
      simpa [session_of] using hfresh i
  · rw [hexchanged.token]
    exact accepts_of_session hexchanged.opens.keyed hexchanged.opens.opened hlive

theorem second_refresh_is_refused : ∃ w : World Bool UserTable.Row ApiError (String × String × UserRecord),
    ((w.sessions false).committed = true ∧ (w.sessions true).failed = true) ∧
      ((w.committed = one_operator.rows ∧ ∀ i answer, w.sessions i ≠ .finished (.ok answer)) ∨
        ∃ i answer, (∀ j other, w.sessions j = .finished (.ok other) ↔ j = i ∧ other = answer) ∧
          Exchanged refresh_crates (two_refreshes i) one_operator.rows w.committed answer ∧
          ∀ seq now, accepts refresh_crates now ⟨w.committed, seq⟩ "t0" = false ∧
            (now.to_string < answer.2.1 → accepts refresh_crates now ⟨w.committed, seq⟩ answer.1 = true)) := by
  have hfollow : ((World.start one_operator fun i => refresh_user_token refresh_crates (two_refreshes i)).follow any_step
      both_have_read).any (fun w => (w.sessions false).committed && (w.sessions true).failed) = true := by
    set_option maxRecDepth 4000 in decide
  obtain ⟨w, hrun, hdone⟩ := interleaving_of_follow (fun _ _ _ => trivial) hfollow
  have hsame (i : Bool) : (two_refreshes i).token = "t0" := by cases i <;> rfl
  exact ⟨w, by simpa using hdone, refreshes_race one_operator_keyed hsame minted_anew hrun⟩

end Runs

end iac_controlplane.store
