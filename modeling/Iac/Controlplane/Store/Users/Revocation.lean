import Iac.Controlplane.Store.Run
import Iac.Controlplane.Store.Users.Calls
import Iac.Core.Sha256
import Iac.Sql.Query
import Iac.Sql.ReadCommitted.Local

open sql

namespace iac_controlplane.store

variable {ι : Type} [DecidableEq ι]

abbrev UserWorld (ι : Type) := World ι UserTable.Row ApiError Unit
abbrev UserHistory (ι : Type) := History ι UserTable.Row ApiError Unit

section History

variable (crates : UserCrates) (calls : ι → UserCall)

/-- The row of its user that call `i` reads in this step. -/
def reads (i : ι) (e : Entry ι UserTable.Row ApiError Unit) : Option UserRow :=
  if e.selects i then (calls i).user crates (e.state.view i) else none

/-- The row of its user that call `i` has read. -/
def seen (h : UserHistory ι) (i : ι) : Option UserRow :=
  h.findSome? (reads crates calls i)

/-- The steps since call `i` has read the row of its user. -/
def since (h : UserHistory ι) (i : ι) : UserHistory ι :=
  h.takeWhile fun e => (reads crates calls i e).isNone

/-- The step commits a password reset or a disable of the user. -/
def Revokes (user_id : String) (e : Entry ι UserTable.Row ApiError Unit) : Prop :=
  ∃ j, (calls j).revokes = some user_id ∧ e.commits j = true

/-- No password reset and no disable of the user has committed since call `i` has read its row. -/
def Unrevoked (h : UserHistory ι) (i : ι) (user_id : String) : Prop :=
  ∀ e ∈ since crates calls h i, ¬ Revokes calls user_id e

/-- Call `i` has committed the session in slot `n`. -/
def Opened (h : UserHistory ι) (n : Nat) (i : ι) : Prop :=
  ∃ e ∈ h, e.commits i = true ∧ ∃ row, (e.state.slots .user_tokens)[n]? = some ⟨none, some (i, some row)⟩

/-- The refresh `j` has read the session in slot `m` as the one of its token. -/
def Presented (h : UserHistory ι) (m : Nat) (j : ι) (req : RefreshRequest) : Prop :=
  ∃ e ∈ h, e.selects j = true ∧ ∃ s row, (e.state.slots .user_tokens)[m]? = some s ∧ s.visible j = some row ∧
    presents (hash_token crates.toCrates req.token) req.now.to_string row = true

/-- The session in slot `n` descends from the login `i`, through zero or more refreshes. -/
inductive Descends (h : UserHistory ι) : Nat → ι → Prop where
  | login {n : Nat} {i : ι} {req : LoginRequest} (hcall : calls i = .login req) (hopened : Opened h n i) : Descends h n i
  | refresh {n m : Nat} {i j : ι} {req : RefreshRequest} (hcall : calls j = .refresh_user_token req)
      (hopened : Opened h n j) (hpresented : Presented crates h m j req) (hfrom : Descends h m i) : Descends h n i

/-- The session in slot `n` descends from a login that verified the password
hash `password_hash` of its user and read the user's row after the last reset
of its password and the last time it was disabled. -/
def Genuine (h : UserHistory ι) (n : Nat) (user_id password_hash : String) : Prop :=
  ∃ i req row, calls i = .login req ∧ Descends crates calls h n i ∧ seen crates calls h i = some row ∧ row.id = user_id ∧
    row.disabled_at = none ∧ row.password_hash = password_hash ∧ crates.verify_password req.password password_hash = true ∧
      Unrevoked crates calls h i user_id

/-- The session belongs to an enabled user and stems from a login with the password stored now. -/
def Legitimate (h : UserHistory ι) (w : UserWorld ι) (n : Nat) (token : UserTokenRow) : Prop :=
  ∃ user, owner token.user_id w.committed = some user ∧ user.disabled_at = none ∧
    Genuine crates calls h n user.id user.password_hash

/-- A login or a refresh commits only while no password reset and no disable of
its user has committed since it read the user's row, and none has picked the
sessions that it deletes and is still open. -/
def commits_unrevoked (h : UserHistory ι) (e : Entry ι UserTable.Row ApiError Unit) : Prop :=
  ∀ i user, e.commits i = true → seen crates calls h i = some user →
    Unrevoked crates calls h i user.id ∧
      ∀ j, (calls j).revokes = some user.id → (e.state.sessions j).sweeping UserTable.user_tokens = false

end History

/-- The users of a control plane that has no sessions. -/
structure Accounts where
  users : List UserRow
  ids : (users.map UserRow.id).Nodup
  usernames : (users.map UserRow.username).Nodup

def Accounts.db (accounts : Accounts) : sql.Db UserTable.Row where
  rows
    | .users => accounts.users
    | .user_tokens => []
  seq _ := 1

variable {crates : UserCrates} {calls : ι → UserCall} {h : UserHistory ι} {e : Entry ι UserTable.Row ApiError Unit}

section History

variable {i : ι} {n : Nat} {user_id hash : String}

private theorem reads_eq_some {row : UserRow} (hreads : reads crates calls i e = some row) :
    e.selects i = true ∧ (calls i).user crates (e.state.view i) = some row := by
  unfold reads at hreads
  split_ifs at hreads with hselects
  exact ⟨hselects, hreads⟩

private theorem reads_eq_none (hsession : ∀ next, e.state.sessions i ≠ .running (.select next)) :
    reads crates calls i e = none := by
  cases hreads : reads crates calls i e with
  | none => rfl
  | some row =>
    obtain ⟨-, next, hnext⟩ := Entry.selects_iff.mp (reads_eq_some hreads).1
    exact absurd hnext (hsession next)

private theorem reads_of_other {j : ι} (hclient : e.action.client = j) (hne : j ≠ i) : reads crates calls i e = none := by
  cases hreads : reads crates calls i e with
  | none => rfl
  | some row =>
    have haction := (Entry.selects_iff.mp (reads_eq_some hreads).1).1
    rw [haction] at hclient
    exact absurd hclient.symm hne

private theorem seen_cons (hreads : reads crates calls i e = none) :
    seen crates calls (e :: h) i = seen crates calls h i := by
  simp [seen, hreads]

private theorem unrevoked_cons (hreads : reads crates calls i e = none) :
    Unrevoked crates calls (e :: h) i user_id ↔ ¬ Revokes calls user_id e ∧ Unrevoked crates calls h i user_id := by
  simp [Unrevoked, since, hreads]

private theorem opened_of_descends (hfrom : Descends crates calls h n i) : ∃ m, Opened h m i := by
  induction hfrom with
  | login hcall hopened => exact ⟨_, hopened⟩
  | refresh hcall hopened hpresented hfrom ih => exact ih

private theorem opened_cons (hopened : Opened h n i) : Opened (e :: h) n i := by
  obtain ⟨e', he', hrest⟩ := hopened
  exact ⟨e', List.mem_cons_of_mem e he', hrest⟩

private theorem presented_cons {req : RefreshRequest} (hpresented : Presented crates h n i req) :
    Presented crates (e :: h) n i req := by
  obtain ⟨e', he', hrest⟩ := hpresented
  exact ⟨e', List.mem_cons_of_mem e he', hrest⟩

private theorem descends_cons (hfrom : Descends crates calls h n i) : Descends crates calls (e :: h) n i := by
  induction hfrom with
  | login hcall hopened => exact .login hcall (opened_cons hopened)
  | refresh hcall hopened hpresented hfrom ih =>
    exact .refresh hcall (opened_cons hopened) (presented_cons hpresented) ih

/-- A step that does not revoke the user's sessions leaves them genuine. -/
private theorem genuine_cons (hended : ∀ n i, Opened h n i → ∃ result, e.state.sessions i = .finished result)
    (hkeep : ¬ Revokes calls user_id e) (hgenuine : Genuine crates calls h n user_id hash) :
    Genuine crates calls (e :: h) n user_id hash := by
  obtain ⟨i, req, row, hcall, hfrom, hseen, hid, henabled, hhash, hverified, hunrevoked⟩ := hgenuine
  obtain ⟨m, hopened⟩ := opened_of_descends hfrom
  obtain ⟨result, hresult⟩ := hended m i hopened
  have hreads : reads crates calls i e = none := reads_eq_none fun next => by simp [hresult]
  exact ⟨i, req, row, hcall, descends_cons hfrom, (seen_cons hreads).trans hseen, hid, henabled, hhash, hverified,
    (unrevoked_cons hreads).mpr ⟨hkeep, hunrevoked⟩⟩

end History

section Invariant

variable (crates calls)

/-- What call `i` may do, given the user it has read. -/
def call_rights (h : UserHistory ι) (i : ι) : Rights UserTable.Row :=
  if (calls i).opens then
    match seen crates calls h i with
    | some row => opener_rights row.id
    | none => { select := False, update := fun _ _ _ => False, insert := fun _ _ => False }
  else
    admin_rights (calls i).revokes

/-- How far call `i` is. -/
inductive Stage (h : UserHistory ι) (w : UserWorld ι) (i : ι) : Prop where
  | fresh (hopens : (calls i).opens = true) (hsession : w.sessions i = .running ((calls i).tx crates))
      (hseen : seen crates calls h i = none) (hfree : ∀ t, ∀ s ∈ w.slots t, s.owned i = false)
  | ended (hended : (∃ result, w.sessions i = .finished result) ∨ ∃ e, w.sessions i = .running (.done (.error e)))
  | checked (row : UserRow) (hopens : (calls i).opens = true) (hseen : seen crates calls h i = some row)
      (henabled : row.disabled_at = none) (hverified : (calls i).verifies crates row = true)
      (hwithin : ∀ p, (w.sessions i).todo = some p → p.within (opener_rights row.id))
      (hfrom : ∀ req, calls i = .refresh_user_token req → Unrevoked crates calls h i row.id →
        ∃ m hash, Presented crates h m i req ∧ Genuine crates calls h m row.id hash)
  | admin (hadmin : (calls i).opens = false)
      (hwithin : ∀ p, (w.sessions i).todo = some p → p.within (admin_rights (calls i).revokes))

/-- What holds of the sessions in every state that the condition admits. -/
structure SessionInvariant (h : UserHistory ι) (w : UserWorld ι) : Prop where
  ended : ∀ n i, Opened h n i → ∃ result, w.sessions i = .finished result
  stage : ∀ i, Stage crates calls h w i
  within : ∀ t, ∀ s ∈ w.slots t, s.within t (call_rights crates calls h)
  sweeps : ∀ i user_id, (calls i).revokes = some user_id →
    w.sweeps i UserTable.user_tokens fun token => token.user_id == user_id
  users : ∀ s ∈ w.slots .users, s.committed.isSome = true
  ids : ((w.committed .users).map UserRow.id).Nodup
  known : ∀ i row, seen crates calls h i = some row → Unrevoked crates calls h i row.id →
    ∃ user, owner row.id w.committed = some user ∧ KeepsAccess row user
  genuine : ∀ n s token, (w.slots .user_tokens)[n]? = some s → s.committed = some token →
    ∃ hash, Genuine crates calls h n token.user_id hash

end Invariant

variable {w u : UserWorld ι} {i : ι}

private theorem closed_opener_rights (user_id : String) : (opener_rights user_id).Closed := by
  refine ⟨fun t row row' new h => ?_, fun t row row' _ h => ?_⟩
  · cases t with
    | users => exact h.elim
    | user_tokens => cases h
  · cases t with
    | users => exact h.elim
    | user_tokens => cases h

private theorem closed_admin_rights (revokes : Option String) : (admin_rights revokes).Closed := by
  refine ⟨fun t row row' new h h' => ?_, fun t row row' h => h.elim⟩
  cases t with
  | user_tokens => cases h
  | users =>
    obtain ⟨_, ⟨⟩, hid, hkeeps⟩ := h
    obtain ⟨after, rfl, hid', hkeeps'⟩ := h'
    exact ⟨after, rfl, hid'.trans hid, fun hne => (hkeeps hne).trans (hkeeps' (by rwa [hid]))⟩

private theorem closed_call_rights (h : UserHistory ι) (i : ι) : (call_rights crates calls h i).Closed := by
  unfold call_rights
  split_ifs
  · split
    · exact closed_opener_rights _
    · exact ⟨fun _ _ _ _ h => h.elim, fun _ _ _ h => h.elim⟩
  · exact closed_admin_rights _

private theorem call_rights_of_seen {row : UserRow} (hopens : (calls i).opens = true)
    (hseen : seen crates calls h i = some row) : call_rights crates calls h i = opener_rights row.id := by
  simp [call_rights, hopens, hseen]

private theorem call_rights_of_admin (hadmin : (calls i).opens = false) :
    call_rights crates calls h i = admin_rights (calls i).revokes := by
  simp [call_rights, hadmin]

omit [DecidableEq ι] in
private theorem tx_of_opener (hopens : (calls i).opens = true) : ∃ next, (calls i).tx crates = .select next := by
  obtain ⟨next, htx, -⟩ := opener_reads hopens
  exact ⟨next, htx⟩

/-- What a call is about to write is within its rights. -/
private theorem writes_within_of_stage (hstage : Stage crates calls h w i) :
    (w.sessions i).writes_within (call_rights crates calls h i) := by
  cases hstage with
  | fresh hopens hsession hseen hfree =>
    obtain ⟨next, htx⟩ := tx_of_opener hopens
    rw [hsession, htx]
    trivial
  | ended hended =>
    obtain ⟨result, hresult⟩ | ⟨e, he⟩ := hended
    · rw [hresult]
      trivial
    · rw [he]
      trivial
  | checked row hopens hseen henabled hverified hwithin hfrom =>
    rw [call_rights_of_seen hopens hseen]
    exact writes_within_of_todo hwithin
  | admin hadmin hwithin =>
    rw [call_rights_of_admin hadmin]
    exact writes_within_of_todo hwithin

private theorem select_of_reads {a : Action ι ApiError} {row : UserRow} (hreads : reads crates calls i ⟨w, a⟩ = some row) :
    a = .advance i ∧ ∃ next, w.sessions i = .running (.select next) :=
  Entry.selects_iff.mp (reads_eq_some hreads).1

/-- Only a call that has done nothing yet reads a user. -/
private theorem fresh_of_reads {a : Action ι ApiError} (hstage : Stage crates calls h w i) {row : UserRow}
    (hreads : reads crates calls i ⟨w, a⟩ = some row) : (calls i).opens = true ∧
      w.sessions i = .running ((calls i).tx crates) ∧ seen crates calls h i = none ∧ ∀ t, ∀ s ∈ w.slots t, s.owned i = false := by
  obtain ⟨-, huser⟩ := reads_eq_some hreads
  obtain ⟨-, next, hnext⟩ := select_of_reads hreads
  cases hstage with
  | fresh hopens hsession hseen hfree => exact ⟨hopens, hsession, hseen, hfree⟩
  | ended hended => simp [hnext] at hended
  | checked row hopens hseen henabled hverified hwithin hfrom =>
    rw [hnext] at hwithin
    exact (hwithin _ rfl).1.elim
  | admin hadmin hwithin =>
    cases hcall : calls i with
    | login req | refresh_user_token req => simp [hcall, UserCall.opens] at hadmin
    | set_user_password salt user_id new_password | disable_user dialect now user_id | enable_user user_id =>
      simp [hcall, UserCall.user] at huser

private theorem not_update_token {token token' : UserTokenRow} :
    ¬ (call_rights crates calls h i).update .user_tokens token (some token') := by
  unfold call_rights
  split_ifs
  · split
    · exact fun heq => nomatch heq
    · exact fun hfalse => hfalse
  · exact fun heq => nomatch heq

private theorem seen_of_insert {token : UserTokenRow} (hinsert : (call_rights crates calls h i).insert .user_tokens token) :
    (calls i).opens = true ∧ ∃ row, seen crates calls h i = some row ∧ token.user_id = row.id := by
  unfold call_rights at hinsert
  split_ifs at hinsert with hopens
  · refine ⟨hopens, ?_⟩
    split at hinsert
    · next row hseen => exact ⟨row, hseen, hinsert⟩
    · exact hinsert.elim
  · exact hinsert.elim

/-- An open transaction that has written a session has opened it, for the user it has read. -/
private theorem opened_token (hinv : SessionInvariant crates calls h w) {s : Slot ι UserTokenRow} (hs : s ∈ w.slots .user_tokens)
    {token : UserTokenRow} (hpending : s.pending = some (i, some token)) : s.committed = none ∧ (calls i).opens = true ∧
      ∃ row, seen crates calls h i = some row ∧ token.user_id = row.id := by
  obtain ⟨hupdate, hinsert⟩ := hinv.within .user_tokens s hs i (some token) hpending
  cases hcommitted : s.committed with
  | some old => exact (not_update_token (hupdate old hcommitted)).elim
  | none => exact ⟨rfl, seen_of_insert (hinsert hcommitted token rfl)⟩

/-- What client `i` sees of a user, beside what is committed. -/
private theorem user_version (hinv : SessionInvariant crates calls h w) (i : ι) : ∀ s ∈ w.slots .users,
    ∃ before after, s.committed = some before ∧ s.visible i = some after ∧ after.id = before.id ∧
      ((calls i).revokes ≠ some before.id → KeepsAccess before after) := by
  intro s hs
  obtain ⟨before, hbefore⟩ := Option.isSome_iff_exists.mp (hinv.users s hs)
  cases howned : s.owned i with
  | false =>
    exact ⟨before, before, hbefore, (visible_of_not_owned howned).trans hbefore, rfl, fun _ => ⟨rfl, fun hnone => hnone⟩⟩
  | true =>
    obtain ⟨new, hnew⟩ := pending_of_owned howned
    have hupdate := (hinv.within .users s hs i new hnew).1 before hbefore
    unfold call_rights at hupdate
    split_ifs at hupdate
    · split at hupdate
      · exact hupdate.elim
      · exact hupdate.elim
    · obtain ⟨after, rfl, hid, hkeeps⟩ := hupdate
      exact ⟨before, after, hbefore, by simp [Slot.visible, hnew], hid, hkeeps⟩

private theorem not_revokes_of_reads {a : Action ι ApiError} {row : UserRow}
    (hreads : reads crates calls i ⟨w, a⟩ = some row) (user_id : String) : ¬ Revokes calls user_id ⟨w, a⟩ := by
  rintro ⟨j, -, hcommits⟩
  obtain ⟨rfl, next, hnext⟩ := select_of_reads hreads
  obtain ⟨hj, b, hb⟩ : Action.advance i = Action.advance j ∧ ∃ b, w.sessions j = .running (.done (.ok b)) :=
    Entry.commits_iff.mp hcommits
  obtain rfl := Action.advance.inj hj
  simp [hnext] at hb

/-- What a call finds that reads its user. -/
private theorem read_of_committed (hinv : SessionInvariant crates calls h w) {a : Action ι ApiError} {row : UserRow}
    (hreads : reads crates calls i ⟨w, a⟩ = some row) : owner row.id w.committed = some row ∧
      ∀ req, calls i = .refresh_user_token req → ∃ token ∈ w.view i .user_tokens,
        presents (hash_token crates.toCrates req.token) req.now.to_string token = true ∧ token.user_id = row.id := by
  obtain ⟨-, -, -, hfree⟩ := fresh_of_reads (hinv.stage i) hreads
  have huser : (calls i).user crates (w.view i) = some row := (reads_eq_some hreads).2
  cases hcall : calls i with
  | set_user_password salt user_id new_password | disable_user dialect now user_id | enable_user user_id =>
    simp [hcall, UserCall.user] at huser
  | login req =>
    refine ⟨?_, fun req' heq => nomatch heq⟩
    rw [hcall, view_of_not_owned hfree] at huser
    exact find_key_of_mem hinv.ids (List.mem_of_find?_eq_some huser)
  | refresh_user_token req =>
    rw [hcall] at huser
    obtain ⟨token, htoken, howner⟩ := Option.bind_eq_some_iff.mp huser
    refine ⟨?_, fun req' heq => ?_⟩
    · rw [view_of_not_owned hfree] at howner
      rwa [owner_id howner]
    · obtain rfl := UserCall.refresh_user_token.inj heq
      exact ⟨token, List.mem_of_find?_eq_some htoken, by simpa using List.find?_some htoken, (owner_id howner).symm⟩

section Step

variable {a : Action ι ApiError} (hinv : SessionInvariant crates calls h w) (hstep : w.step a = some u)

include hinv hstep

private theorem ended_step (n : Nat) (i : ι) (hopened : Opened (⟨w, a⟩ :: h) n i) :
    ∃ result, u.sessions i = .finished result := by
  have hmove := moved_of_step hstep
  obtain ⟨e, he, hcommits, hslot⟩ := hopened
  obtain rfl | hmem := List.mem_cons.mp he
  · obtain ⟨rfl, b, hs⟩ := Entry.commits_iff.mp hcommits
    refine ⟨.ok b, ?_⟩
    have hu : w.finish i (.ok b) = u := by
      simpa [World.step, World.advance, show w.sessions i = .running (.done (.ok b)) from hs] using hstep
    simp [← hu, World.finish, World.set_session]
  · obtain ⟨result, hresult⟩ := hinv.ended n i ⟨e, hmem, hcommits, hslot⟩
    exact ⟨result, finished_of_moved hmove hresult⟩

private theorem within_step (t : UserTable) : ∀ s ∈ u.slots t, s.within t (call_rights crates calls (⟨w, a⟩ :: h)) := by
  have hmove := moved_of_step hstep
  have hwithin := within_of_moved hinv.within (closed_call_rights h a.client)
    (writes_within_of_stage (hinv.stage a.client)) hmove t
  intro s hmem
  refine within_congr (hwithin s hmem) fun i new hpending => ?_
  cases hreads : reads crates calls i ⟨w, a⟩ with
  | none => simp only [call_rights, seen_cons hreads]
  | some row =>
    obtain ⟨-, hsession, -, hfree⟩ := fresh_of_reads (hinv.stage i) hreads
    obtain ⟨rfl, next, hnext⟩ := select_of_reads hreads
    have hu : w.set_session i (.running (next (w.view i))) = u := by
      simpa [World.step, World.advance, hnext] using hstep
    rw [← hu] at hmem
    have howned := hfree t s hmem
    rw [owned_of_pending hpending] at howned
    cases howned

private theorem sweeps_step (hallowed : commits_unrevoked crates calls h ⟨w, a⟩) (i : ι) (user_id : String)
    (hrevokes : (calls i).revokes = some user_id) :
    u.sweeps i UserTable.user_tokens fun token => token.user_id == user_id := by
  have hmove := moved_of_step hstep
  have hsweeps := hinv.sweeps i user_id hrevokes
  by_cases hi : a.client = i
  · subst hi
    exact sweeps_of_self hmove hsweeps
  · refine sweeps_of_ne hmove hi hsweeps fun hcommit hsweeping s hs token hpending hmatch => ?_
    obtain ⟨-, -, row, hseen, hid⟩ := opened_token hinv hs hpending
    obtain rfl : token.user_id = user_id := eq_of_beq hmatch
    have hopen := (hallowed a.client row (commits_of_succeeded hstep hcommit) hseen).2 i (hid ▸ hrevokes)
    rw [show (w.sessions i).sweeping UserTable.user_tokens = false from hopen] at hsweeping
    cases hsweeping

/-- A session that stays committed is not one that the step revokes. -/
private theorem not_revokes_of_committed {token : UserTokenRow} (htoken : token ∈ u.committed .user_tokens) :
    ¬ Revokes calls token.user_id ⟨w, a⟩ := by
  rintro ⟨j, hrevokes, hcommits⟩
  obtain ⟨rfl, b, hb⟩ := succeeded_of_commits hstep hcommits
  obtain ⟨hs, hu⟩ := commit_of_succeeded (moved_of_step hstep) hb
  rw [hu] at htoken
  have hswept := swept_of_commit (hinv.sweeps a.client token.user_id hrevokes) hs token htoken
  simp at hswept

private theorem users_step : ∀ s ∈ u.slots .users, s.committed.isSome = true := by
  intro s hmem
  obtain ⟨n, hn⟩ := List.mem_iff_getElem?.mp hmem
  cases slot_step_of_moved (moved_of_step hstep) hn with
  | same s hs => exact hinv.users s (List.mem_of_getElem? hs)
  | rollback before hs howned => exact hinv.users before (List.mem_of_getElem? hs)
  | write before hs targets which change next hsession htarget hfree row hvisible hwhich =>
    exact hinv.users before (List.mem_of_getElem? hs)
  | commit before new hs hpending hdone =>
    obtain ⟨-, after, -, hafter, -⟩ := user_version hinv a.client before (List.mem_of_getElem? hs)
    obtain rfl : new = some after := by simpa [Slot.visible, hpending] using hafter
    rfl
  | add values next hsession id hn =>
    have hwrites := writes_within_of_stage (hinv.stage a.client)
    rw [hsession] at hwrites
    have hinsert := hwrites 0
    unfold call_rights at hinsert
    split_ifs at hinsert
    · split at hinsert
      · exact hinsert.elim
      · exact hinsert.elim
    · exact hinsert.elim

/-- The users stay who they are, and what a step changes of them it revokes. -/
private theorem committed_users_step : (u.committed .users).map UserRow.id = (w.committed .users).map UserRow.id ∧
    ∀ user_id user, owner user_id w.committed = some user → ∃ user', owner user_id u.committed = some user' ∧
      (¬ Revokes calls user_id ⟨w, a⟩ → KeepsAccess user user') := by
  by_cases hkeep : u.succeeded a.client
  · obtain ⟨b, hb⟩ := hkeep
    obtain ⟨-, hu⟩ := commit_of_succeeded (moved_of_step hstep) hb
    have hcommitted : u.committed = w.view a.client := by rw [hu, committed_finish]
    obtain ⟨hcolumn, hfind⟩ := find_key_filterMap (user_version hinv a.client)
    refine ⟨by rw [hcommitted]; exact hcolumn, fun user_id user huser => ?_⟩
    obtain ⟨user', huser', hkeeps⟩ := hfind user_id user huser
    refine ⟨user', by rw [owner, hcommitted]; exact huser', fun hnot => hkeeps fun hrevokes => hnot ?_⟩
    obtain rfl := owner_id huser
    exact ⟨a.client, hrevokes, commits_of_succeeded hstep ⟨b, hb⟩⟩
  · rw [committed_of_moved (moved_of_step hstep) hkeep]
    exact ⟨rfl, fun user_id user huser => ⟨user, huser, fun _ => ⟨rfl, fun hnone => hnone⟩⟩⟩

private theorem genuine_step (hallowed : commits_unrevoked crates calls h ⟨w, a⟩) (n : Nat)
    (s : Slot ι (UserTable.Row .user_tokens)) (token : UserTokenRow) (hs : (u.slots .user_tokens)[n]? = some s)
    (htoken : s.committed = some token) :
    ∃ hash, Genuine crates calls (⟨w, a⟩ :: h) n token.user_id hash := by
  have hmem : token ∈ u.committed .user_tokens := List.mem_filterMap.mpr ⟨s, List.mem_of_getElem? hs, htoken⟩
  have hkeep : ¬ Revokes calls token.user_id ⟨w, a⟩ := not_revokes_of_committed hinv hstep hmem
  have hold (before : Slot ι (UserTable.Row .user_tokens)) (hbefore : (w.slots .user_tokens)[n]? = some before)
      (hcommitted : before.committed = some token) : ∃ hash, Genuine crates calls (⟨w, a⟩ :: h) n token.user_id hash := by
    obtain ⟨hash, hgenuine⟩ := hinv.genuine n before token hbefore hcommitted
    exact ⟨hash, genuine_cons hinv.ended hkeep hgenuine⟩
  cases slot_step_of_moved (moved_of_step hstep) hs with
  | same s hbefore => exact hold s hbefore htoken
  | rollback before hbefore howned => exact hold before hbefore htoken
  | write before hbefore targets which change next hsession htarget hfree row hvisible hwhich =>
    exact hold before hbefore htoken
  | add values next hsession id hn => cases htoken
  | commit before new hbefore hpending hdone =>
    obtain rfl : new = some token := htoken
    obtain ⟨hcommitted, hopens, row, hseen, hid⟩ := opened_token hinv (List.mem_of_getElem? hbefore) hpending
    have hcommits := commits_of_succeeded hstep hdone
    obtain ⟨b, hsession⟩ : ∃ b, w.sessions a.client = .running (.done (.ok b)) := (Entry.commits_iff.mp hcommits).2
    have hreads : reads crates calls a.client ⟨w, a⟩ = none := reads_eq_none fun next => by simp [hsession]
    have hunrevoked := (hallowed a.client row hcommits hseen).1
    have hopened : Opened (⟨w, a⟩ :: h) n a.client := by
      refine ⟨_, List.mem_cons_self, hcommits, token, ?_⟩
      rw [← hcommitted, ← hpending]
      exact hbefore
    cases hinv.stage a.client with
    | fresh _ hfresh _ _ =>
      obtain ⟨next, htx⟩ := @tx_of_opener ι crates calls a.client hopens
      rw [htx] at hfresh
      simp [hfresh] at hsession
    | ended hended =>
      simp [hsession] at hended
    | admin hadmin _ =>
      rw [hopens] at hadmin
      cases hadmin
    | checked row' _ hseen' henabled hverified hwithin hfrom =>
      obtain rfl : row' = row := Option.some.inj (hseen'.symm.trans hseen)
      rw [hid] at hkeep ⊢
      cases hcall : calls a.client with
      | set_user_password salt user_id new_password | disable_user dialect now user_id | enable_user user_id =>
        simp [hcall, UserCall.opens] at hopens
      | login req =>
        exact ⟨row'.password_hash, a.client, req, row', hcall, .login hcall hopened, (seen_cons hreads).trans hseen, rfl,
          henabled, rfl, by simpa [hcall, UserCall.verifies] using hverified, (unrevoked_cons hreads).mpr ⟨hkeep, hunrevoked⟩⟩
      | refresh_user_token req =>
        obtain ⟨m, hash, hpresented, hgenuine⟩ := hfrom req hcall hunrevoked
        obtain ⟨i, login, hrow, hlogin, hdescends, hrest⟩ := genuine_cons hinv.ended hkeep hgenuine
        exact ⟨hash, i, login, hrow, hlogin, .refresh hcall hopened (presented_cons hpresented) hdescends, hrest⟩

private theorem known_step (i : ι) (row : UserRow) (hseen : seen crates calls (⟨w, a⟩ :: h) i = some row)
    (hunrevoked : Unrevoked crates calls (⟨w, a⟩ :: h) i row.id) :
    ∃ user, owner row.id u.committed = some user ∧ KeepsAccess row user := by
  obtain ⟨-, hfind⟩ := committed_users_step hinv hstep
  cases hreads : reads crates calls i ⟨w, a⟩ with
  | none =>
    obtain ⟨hkeep, hbefore⟩ := (unrevoked_cons hreads).mp hunrevoked
    obtain ⟨user, huser, hkeeps⟩ := hinv.known i row ((seen_cons hreads).symm.trans hseen) hbefore
    obtain ⟨user', huser', hkeeps'⟩ := hfind row.id user huser
    exact ⟨user', huser', hkeeps.trans (hkeeps' hkeep)⟩
  | some row' =>
    obtain rfl : row' = row := by simpa [seen, hreads] using hseen
    obtain ⟨user', huser', hkeeps'⟩ := hfind row'.id row' (read_of_committed hinv hreads).1
    exact ⟨user', huser', hkeeps' (not_revokes_of_reads hreads _)⟩

omit hstep in
/-- What a refresh has read of its token stays genuine until the sessions of its user are revoked. -/
private theorem from_step {i : ι} {row : UserRow} (hreads : reads crates calls i ⟨w, a⟩ = none)
    (hfrom : ∀ req, calls i = .refresh_user_token req → Unrevoked crates calls h i row.id →
      ∃ m hash, Presented crates h m i req ∧ Genuine crates calls h m row.id hash) :
    ∀ req, calls i = .refresh_user_token req → Unrevoked crates calls (⟨w, a⟩ :: h) i row.id →
      ∃ m hash, Presented crates (⟨w, a⟩ :: h) m i req ∧ Genuine crates calls (⟨w, a⟩ :: h) m row.id hash := by
  intro req hcall hunrevoked
  obtain ⟨hkeep, hbefore⟩ := (unrevoked_cons hreads).mp hunrevoked
  obtain ⟨m, hash, hpresented, hgenuine⟩ := hfrom req hcall hbefore
  exact ⟨m, hash, presented_cons hpresented, genuine_cons hinv.ended hkeep hgenuine⟩

omit hstep in
/-- The session that a refresh reads is genuine. -/
private theorem from_read {i : ι} {row : UserRow} (hreads : reads crates calls i ⟨w, a⟩ = some row) :
    ∀ req, calls i = .refresh_user_token req → Unrevoked crates calls (⟨w, a⟩ :: h) i row.id →
      ∃ m hash, Presented crates (⟨w, a⟩ :: h) m i req ∧ Genuine crates calls (⟨w, a⟩ :: h) m row.id hash := by
  intro req hcall _
  obtain ⟨token, htoken, hpresents, hid⟩ := (read_of_committed hinv hreads).2 req hcall
  obtain ⟨-, -, -, hfree⟩ := fresh_of_reads (hinv.stage i) hreads
  obtain ⟨s, hs, hvisible⟩ := List.mem_filterMap.mp htoken
  obtain ⟨m, hm⟩ := List.mem_iff_getElem?.mp hs
  have hcommitted : s.committed = some token := (visible_of_not_owned (hfree _ s hs)).symm.trans hvisible
  obtain ⟨hash, hgenuine⟩ := hinv.genuine m s token hm hcommitted
  rw [hid] at hgenuine
  exact ⟨m, hash, ⟨_, List.mem_cons_self, (reads_eq_some hreads).1, s, token, hm, hvisible, hpresents⟩,
    genuine_cons hinv.ended (not_revokes_of_reads hreads _) hgenuine⟩

private theorem stage_step_of_ne {i : ι} (hne : a.client ≠ i) : Stage crates calls (⟨w, a⟩ :: h) u i := by
  have hmove := moved_of_step hstep
  have hsession := sessions_of_ne hmove (Ne.symm hne)
  have hreads : reads crates calls i ⟨w, a⟩ = none := reads_of_other rfl hne
  cases hinv.stage i with
  | fresh hopens hfresh hseen hfree =>
    exact .fresh hopens (hsession.trans hfresh) ((seen_cons hreads).trans hseen) fun t => not_owned_of_ne hmove hne (hfree t)
  | ended hended => exact .ended (by rwa [hsession])
  | checked row hopens hseen henabled hverified hwithin hfrom =>
    exact .checked row hopens ((seen_cons hreads).trans hseen) henabled hverified (by rwa [hsession])
      (from_step hinv hreads hfrom)
  | admin hadmin hwithin => exact .admin hadmin (by rwa [hsession])

private theorem stage_step_of_self : Stage crates calls (⟨w, a⟩ :: h) u a.client := by
  have hmove := moved_of_step hstep
  cases hinv.stage a.client with
  | fresh hopens hfresh hseen hfree =>
    obtain ⟨next, htx, hnone, hsome⟩ := @opener_reads crates _ hopens
    rw [htx] at hfresh
    cases a with
    | abort i error =>
      have hu : w.finish i (.error error) = u := by
        simpa [World.step, show w.sessions i = .running (.select next) from hfresh] using hstep
      exact .ended (.inl ⟨.error error, by simp [← hu, World.finish, World.set_session, Action.client]⟩)
    | advance i =>
      have hu : w.set_session i (.running (next (w.view i))) = u := by
        simpa [World.step, World.advance, show w.sessions i = .running (.select next) from hfresh] using hstep
      have hreads : reads crates calls i ⟨w, .advance i⟩ = (calls i).user crates (w.view i) :=
        if_pos (Entry.selects_iff.mpr ⟨rfl, next, hfresh⟩)
      have hsession : u.sessions i = .running (next (w.view i)) := by rw [← hu, sessions_set_session]
      cases huser : (calls i).user crates (w.view i) with
      | none =>
        obtain ⟨error, herror⟩ := hnone _ huser
        exact .ended (.inr ⟨error, by rw [← herror]; exact hsession⟩)
      | some row =>
        rw [huser] at hreads
        obtain ⟨error, herror⟩ | ⟨henabled, hverified, hwithin⟩ := hsome _ row huser
        · exact .ended (.inr ⟨error, by rw [← herror]; exact hsession⟩)
        · refine .checked row hopens (by simp [seen, Action.client, hreads]) henabled hverified (fun p hp => ?_)
            (from_read hinv hreads)
          rw [show u.sessions (Action.advance (ε := ApiError) i).client = _ from hsession] at hp
          exact Option.some.inj hp ▸ hwithin
  | ended hended =>
    obtain ⟨result, hresult⟩ | ⟨error, herror⟩ := hended
    · exact absurd hresult (not_finished_of_moved hmove result)
    · cases hmove with
      | stop e hs hu => exact .ended (.inl ⟨.error e, by simp [hu, World.finish, World.set_session]⟩)
      | commit b hs hu | read next hs hu | pick t which change next hs hu | write t targets which change next hs hfree hu
      | violate t values next hs hclash hu | add t values next hs hclash hu => simp [herror] at hs
  | checked row hopens hseen henabled hverified hwithin hfrom =>
    have hreads : reads crates calls a.client ⟨w, a⟩ = none := reads_eq_none fun next hnext => by
      rw [show w.sessions a.client = .running (.select next) from hnext] at hwithin
      exact (hwithin _ rfl).1
    exact .checked row hopens ((seen_cons hreads).trans hseen) henabled hverified
      (todo_within_of_moved hwithin hmove) (from_step hinv hreads hfrom)
  | admin hadmin hwithin => exact .admin hadmin (todo_within_of_moved hwithin hmove)

private theorem stage_step (i : ι) : Stage crates calls (⟨w, a⟩ :: h) u i := by
  by_cases hi : a.client = i
  · exact hi ▸ stage_step_of_self hinv hstep
  · exact stage_step_of_ne hinv hstep hi

end Step

section Runs

variable {accounts : Accounts}

private theorem invariant_start : SessionInvariant crates calls [] (World.start accounts.db fun i => (calls i).tx crates) := by
  have hslot (t : UserTable) : ∀ s ∈ (World.start accounts.db fun i => (calls i).tx crates).slots t,
      s.committed.isSome = true ∧ s.pending = none := by
    intro s hs
    obtain ⟨row, -, rfl⟩ := List.mem_map.mp hs
    exact ⟨rfl, rfl⟩
  have hfree (i : ι) (t : UserTable) : ∀ s ∈ (World.start accounts.db fun i => (calls i).tx crates).slots t,
      s.owned i = false := by
    intro s hs
    simp [Slot.owned, (hslot t s hs).2]
  refine ⟨fun n i hopened => ?_, fun i => ?_, fun t s hs => within_of_free (hslot t s hs).2,
    fun i user_id hrevokes => sweeps_start (revoker_sweeps hrevokes), fun s hs => (hslot _ s hs).1, ?_,
    fun i row hseen => (by cases hseen), fun n s token hs => ?_⟩
  · obtain ⟨e, he, -⟩ := hopened
    cases he
  · cases hopens : (calls i).opens with
    | true => exact .fresh hopens rfl rfl (hfree i)
    | false =>
      refine .admin hopens fun p hp => ?_
      obtain rfl := Option.some.inj hp
      exact admin_within hopens
  · have hcommitted : (World.start accounts.db fun i => (calls i).tx crates).committed .users = accounts.users := by
      change (accounts.users.map fun row => (⟨some row, none⟩ : Slot ι UserRow)).filterMap Slot.committed = accounts.users
      rw [List.filterMap_map]
      exact List.filterMap_some
    rw [hcommitted]
    exact accounts.ids
  · cases hs

private theorem invariant_run (hrun : Recorded (commits_unrevoked crates calls)
    (World.start accounts.db fun i => (calls i).tx crates) h w) : SessionInvariant crates calls h w := by
  induction hrun with
  | start => exact invariant_start
  | step hrun hallowed hstep ih =>
    exact ⟨ended_step ih hstep, stage_step ih hstep, within_step ih hstep, sweeps_step ih hstep hallowed,
      users_step ih hstep, (committed_users_step ih hstep).1 ▸ ih.ids, known_step ih hstep, genuine_step ih hstep hallowed⟩

private theorem legitimate_of_invariant (hinv : SessionInvariant crates calls h w) {n : Nat} {s : Slot ι UserTokenRow}
    {token : UserTokenRow} (hslot : (w.slots .user_tokens)[n]? = some s) (htoken : s.committed = some token) :
    Legitimate crates calls h w n token := by
  obtain ⟨hash, i, req, row, hcall, hfrom, hseen, hid, henabled, rfl, hverified, hunrevoked⟩ :=
    hinv.genuine n s token hslot htoken
  rw [← hid] at hunrevoked
  obtain ⟨user, huser, hhash, hkeeps⟩ := hinv.known i row hseen hunrevoked
  refine ⟨user, hid ▸ huser, hkeeps henabled, i, req, row, hcall, hfrom, hseen, (owner_id huser).symm, henabled, hhash.symm, ?_, ?_⟩
  · rw [hhash]
    exact hverified
  · rw [owner_id huser]
    exact hunrevoked

/-- Whatever calls run at once, every session belongs to an enabled user and
stems from a login with the password stored now, as long as no login and no
refresh commits after a reset or a disable that has missed its session. -/
theorem revocation_is_complete (hrun : Recorded (commits_unrevoked crates calls)
    (World.start accounts.db fun i => (calls i).tx crates) h w) {n : Nat} {s : Slot ι UserTokenRow} {token : UserTokenRow}
    (hslot : (w.slots .user_tokens)[n]? = some s) (htoken : s.committed = some token) :
    Legitimate crates calls h w n token :=
  legitimate_of_invariant (invariant_run hrun) hslot htoken

/-- A bearer token authenticates a user only through such a session. -/
theorem authenticated_by_legitimate_session (hrun : Recorded (commits_unrevoked crates calls)
    (World.start accounts.db fun i => (calls i).tx crates) h w) {now : jiff.Timestamp} {bearer : String}
    {db after : sql.Db UserTable.Row} (hdb : db.rows = w.committed) {record : UserRecord}
    (hfound : (find_user_by_token crates now bearer).run db = (.ok (some record), after)) :
    ∃ n token, Legitimate crates calls h w n token ∧ token.user_id = record.id ∧
      presents (hash_token crates.toCrates bearer) now.to_string token = true := by
  rw [find_user_by_token, run_bind_ok (run_query _ _), hdb] at hfound
  cases hsession : find_session (hash_token crates.toCrates bearer) now.to_string w.committed with
  | none => simp [hsession] at hfound
  | some row =>
    obtain ⟨token, htoken, howner⟩ := Option.bind_eq_some_iff.mp hsession
    obtain ⟨s, hs, hcommitted⟩ := List.mem_filterMap.mp (List.mem_of_find?_eq_some htoken)
    obtain ⟨n, hn⟩ := List.mem_iff_getElem?.mp hs
    obtain ⟨⟨-, rfl⟩, -⟩ : (row.disabled_at = none ∧ user_record crates.toCrates row = record) ∧ db = after := by
      simpa [hsession] using hfound
    exact ⟨n, token, legitimate_of_invariant (invariant_run hrun) hn hcommitted, (owner_id howner).symm,
      by simpa using List.find?_some htoken⟩

end Runs

/-- What the crates do with these passwords and tokens. -/
def user_crates : UserCrates where
  toCrates := { Crates.on [.array [.string "operator"]] with sha256_hex := sha2.hex_digest }
  hash_password salt password := .ok ("$argon2id$" ++ salt ++ "$" ++ password)
  verify_password password hash := (hash.toList.reverse.takeWhile (· != '$')).reverse == password.toList

def alice : UserRow :=
  { id := "u1", username := "alice", password_hash := "$argon2id$s0$old", roles_json := "[\"operator\"]",
    created_at := "2026-05-01T00:00:00Z" }

def only_alice : Accounts where
  users := [alice]
  ids := by decide
  usernames := by decide

def reset_and_login (password : String) : Bool → UserCall
  | false => .login { username := "alice", password, token := "t1", ttl_secs := 3600, now := midnight }
  | true => .set_user_password "s1" "u1" "new"

def reset_and_login_start (password : String) : UserWorld Bool :=
  World.start only_alice.db fun i => (reset_and_login password i).tx user_crates

/-- Both calls have committed, and the session of the login is there, with an hour to live. -/
def session_is_there (w : UserWorld Bool) : Bool :=
  (w.sessions false).committed && (w.sessions true).committed &&
    ((w.slots .user_tokens)[0]?).any fun s => s.committed.any fun token =>
      decide (midnight.to_string < token.expires_at) && (owner token.user_id w.committed).any fun user =>
        user.password_hash == "$argon2id$s1$new"

/-- The condition on two calls, computed. -/
def commits_unrevoked_of_two (crates : UserCrates) (calls : Bool → UserCall) (h : UserHistory Bool)
    (e : Entry Bool UserTable.Row ApiError Unit) : Bool :=
  [false, true].all fun i => !e.commits i || (seen crates calls h i).all fun user =>
    [false, true].all fun j => (calls j).revokes != some user.id ||
      ((since crates calls h i).all fun e' => !e'.commits j) && !(e.state.sessions j).sweeping UserTable.user_tokens

private theorem commits_unrevoked_of_check {crates : UserCrates} {calls : Bool → UserCall} (h : UserHistory Bool)
    (e : Entry Bool UserTable.Row ApiError Unit) (hcheck : commits_unrevoked_of_two crates calls h e = true) :
    commits_unrevoked crates calls h e := by
  intro i user hcommits hseen
  have hboth (j : Bool) (hrevokes : (calls j).revokes = some user.id) :
      (∀ e' ∈ since crates calls h i, e'.commits j = false) ∧
        (e.state.sessions j).sweeping UserTable.user_tokens = false := by
    have hi := List.all_eq_true.mp hcheck i (by cases i <;> simp)
    simp only [hcommits, hseen, Option.all_some, Bool.not_true, Bool.false_or] at hi
    have hj := List.all_eq_true.mp hi j (by cases j <;> simp)
    simpa [hrevokes] using hj
  refine ⟨?_, fun j hrevokes => (hboth j hrevokes).2⟩
  rintro e' he' ⟨j, hrevokes, hcommits'⟩
  rw [(hboth j hrevokes).1 e' he'] at hcommits'
  cases hcommits'

private theorem session_of_check {w : UserWorld Bool} (hthere : session_is_there w = true) :
    (∀ i, ∃ result, w.sessions i = .finished result) ∧ ∃ s token user, (w.slots .user_tokens)[0]? = some s ∧
      s.committed = some token ∧ midnight.to_string < token.expires_at ∧ owner token.user_id w.committed = some user ∧
      user.password_hash = "$argon2id$s1$new" := by
  simp only [session_is_there, Bool.and_eq_true] at hthere
  obtain ⟨⟨hlogin, hreset⟩, hslot⟩ := hthere
  obtain ⟨s, hs, hcommitted⟩ := (Option.any_eq_true _ _).mp hslot
  obtain ⟨token, htoken, hlive⟩ := (Option.any_eq_true _ _).mp hcommitted
  obtain ⟨hexpiry, howner⟩ := Bool.and_eq_true_iff.mp hlive
  obtain ⟨user, huser, hhash⟩ := (Option.any_eq_true _ _).mp howner
  refine ⟨fun i => ?_, s, token, user, hs, htoken, of_decide_eq_true hexpiry, huser, eq_of_beq hhash⟩
  cases i with
  | false =>
    obtain ⟨a, ha⟩ := Session.committed_iff.mp hlogin
    exact ⟨.ok a, ha⟩
  | true =>
    obtain ⟨a, ha⟩ := Session.committed_iff.mp hreset
    exact ⟨.ok a, ha⟩

theorem login_after_reset_is_legitimate : ∃ (h : UserHistory Bool) (w : UserWorld Bool) (token : UserTokenRow),
    w.committed .user_tokens ≠ [] ∧ Legitimate user_crates (reset_and_login "new") h w 0 token := by
  have hrecord : ((reset_and_login_start "new").record
      (commits_unrevoked_of_two user_crates (reset_and_login "new")) []
      (List.replicate 5 (.advance true) ++ List.replicate 3 (.advance false))).any
        (fun out => session_is_there out.2) = true := by
    set_option maxRecDepth 2000 in decide
  obtain ⟨h, w, hrun, hthere⟩ := recorded_of_record (p := fun _ w => session_is_there w) commits_unrevoked_of_check hrecord
  obtain ⟨-, s, token, user, hs, htoken, -⟩ := session_of_check hthere
  refine ⟨h, w, token, ?_, revocation_is_complete hrun hs htoken⟩
  exact List.ne_nil_of_mem (List.mem_filterMap.mpr ⟨s, List.mem_of_getElem? hs, htoken⟩)

/-- The login has verified the old password when the reset starts and opens its session when it has ended. -/
theorem session_survives_password_reset :
    ¬ ∀ (crates : UserCrates) (accounts : Accounts) (calls : Bool → UserCall) (h : UserHistory Bool) (w : UserWorld Bool),
      Recorded (fun _ _ => True) (World.start accounts.db fun i => (calls i).tx crates) h w →
      (∀ i, ∃ result, w.sessions i = .finished result) →
      ∀ (now : jiff.Timestamp) (n : Nat) (s : Slot Bool UserTokenRow) (token : UserTokenRow),
        (w.slots .user_tokens)[n]? = some s → s.committed = some token → now.to_string < token.expires_at →
        Legitimate crates calls h w n token := by
  intro hall
  have hrecord : ((reset_and_login_start "old").record (fun _ _ => true) []
      ([.advance false] ++ List.replicate 5 (.advance true) ++ List.replicate 2 (.advance false))).any
        (fun out => session_is_there out.2) = true := by
    set_option maxRecDepth 2000 in decide
  obtain ⟨h, w, hrun, hthere⟩ := recorded_of_record (p := fun _ w => session_is_there w) (fun _ _ _ => trivial) hrecord
  obtain ⟨hidle, s, token, user, hs, htoken, hexpiry, huser, hhash⟩ := session_of_check hthere
  obtain ⟨user', huser', -, i, req, row, hcall, -, -, -, -, -, hverified, -⟩ :=
    hall user_crates only_alice (reset_and_login "old") h w hrun hidle midnight 0 s token hs htoken hexpiry
  obtain rfl : user = user' := Option.some.inj (huser.symm.trans huser')
  cases i with
  | true => cases hcall
  | false =>
    obtain rfl := UserCall.login.inj hcall
    rw [hhash] at hverified
    exact absurd hverified (by decide)

end iac_controlplane.store
