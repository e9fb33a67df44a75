import Iac.Agent.Remote
import Iac.Core.Sha256

open iac_controlplane iac_controlplane.store sql

namespace iac_agent.remote

variable {crates : Crates} {libraries : Libraries} {cfg : AgentConfig}

theorem run_authenticate (crates : Crates) (parse : String → Option jiff.Timestamp) (now : jiff.Timestamp)
    (agent_id token : String) (db : Store) :
    (∃ row, (authenticate crates parse now agent_id token).run db = (.ok row, db) ∧
        (db.rows .agents).find? (fun a => a.id == agent_id) = some row ∧
        row.token_hash = hash_token crates token ∧ unexpired parse now row.token_expires_at = true) ∨
      (authenticate crates parse now agent_id token).run db = (.error .Unauthorized, db) ∧
        ∀ row, (db.rows .agents).find? (fun a => a.id == agent_id) = some row →
          row.token_hash = hash_token crates token → unexpired parse now row.token_expires_at = false := by
  unfold authenticate
  rw [run_bind_ok (run_query _ _)]
  cases hfound : (db.rows .agents).find? fun a => a.id == agent_id with
  | none => exact .inr ⟨rfl, by simp⟩
  | some row =>
    simp only [Option.some.injEq, forall_eq']
    split_ifs with hhash hexpiry
    · exact .inr ⟨rfl, fun h => absurd h.symm hhash⟩
    · exact .inl ⟨row, rfl, rfl, (not_not.mp hhash).symm, hexpiry⟩
    · exact .inr ⟨rfl, fun _ => Bool.eq_false_iff.mpr hexpiry⟩

theorem accepts_iff {w : World} {identity : Identity} :
    accepts crates libraries w identity = true ↔
      ∃ row, (w.server.rows .agents).find? (fun a => a.id == identity.agent_id) = some row ∧
        row.token_hash = hash_token crates identity.token ∧
        unexpired libraries.parse w.now row.token_expires_at = true := by
  unfold accepts
  rcases run_authenticate crates libraries.parse w.now identity.agent_id identity.token w.server with
    ⟨row, hrun, hrow⟩ | ⟨hrun, hnone⟩
  · rw [exec_of_run_ok hrun]
    exact ⟨fun _ => ⟨row, hrow⟩, fun _ => rfl⟩
  · rw [exec_of_run_error hrun]
    constructor
    · intro h
      cases h
    · rintro ⟨row, hfound, hhash, hexpiry⟩
      rw [hnone row hfound hhash] at hexpiry
      cases hexpiry

/-- The identities name the same agent with the same token. -/
structure SameToken (a b : Identity) : Prop where
  agent_id : b.agent_id = a.agent_id
  token : b.token = a.token
  token_expires_at : b.token_expires_at = a.token_expires_at

theorem SameToken.refl (identity : Identity) : SameToken identity identity := ⟨rfl, rfl, rfl⟩

theorem SameToken.symm {a b : Identity} (h : SameToken a b) : SameToken b a :=
  ⟨h.agent_id.symm, h.token.symm, h.token_expires_at.symm⟩

theorem SameToken.trans {a b c : Identity} (hab : SameToken a b) (hbc : SameToken b c) : SameToken a c :=
  ⟨hbc.agent_id.trans hab.agent_id, hbc.token.trans hab.token, hbc.token_expires_at.trans hab.token_expires_at⟩

theorem SameToken.accepts_eq {a b : Identity} (h : SameToken a b) (w : World) :
    accepts crates libraries w b = accepts crates libraries w a := by
  unfold accepts
  rw [h.agent_id, h.token]

theorem migrate_legacy_pubkey_same (identity : Identity) : SameToken identity identity.migrate_legacy_pubkey := by
  unfold Identity.migrate_legacy_pubkey
  split <;> exact ⟨rfl, rfl, rfl⟩

theorem pin_bundle_same {identity pinned : Identity} {bundle : SigningPubkeyBundle}
    (h : pin_bundle identity bundle = .ok pinned) : SameToken identity pinned := by
  unfold pin_bundle at h
  split at h
  · exact Except.ok.inj h ▸ ⟨rfl, rfl, rfl⟩
  · split at h
    · split at h
      · cases h
      · exact Except.ok.inj h ▸ ⟨rfl, rfl, rfl⟩
    · cases h

/-- What pinning the keys of the server can do to the world and the identity. -/
theorem pin_keys_spec {x : Connection} {identity : Identity} {w after : World} {result : Except String Identity}
    (h : pin_keys libraries x identity w = (result, after)) :
    (after = w ∨ ∃ pinned, SameToken identity pinned ∧ after = { w with file := some pinned }) ∧
      ∀ connected, result = .ok connected → SameToken identity connected ∧ after = { w with file := some connected } := by
  unfold pin_keys at h
  cases hpin : fetch_signing_bundle x >>= pin_bundle identity with
  | error e =>
    rw [hpin] at h
    obtain ⟨rfl, rfl⟩ := Prod.mk.inj h
    exact ⟨.inl rfl, fun _ h => nomatch h⟩
  | ok pinned =>
    rw [hpin] at h
    obtain ⟨bundle, -, hpinned⟩ : ∃ bundle, fetch_signing_bundle x = .ok bundle ∧ pin_bundle identity bundle = .ok pinned := by
      cases hfetch : fetch_signing_bundle x with
      | error e => simp [hfetch, bind, Except.bind] at hpin
      | ok bundle => exact ⟨bundle, rfl, by simpa [hfetch, bind, Except.bind] using hpin⟩
    have hsame := pin_bundle_same hpinned
    unfold persist_identity at h
    split_ifs at h with hwritable
    · simp only at h
      split at h
      · obtain ⟨rfl, rfl⟩ := Prod.mk.inj h
        exact ⟨.inr ⟨pinned, hsame, rfl⟩, fun _ h => nomatch h⟩
      · obtain ⟨rfl, rfl⟩ := Prod.mk.inj h
        exact ⟨.inr ⟨pinned, hsame, rfl⟩, fun _ h => Except.ok.inj h ▸ ⟨hsame, rfl⟩⟩
    · obtain ⟨rfl, rfl⟩ := Prod.mk.inj h
      exact ⟨.inl rfl, fun _ h => nomatch h⟩

/-- The server has the token of the identity, with its expiry. -/
def Knows (crates : Crates) (server : Store) (identity : Identity) : Prop :=
  ∃ row, (server.rows .agents).find? (fun a => a.id == identity.agent_id) = some row ∧
    row.token_hash = hash_token crates identity.token ∧ row.token_expires_at = identity.token_expires_at

theorem SameToken.knows {a b : Identity} (h : SameToken a b) {server : Store} (hknows : Knows crates server a) :
    Knows crates server b := by
  unfold Knows at hknows ⊢
  rwa [h.agent_id, h.token, h.token_expires_at]

theorem accepts_of_knows {w : World} {identity : Identity} (hknows : Knows crates w.server identity)
    (hexpiry : unexpired libraries.parse w.now identity.token_expires_at = true) :
    accepts crates libraries w identity = true := by
  obtain ⟨row, hfound, hhash, hexpires_at⟩ := hknows
  exact accepts_iff.mpr ⟨row, hfound, hhash, hexpires_at ▸ hexpiry⟩

theorem register_agent_knows {req : RegisterRequest} {creds : AgentCredentials} {db after : Store}
    (h : (register_agent crates req).exec db = (.ok creds, after)) (server_url registered_at : String) :
    Knows crates after { agent_id := creds.agent_id, token := creds.token, server_url, registered_at,
                         token_expires_at := creds.expires_at } := by
  obtain ⟨e, herror, -⟩ | ⟨out, mid, hrun, hexec⟩ := exec_cases (register_agent crates req) db
  · rw [h] at herror
    cases herror
  · obtain ⟨hout, rfl⟩ := Prod.mk.inj (hexec.symm.trans h)
    obtain rfl := Except.ok.inj hout
    unfold register_agent at hrun
    split at hrun
    · cases hrun
    · obtain ⟨row, db₁, hinsert, hrun⟩ := run_bind_eq_ok_iff.mp hrun
      rw [run_insert_into] at hinsert
      split at hinsert
      · cases hinsert
      · rename_i hfresh
        obtain ⟨-, rfl⟩ := Prod.mk.inj hinsert
        obtain ⟨prev_hash, id, audited, haudit, -, hframe⟩ :=
          record_audit_on_spec crates req.audit_now.to_string (register_audit req)
            ((db.next_id .agents).set_rows .agents (db.rows .agents ++ [agent_row crates req]))
        rw [run_bind_ok haudit] at hrun
        obtain ⟨hcreds, rfl⟩ := Prod.mk.inj hrun
        obtain rfl := Except.ok.inj hcreds
        refine ⟨agent_row crates req, ?_, rfl, rfl⟩
        rw [hframe _ (by decide), Db.set_rows_self, List.find?_append]
        have hnone : (db.rows .agents).find? (fun a => a.id == req.id) = none := by
          refine List.find?_eq_none.mpr fun a ha heq => hfresh ?_
          refine List.any_eq_true.mpr ⟨a, ha, ?_⟩
          simp only [beq_iff_eq] at heq
          simp [clash, agent_row, heq]
        simp [hnone, agent_row]

/-- An agent that the server has gets the new token. -/
theorem run_rotate_agent_token {req : RotateRequest} {row : AgentRow} {db : Store} {identity : Identity}
    (hid : identity.agent_id = req.agent_id)
    (hfound : (db.rows .agents).find? (fun a => a.id == req.agent_id) = some row) :
    ∃ creds after, (rotate_agent_token crates req).run db = (.ok creds, after) ∧
      Knows crates after { identity with token := creds.token, token_expires_at := creds.expires_at } := by
  have hrow : row.id = req.agent_id := by simpa using List.find?_some hfound
  obtain ⟨prev_hash, id, audited, haudit, -, hframe⟩ :=
    record_audit_on_spec crates req.audit_now.to_string (rotate_audit req)
      (db.set_rows .agents ((db.rows .agents).map (updated (fun a => a.id == req.agent_id) (AgentRow.rotate crates req))))
  refine ⟨⟨req.agent_id, req.token, token_expiry req.now req.token_ttl_secs⟩, audited, ?_,
    AgentRow.rotate crates req row, ?_, rfl, rfl⟩
  · unfold rotate_agent_token
    rw [run_bind_ok (run_update_where _ _ _ _), if_neg, run_bind_ok haudit, run_pure]
    have hmem : row ∈ (db.rows .agents).filter fun a => a.id == req.agent_id :=
      List.mem_filter.mpr ⟨List.mem_of_find?_eq_some hfound, by simpa using hrow⟩
    rw [List.length_map]
    exact Nat.ne_of_gt (List.length_pos_of_mem hmem)
  · have hsame : (fun a : AgentRow => a.id == identity.agent_id) ∘
        updated (fun a => a.id == req.agent_id) (AgentRow.rotate crates req) = fun a => a.id == req.agent_id := by
      funext a
      simp only [Function.comp_apply, updated, hid]
      split <;> rfl
    rw [hframe _ (by decide), Db.set_rows_self, List.find?_map, hsame, hfound, Option.map_some,
      updated_of_true (by simpa using hrow)]

/-- The client and the identity file hold the same token. -/
def Paired (w : World) : Prop :=
  ∀ c, w.client = some c → ∃ f, w.file = some f ∧ SameToken f c

/-- The server has the token of the identity file. -/
def Backed (crates : Crates) (w : World) : Prop :=
  ∀ f, w.file = some f → Knows crates w.server f

/-- What getting an identity does: an identity file that exists is used with the
server as it is, and a new one is of an agent that the server knows. -/
structure Loaded (crates : Crates) (w after : World) (result : Except String Identity) : Prop where
  now : after.now = w.now
  client : after.client = w.client
  rejected : after.rejected = w.rejected
  file : ∀ f, w.file = some f → after.server = w.server ∧ ∃ f', after.file = some f' ∧ SameToken f f'
  backed : Backed crates w → Backed crates after
  loaded : ∀ identity, result = .ok identity → ∃ f, after.file = some f ∧ SameToken f identity

theorem enroll_loaded {x : Connection} {w after : World} {result : Except String Identity} (hnone : w.file = none)
    (h : enroll crates cfg x w = (result, after)) : Loaded crates w after result := by
  have hbacked {server : Store} : Backed crates { w with server } := fun f hf => absurd (hnone.symm.trans hf) (by simp)
  have hfile {after : World} : ∀ f, w.file = some f → after.server = w.server ∧ ∃ f', after.file = some f' ∧ SameToken f f' :=
    fun f hf => absurd (hnone.symm.trans hf) (by simp)
  unfold enroll at h
  split at h
  · obtain ⟨rfl, rfl⟩ := Prod.mk.inj h
    exact ⟨rfl, rfl, rfl, hfile, id, fun _ h => nomatch h⟩
  · rcases hregister : (register_agent crates (register_request cfg w.now x)).exec w.server with ⟨answer, server⟩
    simp only [hregister] at h
    split at h
    · obtain ⟨rfl, rfl⟩ := Prod.mk.inj h
      exact ⟨rfl, rfl, rfl, hfile, fun _ => hbacked, fun _ h => nomatch h⟩
    · cases answer with
      | error e =>
        obtain ⟨rfl, rfl⟩ := Prod.mk.inj h
        exact ⟨rfl, rfl, rfl, hfile, fun _ => hbacked, fun _ h => nomatch h⟩
      | ok creds =>
        simp only at h
        split at h
        · obtain ⟨rfl, rfl⟩ := Prod.mk.inj h
          exact ⟨rfl, rfl, rfl, hfile, fun _ => hbacked, fun _ h => nomatch h⟩
        · cases hpersists : x.persists with
          | false =>
            simp only [persist_identity, hpersists, Bool.false_eq_true, ↓reduceIte] at h
            obtain ⟨rfl, rfl⟩ := Prod.mk.inj h
            exact ⟨rfl, rfl, rfl, hfile, fun _ => hbacked, fun _ h => nomatch h⟩
          | true =>
            simp only [persist_identity, hpersists, ↓reduceIte] at h
            obtain ⟨rfl, rfl⟩ := Prod.mk.inj h
            refine ⟨rfl, rfl, rfl, hfile, fun _ f hf => ?_, fun identity h => ?_⟩
            · exact Option.some.inj hf ▸ register_agent_knows hregister _ _
            · exact ⟨_, rfl, Except.ok.inj h ▸ SameToken.refl _⟩

theorem load_identity_loaded {x : Connection} {w after : World} {result : Except String Identity}
    (h : load_identity crates cfg x w = (result, after)) : Loaded crates w after result := by
  unfold load_identity at h
  cases hfile : w.file with
  | none =>
    rw [hfile] at h
    exact enroll_loaded hfile h
  | some f =>
    rw [hfile] at h
    obtain ⟨rfl, rfl⟩ := Prod.mk.inj h
    refine ⟨rfl, rfl, rfl, fun g hg => ⟨rfl, g, hg, .refl g⟩, id, fun identity h => ⟨f, hfile, ?_⟩⟩
    exact Except.ok.inj h ▸ migrate_legacy_pubkey_same f

theorem connect_loaded {x : Connection} {w after : World} {result : Except String Identity}
    (h : connect_with_tls crates libraries cfg x w = (result, after)) : Loaded crates w after result := by
  unfold connect_with_tls at h
  rcases hload : load_identity crates cfg x w with ⟨loaded, mid⟩
  have hmid := load_identity_loaded hload
  rw [hload] at h
  cases loaded with
  | error e =>
    obtain ⟨rfl, rfl⟩ := Prod.mk.inj h
    exact hmid
  | ok identity =>
    obtain ⟨f, hf, hsame⟩ := hmid.loaded identity rfl
    obtain ⟨hafter, hok⟩ := pin_keys_spec h
    obtain rfl | ⟨pinned, hpinned, rfl⟩ := hafter
    · refine ⟨hmid.now, hmid.client, hmid.rejected, hmid.file, hmid.backed, fun connected h => ?_⟩
      obtain ⟨hsame', hfile⟩ := hok connected h
      rw [hfile]
      exact ⟨connected, rfl, .refl connected⟩
    · refine ⟨hmid.now, hmid.client, hmid.rejected, fun g hg => ?_, fun hbacked g hg => ?_, fun connected h => ?_⟩
      · obtain ⟨hserver, f', hf', hsame'⟩ := hmid.file g hg
        obtain rfl := Option.some.inj (hf.symm.trans hf')
        exact ⟨hserver, pinned, rfl, (hsame'.trans hsame).trans hpinned⟩
      · obtain rfl := Option.some.inj hg
        exact (hsame.trans hpinned).knows (hmid.backed hbacked f hf)
      · obtain ⟨hsame', hfile⟩ := hok connected h
        rw [hfile]
        exact ⟨connected, rfl, .refl connected⟩

/-- A rotation is served when the old token is accepted, and refused with 401 otherwise. -/
theorem serve_rotate_token_cases (x : Rotation) (identity : Identity) (w : World) :
    (∃ creds server, (serve_rotate_token crates libraries w.now identity x).exec w.server = (.ok creds, server) ∧
        accepts crates libraries w identity = true ∧
        Knows crates server { identity with token := creds.token, token_expires_at := creds.expires_at }) ∨
      (serve_rotate_token crates libraries w.now identity x).exec w.server = (.error .Unauthorized, w.server) ∧
        accepts crates libraries w identity = false := by
  unfold serve_rotate_token
  rcases run_authenticate crates libraries.parse w.now identity.agent_id identity.token w.server with
    ⟨row, hrun, hfound, hhash, hexpiry⟩ | ⟨hrun, -⟩
  · obtain ⟨creds, server, hrotate, hknows⟩ := @run_rotate_agent_token crates
      { agent_id := identity.agent_id, token := x.token, token_ttl_secs := x.token_ttl_secs, now := w.now,
        audit_now := x.audit_now } row w.server identity rfl hfound
    exact .inl ⟨creds, server, exec_of_run_ok ((run_bind_ok hrun).trans hrotate),
      accepts_iff.mpr ⟨row, hfound, hhash, hexpiry⟩, hknows⟩
  · refine .inr ⟨?_, ?_⟩
    · rw [exec_of_run_error (by rw [run_bind, hrun])]
    · unfold accepts
      rw [exec_of_run_error hrun]
      rfl

/-- What a rotation can do: nothing, be refused, leave the new token on the server alone, or succeed. -/
inductive Rotated (crates : Crates) (libraries : Libraries) (x : Rotation) (identity : Identity) (w : World) :
    Except String Unit → World → Prop where
  | unsent (e : String) (hunsent : x.delivery = .unsent) : Rotated crates libraries x identity w (.error e) w
  | refused (e : String) (hrefused : accepts crates libraries w identity = false) :
      Rotated crates libraries x identity w (.error e) { w with rejected := true }
  | cut (e : String) (server : Store) (haccepts : accepts crates libraries w identity = true)
      (hsent : x.delivery ≠ .unsent)
      (hcut : ¬(x.delivery = .delivered ∧ x.persists = true)) :
      Rotated crates libraries x identity w (.error e) { w with server }
  | rotated (server : Store) (new : Identity) (haccepts : accepts crates libraries w identity = true)
      (hknows : Knows crates server new) :
      Rotated crates libraries x identity w (.ok ()) { w with server, file := some new, client := some new }

theorem rotate_token_cases (x : Rotation) (identity : Identity) (w : World) :
    Rotated crates libraries x identity w (rotate_token crates libraries x identity w).1
      (rotate_token crates libraries x identity w).2 := by
  unfold rotate_token
  by_cases hunsent : x.delivery = .unsent
  · rw [if_pos hunsent]
    exact .unsent _ hunsent
  · rw [if_neg hunsent]
    rcases @serve_rotate_token_cases crates libraries x identity w with
      ⟨creds, server, hserve, haccepts, hknows⟩ | ⟨hserve, hrefused⟩
    · rw [hserve]
      simp only [World.note]
      split_ifs with hlost hundecodable
      · exact .cut _ server haccepts hunsent (by simp [hlost])
      · exact .cut _ server haccepts hunsent (by simp [hundecodable])
      · cases hpersists : x.persists with
        | false =>
          simp only [persist_identity, Bool.false_eq_true, ↓reduceIte]
          exact .cut _ server haccepts hunsent (by simp [hpersists])
        | true =>
          simp only [persist_identity, ↓reduceIte]
          exact .rotated server _ haccepts hknows
    · rw [hserve]
      simp only [World.note]
      split_ifs
      · exact .refused _ hrefused
      · exact .refused _ hrefused

/-- A request leaves the server and the file as they are, and is refused when the token is. -/
theorem send_request_cases (delivery : Delivery) (identity : Identity) (w : World) :
    (send_request crates libraries delivery identity w).2 = w ∨
      accepts crates libraries w identity = false ∧
        (send_request crates libraries delivery identity w).2 = { w with rejected := true } := by
  unfold send_request
  by_cases hunsent : delivery = .unsent
  · rw [if_pos hunsent]
    exact .inl rfl
  · rw [if_neg hunsent]
    rcases run_authenticate crates libraries.parse w.now identity.agent_id identity.token w.server with
      ⟨row, hrun, -⟩ | ⟨hrun, -⟩
    · rw [exec_of_run_ok hrun]
      simp only [World.note]
      split_ifs
      · exact .inl rfl
      · exact .inl rfl
    · have hrefused : accepts crates libraries w identity = false := by
        unfold accepts
        rw [exec_of_run_error hrun]
        rfl
      rw [exec_of_run_error hrun]
      simp only [World.note]
      split_ifs
      · exact .inr ⟨hrefused, rfl⟩
      · exact .inr ⟨hrefused, rfl⟩

theorem reset_cases (result : Except String Unit) (w : World) :
    reset_remote_if_auth_error result w = w ∨ reset_remote_if_auth_error result w = { w with client := none } := by
  unfold reset_remote_if_auth_error
  cases result with
  | ok u => exact .inl rfl
  | error msg =>
    simp only
    split_ifs
    · exact .inr rfl
    · exact .inl rfl

/-- A request changes nothing, except that a refused token may cost the agent its client. -/
theorem push_to_remote_cases (delivery : Delivery) (identity : Identity) (w : World) :
    ∃ client, (client = w.client ∨ client = none) ∧
      (push_to_remote crates libraries delivery identity w = { w with client } ∨
        accepts crates libraries w identity = false ∧
          push_to_remote crates libraries delivery identity w = { w with client, rejected := true }) := by
  have hcases := @send_request_cases crates libraries delivery identity w
  unfold push_to_remote
  rcases hsend : send_request crates libraries delivery identity w with ⟨result, after⟩
  rw [hsend] at hcases
  simp only at hcases ⊢
  obtain rfl | ⟨hrefused, rfl⟩ := hcases
  · obtain heq | heq := reset_cases result after
    · exact ⟨after.client, .inl rfl, .inl heq⟩
    · exact ⟨none, .inr rfl, .inl heq⟩
  · rcases reset_cases result { w with rejected := true } with heq | heq
    · exact ⟨w.client, .inl rfl, .inr ⟨hrefused, heq⟩⟩
    · exact ⟨none, .inr rfl, .inr ⟨hrefused, heq⟩⟩

theorem Paired.connect {w : World} (h : Paired w) (x : Connection) :
    Paired (connect_remote crates libraries cfg x w) := by
  unfold connect_remote
  rcases hconnect : connect_with_tls crates libraries cfg x w with ⟨result, after⟩
  have hloaded := connect_loaded hconnect
  cases result with
  | error e =>
    intro c hc
    obtain ⟨f, hf, hsame⟩ := h c (hloaded.client.symm.trans hc)
    obtain ⟨-, f', hf', hsame'⟩ := hloaded.file f hf
    exact ⟨f', hf', hsame'.symm.trans hsame⟩
  | ok identity =>
    intro c hc
    obtain rfl := Option.some.inj hc
    exact hloaded.loaded identity rfl

/-- What an action can do. -/
inductive Acted (crates : Crates) (libraries : Libraries) (cfg : AgentConfig) (w : World) : Action → World → Prop where
  | idle {action : Action} : Acted crates libraries cfg w action w
  | waited {now : jiff.Timestamp} (hle : w.now.nanos ≤ now.nanos) :
      Acted crates libraries cfg w (.wait now) { w with now }
  | connected {x : Connection} : Acted crates libraries cfg w (.connect x) (connect_remote crates libraries cfg x w)
  | rotated {x : Rotation} {identity : Identity} {result : Except String Unit} {after : World}
      (hclient : w.client = some identity) (hrotated : Rotated crates libraries x identity w result after) :
      Acted crates libraries cfg w (.rotate x) after
  | pushed {delivery : Delivery} {client : Option Identity} (hkept : client = w.client ∨ client = none) :
      Acted crates libraries cfg w (.request delivery) { w with client }
  | refused {delivery : Delivery} {identity : Identity} {client : Option Identity} (hclient : w.client = some identity)
      (hkept : client = w.client ∨ client = none) (hrefused : accepts crates libraries w identity = false) :
      Acted crates libraries cfg w (.request delivery) { w with client, rejected := true }

theorem Action.acted (action : Action) (w : World) :
    Acted crates libraries cfg w action (action.after crates libraries cfg w) := by
  unfold Action.after
  split
  · split_ifs with hle
    · exact .waited hle
    · exact .idle
  · exact .idle
  · exact .connected
  · exact .rotated ‹_› (rotate_token_cases _ _ w)
  · obtain ⟨client, hkept, hafter | ⟨hrefused, hafter⟩⟩ := @push_to_remote_cases crates libraries _ _ w
    · exact hafter ▸ .pushed hkept
    · exact hafter ▸ .refused ‹_› hkept hrefused
  · exact .idle

theorem Paired.after {w : World} (h : Paired w) (action : Action) : Paired (action.after crates libraries cfg w) := by
  have hacted := @Action.acted crates libraries cfg action w
  generalize action.after crates libraries cfg w = after at hacted ⊢
  cases hacted with
  | idle | waited => exact h
  | connected => exact h.connect _
  | rotated hclient hrotated =>
    cases hrotated with
    | unsent | refused | cut => exact h
    | rotated server new _ hknows => exact fun c hc => ⟨new, rfl, Option.some.inj hc ▸ .refl new⟩
  | pushed hkept | refused hclient hkept hrefused =>
    rintro c rfl
    exact h c (hkept.resolve_right (by simp)).symm

theorem reachable_paired {allowed : World → Action → Prop} {w : World}
    (h : Reachable crates libraries cfg allowed w) : Paired w := by
  obtain ⟨server, now, hrun⟩ := h
  induction hrun with
  | refl => exact fun c hc => nomatch hc
  | tail _ hstep ih =>
    obtain ⟨action, -, rfl⟩ := hstep
    exact ih.after action

/-- The agent holds a token, in memory and on disk, that the server takes. -/
def HoldsToken (crates : Crates) (libraries : Libraries) (w : World) : Prop :=
  (∃ identity, w.client = some identity ∧ accepts crates libraries w identity = true) ∧
    ∃ identity, w.file = some identity ∧ accepts crates libraries w identity = true

/-- The client's token is not past the expiry that came with it. -/
def Current (libraries : Libraries) (w : World) : Prop :=
  ∀ identity, w.client = some identity → unexpired libraries.parse w.now identity.token_expires_at = true

/-- The agent sends nothing with an expired token, and a rotation that reaches
the server reaches the identity file. -/
def Uncut (libraries : Libraries) (w : World) : Action → Prop
  | .rotate x => Current libraries w ∧ (x.delivery = .unsent ∨ x.delivery = .delivered ∧ x.persists = true)
  | .request _ => Current libraries w
  | _ => True

/-- The client, the file and the server agree, and no token has been refused. -/
structure Synced (crates : Crates) (w : World) : Prop where
  paired : Paired w
  backed : Backed crates w
  accepted : w.rejected = false

theorem Synced.accepts {w : World} (h : Synced crates w) {identity : Identity} (hclient : w.client = some identity)
    (hcurrent : Current libraries w) : accepts crates libraries w identity = true := by
  obtain ⟨f, hf, hsame⟩ := h.paired identity hclient
  exact accepts_of_knows (hsame.knows (h.backed f hf)) (hcurrent identity hclient)

theorem Synced.holds {w : World} (h : Synced crates w) {identity : Identity} (hclient : w.client = some identity)
    (hcurrent : Current libraries w) : HoldsToken crates libraries w := by
  obtain ⟨f, hf, hsame⟩ := h.paired identity hclient
  have haccepts := h.accepts hclient hcurrent
  exact ⟨⟨identity, hclient, haccepts⟩, f, hf, hsame.accepts_eq w ▸ haccepts⟩

theorem Synced.after {w : World} (h : Synced crates w) {action : Action} (huncut : Uncut libraries w action) :
    Synced crates (action.after crates libraries cfg w) := by
  suffices hkept : Backed crates (action.after crates libraries cfg w) ∧
      (action.after crates libraries cfg w).rejected = false from ⟨h.paired.after action, hkept.1, hkept.2⟩
  have hacted := @Action.acted crates libraries cfg action w
  generalize action.after crates libraries cfg w = after at hacted ⊢
  cases hacted with
  | idle | waited | pushed => exact ⟨h.backed, h.accepted⟩
  | @connected x =>
    unfold connect_remote
    rcases hconnect : connect_with_tls crates libraries cfg x w with ⟨result, after⟩
    have hloaded := connect_loaded hconnect
    cases result with
    | error e => exact ⟨hloaded.backed h.backed, hloaded.rejected.trans h.accepted⟩
    | ok identity => exact ⟨hloaded.backed h.backed, hloaded.rejected.trans h.accepted⟩
  | rotated hclient hrotated =>
    have haccepts := h.accepts hclient huncut.1
    cases hrotated with
    | unsent => exact ⟨h.backed, h.accepted⟩
    | refused e hrefused => cases haccepts.symm.trans hrefused
    | cut e server _ hsent hcut => exact absurd (huncut.2.resolve_left hsent) hcut
    | rotated server new _ hknows => exact ⟨fun f hf => Option.some.inj hf ▸ hknows, h.accepted⟩
  | refused hclient _ hrefused => cases (h.accepts hclient huncut).symm.trans hrefused

theorem reachable_synced {w : World} (h : Reachable crates libraries cfg (Uncut libraries) w) : Synced crates w := by
  obtain ⟨server, now, hrun⟩ := h
  induction hrun with
  | refl => exact ⟨fun c hc => (nomatch hc), fun f hf => (nomatch hf), rfl⟩
  | tail _ hstep ih =>
    obtain ⟨action, huncut, rfl⟩ := hstep
    exact ih.after huncut

/-- The server refuses the token of the identity file. -/
def Stranded (crates : Crates) (libraries : Libraries) (w : World) : Prop :=
  ∃ f, w.file = some f ∧ accepts crates libraries w f = false

theorem accepts_of_server_eq {v w : World} (hserver : v.server = w.server) (hnow : v.now = w.now) (identity : Identity) :
    accepts crates libraries v identity = accepts crates libraries w identity := by
  unfold accepts
  rw [hserver, hnow]

theorem unexpired_mono {parse : String → Option jiff.Timestamp} {now later : jiff.Timestamp}
    (hle : now.nanos ≤ later.nanos) {expires_at : Option String} (h : unexpired parse later expires_at = true) :
    unexpired parse now expires_at = true := by
  unfold unexpired at h ⊢
  cases expires_at with
  | none => rfl
  | some text =>
    simp only [Option.all_some] at h ⊢
    cases hparse : parse text with
    | none => simp [hparse] at h
    | some expiry =>
      simp only [hparse, Option.any_some, decide_eq_true_eq] at h ⊢
      omega

theorem Stranded.connect {x : Connection} {w : World} (h : Stranded crates libraries w) :
    Stranded crates libraries (connect_remote crates libraries cfg x w) := by
  obtain ⟨f, hf, hrefused⟩ := h
  unfold connect_remote
  rcases hconnect : connect_with_tls crates libraries cfg x w with ⟨result, after⟩
  have hloaded := connect_loaded hconnect
  obtain ⟨hserver, f', hf', hsame⟩ := hloaded.file f hf
  have hstill : accepts crates libraries after f' = false := by
    rw [hsame.accepts_eq, accepts_of_server_eq hserver hloaded.now, hrefused]
  cases result with
  | error e => exact ⟨f', hf', hstill⟩
  | ok identity => exact ⟨f', hf', hstill⟩

/-- A refused token in the identity file is refused forever. -/
theorem Stranded.after {w : World} (hpaired : Paired w) (h : Stranded crates libraries w) (action : Action) :
    Stranded crates libraries (action.after crates libraries cfg w) := by
  obtain ⟨f, hf, hrefused⟩ := h
  have hclient_refused {identity : Identity} (hclient : w.client = some identity) :
      accepts crates libraries w identity = false := by
    obtain ⟨g, hg, hsame⟩ := hpaired identity hclient
    obtain rfl := Option.some.inj (hf.symm.trans hg)
    rw [hsame.accepts_eq, hrefused]
  have hacted := @Action.acted crates libraries cfg action w
  generalize action.after crates libraries cfg w = after at hacted ⊢
  cases hacted with
  | idle | pushed | refused => exact ⟨f, hf, hrefused⟩
  | waited hle =>
    refine ⟨f, hf, Bool.eq_false_iff.mpr fun haccepts => ?_⟩
    obtain ⟨row, hfound, hhash, hexpiry⟩ := accepts_iff.mp haccepts
    have hbefore : accepts crates libraries w f = true :=
      accepts_iff.mpr ⟨row, hfound, hhash, unexpired_mono hle hexpiry⟩
    cases hbefore.symm.trans hrefused
  | connected => exact Stranded.connect ⟨f, hf, hrefused⟩
  | rotated hclient hrotated =>
    cases hrotated with
    | unsent | refused => exact ⟨f, hf, hrefused⟩
    | cut e server haccepts | rotated server new haccepts =>
      rw [hclient_refused hclient] at haccepts
      cases haccepts

/-- The token that gets the first 401 is the one of the identity file. -/
theorem stranded_of_rejected {w : World} (hpaired : Paired w) (hbefore : w.rejected = false) (action : Action)
    (hrejected : (action.after crates libraries cfg w).rejected = true) :
    Stranded crates libraries (action.after crates libraries cfg w) := by
  have hstranded {identity : Identity} (hclient : w.client = some identity)
      (hrefused : accepts crates libraries w identity = false) : Stranded crates libraries w := by
    obtain ⟨f, hf, hsame⟩ := hpaired identity hclient
    exact ⟨f, hf, hsame.accepts_eq w ▸ hrefused⟩
  have hnot : ¬ w.rejected = true := by simp [hbefore]
  have hacted := @Action.acted crates libraries cfg action w
  generalize action.after crates libraries cfg w = after at hacted hrejected ⊢
  cases hacted with
  | idle | waited | pushed => exact absurd hrejected hnot
  | @connected x =>
    unfold connect_remote at hrejected
    rcases hconnect : connect_with_tls crates libraries cfg x w with ⟨result, after⟩
    rw [hconnect] at hrejected
    have hkept := (connect_loaded hconnect).rejected
    cases result with
    | error e => exact absurd (hkept.symm.trans hrejected) hnot
    | ok identity => exact absurd (hkept.symm.trans hrejected) hnot
  | rotated hclient hrotated =>
    cases hrotated with
    | refused e hrefused => exact hstranded hclient hrefused
    | unsent | cut | rotated => exact absurd hrejected hnot
  | refused hclient _ hrefused => exact hstranded hclient hrefused

theorem reachable_stranded {allowed : World → Action → Prop} {w : World}
    (h : Reachable crates libraries cfg allowed w) (hrejected : w.rejected = true) : Stranded crates libraries w := by
  obtain ⟨server, now, hrun⟩ := h
  induction hrun with
  | refl => cases hrejected
  | @tail mid after hbefore hstep ih =>
    obtain ⟨action, -, rfl⟩ := hstep
    have hpaired := reachable_paired ⟨server, now, hbefore⟩
    cases hmid : mid.rejected with
    | true => exact (ih hmid).after hpaired action
    | false => exact stranded_of_rejected hpaired hmid action hrejected

/-- When `rotate_token` returns an error, the agent still holds a token that the server takes. -/
def RotationKeepsToken (crates : Crates) (libraries : Libraries) (w : World) (x : Rotation) : Prop :=
  ∀ identity e, w.client = some identity → (rotate_token crates libraries x identity w).1 = .error e →
    HoldsToken crates libraries (rotate_token crates libraries x identity w).2

/-- Both requests of the connection and both writes of the identity file succeed. -/
def Connection.reaches (x : Connection) : Prop :=
  x.register = .delivered ∧ x.persists = true ∧ x.signing_keys = .delivered ∧ x.persists_keys = true

/-- When the server has rejected the agent's token, a connection that reaches
it leaves the agent with a token that the server takes. -/
def ReconnectRestores (crates : Crates) (libraries : Libraries) (cfg : AgentConfig) (w : World) (x : Connection) : Prop :=
  w.rejected = true → x.reaches →
    ∃ identity, (connect_remote crates libraries cfg x w).client = some identity ∧
      accepts crates libraries (connect_remote crates libraries cfg x w) identity = true

/-- As long as the agent sends nothing with an expired token and no rotation is
cut off between the server and the identity file, both laws hold; and in no run
does a connection restore a token that the server has rejected. -/
theorem credentials_are_continuous :
    (∀ w, Reachable crates libraries cfg (Uncut libraries) w →
      (∀ x, Uncut libraries w (.rotate x) → RotationKeepsToken crates libraries w x) ∧
        ∀ x, ReconnectRestores crates libraries cfg w x) ∧
    ∀ w x, Reachable crates libraries cfg (fun _ _ => True) w → w.rejected = true → x.reaches →
      ¬ ReconnectRestores crates libraries cfg w x := by
  refine ⟨fun w hreach => ?_, fun w x hreach hrejected hreaches hrestores => ?_⟩
  · have hsynced := reachable_synced hreach
    refine ⟨fun x huncut identity e hclient herror => ?_, fun x hrejected => ?_⟩
    · have hcases := @rotate_token_cases crates libraries x identity w
      rw [herror] at hcases
      generalize (rotate_token crates libraries x identity w).2 = after at hcases
      cases hcases with
      | unsent => exact hsynced.holds hclient huncut.1
      | refused _ hrefused => cases (hsynced.accepts hclient huncut.1).symm.trans hrefused
      | cut _ server _ hsent hcut => exact absurd (huncut.2.resolve_left hsent) hcut
    · rw [hsynced.accepted] at hrejected
      cases hrejected
  · obtain ⟨identity, hclient, haccepts⟩ := hrestores hrejected hreaches
    obtain ⟨f, hf, hrefused⟩ := @Stranded.connect crates libraries cfg x w (reachable_stranded hreach hrejected)
    obtain ⟨g, hg, hsame⟩ := (reachable_paired hreach).connect x identity hclient
    obtain rfl := Option.some.inj (hf.symm.trans hg)
    rw [hsame.accepts_eq, hrefused] at haccepts
    cases haccepts

section Samples

def epoch : jiff.Timestamp := ⟨62167219200000000000, jiff.unix_epoch_in_range⟩

def sample_crates : Crates := { Crates.on [] with sha256_hex := sha2.hex_digest }

/-- Every key is a valid one; the tokens of the samples have no expiry to read. -/
def sample_libraries : Libraries where
  decode _ := some (List.replicate 32 0)
  valid_key _ := true
  parse _ := none

def sample_cfg : AgentConfig := ⟨"web", "prod", "https://control-plane"⟩

def connection : Connection where
  register := .delivered
  id := "agent"
  token := "first"
  token_ttl_secs := none
  audit_now := epoch
  registered_at := epoch.to_string
  persists := true
  signing_keys := .delivered
  bundle := ⟨"key", [⟨"key", "AAAA"⟩]⟩
  persists_keys := true

def rotation (delivery : Delivery) : Rotation := ⟨delivery, "second", none, epoch, true⟩

/-- The world after these actions of a new agent. -/
def sample_run (actions : List Action) : World :=
  actions.foldl (fun w action => action.after sample_crates sample_libraries sample_cfg w) (World.start migrated epoch)

theorem reachable_sample_run (actions : List Action) :
    Reachable sample_crates sample_libraries sample_cfg (fun _ _ => True) (sample_run actions) := by
  refine ⟨migrated, epoch, ?_⟩
  unfold sample_run
  generalize World.start migrated epoch = w
  induction actions generalizing w with
  | nil => exact .refl
  | cons action actions ih => exact .head ⟨action, trivial, rfl⟩ (ih _)

private theorem refuses_client {w : World}
    (h : (w.client.all fun identity => !accepts sample_crates sample_libraries w identity) = true) :
    ¬ ∃ identity, w.client = some identity ∧ accepts sample_crates sample_libraries w identity = true := by
  rintro ⟨identity, hclient, haccepts⟩
  simp [hclient, haccepts] at h

/-- The answer to a rotation is lost, so the agent keeps a token that is no
longer the server's; after the 401 it connects with that token again. -/
theorem lost_rotation_strands_the_agent :
    (∃ w x, Reachable sample_crates sample_libraries sample_cfg (fun _ _ => True) w ∧
      ¬ RotationKeepsToken sample_crates sample_libraries w x) ∧
    ∃ w x, Reachable sample_crates sample_libraries sample_cfg (fun _ _ => True) w ∧
      ¬ ReconnectRestores sample_crates sample_libraries sample_cfg w x := by
  refine ⟨⟨sample_run [.connect connection], rotation .lost, reachable_sample_run _, fun hkeeps => ?_⟩,
    sample_run [.connect connection, .rotate (rotation .lost), .request .delivered], connection,
    reachable_sample_run _, fun hrestores => ?_⟩
  · obtain ⟨identity, hclient⟩ := Option.isSome_iff_exists.mp
      (show (sample_run [.connect connection]).client.isSome = true by decide)
    have hafter : sample_run [.connect connection, .rotate (rotation .lost)] =
        (rotate_token sample_crates sample_libraries (rotation .lost) identity (sample_run [.connect connection])).2 := by
      change (Action.rotate _).after sample_crates sample_libraries sample_cfg (sample_run [.connect connection]) = _
      unfold Action.after
      rw [hclient]
    obtain ⟨hheld, -⟩ := hkeeps identity "rotating token" hclient (by simp [rotate_token, rotation])
    rw [← hafter] at hheld
    exact refuses_client (by decide) hheld
  · exact refuses_client (by decide) (hrestores (by decide) ⟨rfl, rfl, rfl, rfl⟩)

/-- A rotation that never reaches the server is no loss. -/
theorem unsent_rotation_keeps_token :
    RotationKeepsToken sample_crates sample_libraries (sample_run [.connect connection]) (rotation .unsent) ∧
      ¬ ReconnectRestores sample_crates sample_libraries sample_cfg
        (sample_run [.connect connection, .rotate (rotation .lost), .request .delivered]) connection := by
  have hcurrent : Current sample_libraries (sample_run [.connect connection]) := by
    intro identity hclient
    have hall : ((sample_run [.connect connection]).client.all fun identity =>
        unexpired sample_libraries.parse (sample_run [.connect connection]).now identity.token_expires_at) = true := by
      decide
    simpa [hclient] using hall
  obtain ⟨hkept, hstranded⟩ := @credentials_are_continuous sample_crates sample_libraries sample_cfg
  exact ⟨(hkept _ ⟨migrated, epoch, .single ⟨.connect connection, trivial, rfl⟩⟩).1 _ ⟨hcurrent, .inl rfl⟩,
    hstranded _ connection (reachable_sample_run _) (by decide) ⟨rfl, rfl, rfl, rfl⟩⟩

end Samples

end iac_agent.remote
