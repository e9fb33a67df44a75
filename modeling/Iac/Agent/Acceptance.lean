import Iac.Agent.Verify
import Iac.Collections.Fallible
import Iac.Controlplane.Signing
import Iac.Controlplane.Store.Consistent
import Iac.Controlplane.Store.Dispatch
import Iac.Core.Sha256
import Iac.Core.Timestamp.Order

open iac_controlplane.api iac_controlplane.signing iac_controlplane.store iac_core.protocol serde_json sql

namespace iac_agent.remote

section Dispatch

variable {crates : Crates} {dalek : Dalek} {parse : String → Option jiff.Timestamp} {signer : SignerState}
variable {registry : Option iac_controlplane.secrets.SecretRegistry} {lease : Int} {now received : jiff.Timestamp}
variable {agent_id token : String} {db : Store} {agent : Verifier} {env : AssignmentEnvelope}
variable {items : List AssignmentEnvelope}

private theorem resolve_envelope_ok {env resolved : AssignmentEnvelope} (h : resolve_envelope registry env = .ok resolved) :
    ∃ payload, resolved = { env with payload } := by
  unfold resolve_envelope at h
  cases hpayload : resolve_payload registry env.payload with
  | error e =>
    rw [hpayload] at h
    cases h
  | ok payload =>
    rw [hpayload] at h
    exact ⟨payload, (Except.ok.inj h).symm⟩

/-- An envelope leaves with the times of the fetched one, signed under the active key. -/
theorem build_envelope_ok {built : AssignmentEnvelope}
    (h : build_envelope crates dalek signer registry agent_id env = .ok built) :
    built.created_at = env.created_at ∧ built.expires_at = env.expires_at ∧ built.key_id = signer.active_id ∧
      ∃ secret, signer.keys.lookup signer.active_id = some secret ∧
        built.signature = dalek.encode (dalek.sign secret (built.message crates agent_id)) := by
  unfold build_envelope at h
  cases hresolved : resolve_envelope registry env with
  | error e =>
    rw [hresolved] at h
    cases h
  | ok resolved =>
    obtain ⟨payload, rfl⟩ := resolve_envelope_ok hresolved
    rw [hresolved] at h
    cases hsecret : signer.keys.lookup signer.active_id with
    | none => simp [SignerState.sign, SignerState.try_active_entry, hsecret, bind, Except.bind] at h
    | some secret =>
      simp only [SignerState.sign, SignerState.try_active_entry, hsecret, bind, Except.bind, fallible.mapError_ok, pure,
        Except.pure, Except.ok.injEq] at h
      subst h
      exact ⟨rfl, rfl, rfl, secret, rfl, rfl⟩

/-- What `list_assignments` answers are assignments of the agent, signed for it under the active key. -/
theorem listed_of_ok (h : (list_assignments crates dalek parse signer registry lease now agent_id token db).1 = .ok items)
    (henv : env ∈ items) : ∃ a ∈ db.rows .assignments, a.agent_id = agent_id ∧
      env.created_at = a.created_at ∧ env.expires_at = a.expires_at ∧ env.key_id = signer.active_id ∧
      ∃ secret, signer.keys.lookup signer.active_id = some secret ∧
        env.signature = dalek.encode (dalek.sign secret (env.message crates agent_id)) := by
  unfold list_assignments at h
  split at h
  · cases h
  · split at h
    · cases h
    · rename_i fetched after hfetched
      split at h
      · rename_i built hbuilt
        obtain rfl := Except.ok.inj h
        obtain ⟨env₀, henv₀, hbuild⟩ := fallible.mem_of_mapM_ok hbuilt henv
        obtain ⟨hcreated, hexpires, hkey, hsigned⟩ := build_envelope_ok hbuild
        rcases exec_cases (fetch_pending_assignments crates lease now agent_id) db with
          ⟨e, herror, -⟩ | ⟨out, after', hrun, hexec⟩
        · rw [hfetched] at herror
          cases herror
        · rw [hexec] at hfetched
          obtain ⟨hout, -⟩ := Prod.mk.inj hfetched
          obtain rfl := Except.ok.inj hout
          obtain ⟨a, ha, hagent, payload, -, rfl⟩ := mem_fetched hrun henv₀
          exact ⟨a, ha, hagent, hcreated, hexpires, hkey, hsigned⟩
      · cases h

private theorem freshness_ok_iff {created : jiff.Timestamp} {created_at : String} {max_age : UInt64} {grace : Int}
    (hgrace : 0 ≤ grace) (hparsed : parse created_at = some created) (hpast : created.nanos ≤ received.nanos) :
    check_envelope_freshness parse received created_at max_age grace = .ok () ↔
      received.as_second - created.as_second ≤ max_age.toInt64.toInt := by
  have hmono := jiff.Timestamp.as_second_mono hpast
  rw [check_envelope_freshness, hparsed]
  simp only
  split_ifs with hold hfuture
  · simp only [false_iff]
    omega
  · omega
  · simpa using hold

/-- The age at which the agent lets an envelope go, counted from when its assignment was made. -/
def Fresh (agent : Verifier) (received : jiff.Timestamp) (env : AssignmentEnvelope) : Prop :=
  ∀ max_age, agent.max_age = some max_age → ∀ created : jiff.Timestamp, 0 ≤ created.nanos →
    env.created_at = created.to_string → received.as_second - created.as_second ≤ max_age.toInt64.toInt

/-- An envelope of the server is accepted while it is fresh. -/
private theorem verify_ok_iff_fresh {secret : List UInt8} {created : jiff.Timestamp}
    (hverifier : agent.verifiers.lookup env.key_id = some (dalek.verifying_key secret)) (hera : 0 ≤ created.nanos)
    (hcreated : env.created_at = created.to_string) (hparsed : parse env.created_at = some created)
    (hpast : created.nanos ≤ received.nanos) (hexpires : env.expires_at = none)
    (hsigned : env.signature = dalek.encode (dalek.sign secret (env.message crates agent.agent_id)))
    (hsigns : dalek.Signs secret (env.message crates agent.agent_id)) :
    verify_envelope crates dalek parse received agent env = .ok () ↔ Fresh agent received env := by
  have hsignature : check_signature dalek (dalek.verifying_key secret) (env.message crates agent.agent_id) env.signature =
      .ok () := by
    rw [check_signature, hsigned, hsigns.decodes]
    simp [hsigns.length, hsigns.verifies]
  have hage (max_age : UInt64) : check_envelope_freshness parse received env.created_at max_age future_grace_secs = .ok () ↔
      received.as_second - created.as_second ≤ max_age.toInt64.toInt :=
    freshness_ok_iff (by decide) hparsed hpast
  rw [verify_envelope_ok_iff]
  constructor
  · rintro ⟨-, -, hfresh, -⟩ max_age hmax other hother hsame
    obtain rfl : created = other := jiff.to_string_injective (hcreated.symm.trans hsame)
    exact (hage max_age).mp (hfresh max_age hmax)
  · intro hfresh
    refine ⟨_, hverifier, fun max_age hmax => (hage max_age).mpr (hfresh max_age hmax created hera hcreated), ?_, hsignature⟩
    rw [hexpires]
    rfl

/-- The assignments of a response are accepted and processed exactly as long
as none is older than the agent's cap; and the accepted ones of any response
are processed exactly when no other one is refused. -/
theorem dispatched_accepted_while_fresh {secret : List UInt8}
    (hreach : iac_controlplane.store.Reachable crates (stamped_by now) db)
    (hlist : (list_assignments crates dalek parse signer registry lease now agent_id token db).1 = .ok items)
    (hlater : now.nanos ≤ received.nanos)
    (hparse : ∀ a ∈ db.rows .assignments, ∀ t : jiff.Timestamp, 0 ≤ t.nanos → a.created_at = t.to_string →
      parse a.created_at = some t)
    (hwire : crates.from_str (crates.to_string (list_to_value items)) = .ok (list_to_value items))
    (hactive : signer.keys.lookup signer.active_id = some secret)
    (hsigns : ∀ env ∈ items, dalek.Signs secret (env.message crates agent_id)) (hagent : agent.agent_id = agent_id)
    (hpinned : agent.verifiers.lookup signer.active_id = some (dalek.verifying_key secret)) :
    ((∀ env ∈ items, verify_envelope crates dalek parse received agent env = .ok ()) ∧
        drained (fetch_assignments crates dalek parse received agent (crates.to_string (list_to_value items))) = items ↔
      ∀ env ∈ items, Fresh agent received env) ∧
    ∀ answered : List AssignmentEnvelope,
      (∀ env ∈ answered, verify_envelope crates dalek parse received agent env = .ok () →
          env ∈ drained (check_assignments crates dalek parse received agent answered)) ↔
        (∀ env ∈ answered, verify_envelope crates dalek parse received agent env = .ok ()) ∨
        ∀ env ∈ answered, verify_envelope crates dalek parse received agent env ≠ .ok () := by
  subst hagent
  have haccepted : ∀ env ∈ items,
      (verify_envelope crates dalek parse received agent env = .ok () ↔ Fresh agent received env) := by
    intro env henv
    obtain ⟨a, ha, -, hcreated_at, hexpires_at, hkey, used, hused, hsigned⟩ := listed_of_ok hlist henv
    obtain rfl : secret = used := Option.some.inj (hactive.symm.trans hused)
    obtain ⟨-, hnever, created, hcreated, hera, hpast⟩ := stamped_run hreach a ha
    refine verify_ok_iff_fresh (hkey ▸ hpinned) hera (hcreated_at.trans hcreated) ?_ (hpast.trans hlater)
      (hexpires_at.trans hnever) hsigned (hsigns env henv)
    rw [hcreated_at]
    exact hparse a ha created hera hcreated
  have hfetch : fetch_assignments crates dalek parse received agent (crates.to_string (list_to_value items)) =
      check_assignments crates dalek parse received agent items := by
    have hread : (crates.from_str (crates.to_string (list_to_value items)) >>= list_of_value) = .ok items := by
      rw [hwire]
      exact list_of_value_to_value items
    rw [fetch_assignments, hread]
  refine ⟨⟨fun h env henv => (haccepted env henv).mp (h.1 env henv), fun hfresh => ?_⟩, fun answered => ⟨fun h => ?_, ?_⟩⟩
  · have hall : ∀ env ∈ items, verify_envelope crates dalek parse received agent env = .ok () :=
      fun env henv => (haccepted env henv).mpr (hfresh env henv)
    refine ⟨hall, ?_⟩
    rw [hfetch, check_assignments_ok_iff.mpr ⟨rfl, hall⟩]
    rfl
  · by_cases hnone : ∀ env ∈ answered, verify_envelope crates dalek parse received agent env ≠ .ok ()
    · exact .inr hnone
    · push Not at hnone
      obtain ⟨env, henv, hok⟩ := hnone
      exact .inl (mem_drained_iff.mp (h env henv hok)).2
  · rintro (hall | hnone) env henv hok
    · exact mem_drained_iff.mpr ⟨henv, hall⟩
    · exact absurd hok (hnone env henv)

end Dispatch

section Samples

/-- The signature of the one assignment for `web`. -/
def signed_for_web : Signed where
  secret := "nWGxne/9WmC6hEr0kuwsxERJxWl7MmkZcDusAxyuf2A="
  public_key := "11qYAYKxCrfVS/7TyWQHOg7hcvPapiMlrwIaaPcHURo="
  message := "iac-assignment-v2\nweb\n0\nop\n1970-01-01T00:00:00Z\n\n" ++
    "4924ef666066e5bb7b6434b26cc7bc38f067e420410ae127d1f44daea936b51f\n"
  signature := "k8SwemrYdhyrB+/PyjRYwJLNQ2zZIKcRvLeyJRCGom9gdO1+oj5Ov9GuFxXxQ2raN0W7NunSO8jmxf9NldbVDA=="

def web_item : AssignmentEnvelope where
  assignment_id := "0"
  operation_id := "op"
  kind := "apply"
  created_at := "1970-01-01T00:00:00Z"
  expires_at := none
  payload := ⟨[strip_routing_hints (manifest "web" [])]⟩
  key_id := "01JT2N8Q4V6C0W3Y5Z7A9B1D2E"
  signature := signed_for_web.signature

def web_crates : Crates where
  from_str := (Crates.on [manifest "web" [], strip_routing_hints (manifest "web" []),
    AssignmentPayload.to_value ⟨[strip_routing_hints (manifest "web" [])]⟩, list_to_value [web_item]]).from_str
  to_string := compact
  sha256_hex := sha2.hex_digest

def web_dalek : Dalek := Dalek.on [signed_for_web]

def web_secret : List UInt8 := (base64.decode signed_for_web.secret).getD []

def web_signer : SignerState := ⟨[(web_item.key_id, web_secret)], web_item.key_id⟩

/-- The agent with the default cap of a day. -/
def web_agent : Verifier := ⟨"web", [(web_item.key_id, web_dalek.verifying_key web_secret)], some 86400⟩

/-- An assignment is made at midnight and waits for its agent. -/
def web_calls : List Call :=
  [.register_agent (registration "web"), .create_operation (submission [resource "Package/prod/nginx" "web" []] none)]

def web_waits : Store := call_all web_crates web_calls migrated

theorem hours_in_range (hours : Fin 1000) :
    jiff.min_nanos ≤ iac_controlplane.store.midnight.nanos + hours * 3600000000000 ∧
      iac_controlplane.store.midnight.nanos + hours * 3600000000000 ≤ jiff.max_nanos := by
  have hlt := hours.isLt
  simp only [iac_controlplane.store.midnight, jiff.min_nanos, jiff.max_nanos]
  omega

/-- The start of 1970 and so many hours. -/
def hours_later (hours : Fin 1000) : jiff.Timestamp where
  nanos := iac_controlplane.store.midnight.nanos + hours * 3600000000000
  in_range := hours_in_range hours

def read_midnight (text : String) : Option jiff.Timestamp :=
  if text = "1970-01-01T00:00:00Z" then some iac_controlplane.store.midnight else none

private theorem read_midnight_of_eq {a : AssignmentRow} (ha : a ∈ web_waits.rows .assignments) {t : jiff.Timestamp}
    (h : a.created_at = t.to_string) : read_midnight a.created_at = some t := by
  have hmidnight : a.created_at = iac_controlplane.store.midnight.to_string := by
    have hall : ∀ a ∈ web_waits.rows .assignments, a.created_at = iac_controlplane.store.midnight.to_string := by
      set_option maxRecDepth 2000 in decide
    exact hall a ha
  obtain rfl := jiff.to_string_injective (h.symm.trans hmidnight)
  rw [hmidnight]
  exact if_pos (by set_option maxRecDepth 2000 in decide)

private theorem web_waits_reachable (hours : Fin 1000) :
    iac_controlplane.store.Reachable web_crates (stamped_by (hours_later hours)) web_waits := by
  refine run_call_all web_calls ⟨(fun t ht => nomatch ht), fun t ht => ?_, trivial⟩
  obtain rfl := Option.some.inj ht
  refine ⟨by decide, ?_⟩
  change iac_controlplane.store.midnight.nanos ≤ iac_controlplane.store.midnight.nanos + hours * 3600000000000
  omega

/-- The assignment before it is signed. -/
private def web_pending : AssignmentEnvelope := { web_item with key_id := "", signature := "" }

private theorem web_authenticated : ∀ hours ∈ [(0 : Fin 1000), 25],
    ((authenticate web_crates read_midnight (hours_later hours) "web" "").exec web_waits).1.isOk = true := by
  decide +kernel

private theorem web_fetched : ∀ hours ∈ [(0 : Fin 1000), 25],
    ((fetch_pending_assignments web_crates 300 (hours_later hours) "web").exec web_waits).1 = .ok [web_pending] := by
  decide +kernel

/-- The keys and the signature of the sample. -/
private def web_bytes : signed_for_web.Bytes where
  secret := sample_secret
  public_key := sample_public_key
  signature :=
    [147, 196, 176, 122, 106, 216, 118, 28, 171, 7, 239, 207, 202, 52, 88, 192, 146, 205, 67, 108, 217, 32,
     167, 17, 188, 183, 178, 37, 16, 134, 162, 111, 96, 116, 237, 126, 162, 62, 78, 191, 209, 174, 23, 21,
     241, 67, 106, 218, 55, 69, 187, 54, 233, 210, 59, 200, 230, 197, 255, 77, 149, 214, 213, 12]
  secret_eq := encode_sample_secret
  public_key_eq := encode_sample_public_key
  signature_eq := by set_option maxRecDepth 2000 in rfl
  length := by rfl

private theorem web_secret_eq : web_secret = web_bytes.secret := web_bytes.getD_decode_secret

private theorem web_message : web_item.message web_crates "web" = signed_for_web.message := by
  have hpayload : web_crates.to_string web_item.payload.to_value =
      "\x7b\"resources\":[\x7b\"metadata\":\x7b\"dependsOn\":[]\x7d,\"spec\":\x7b\x7d\x7d]\x7d" := by
    rfl
  have hdigest : web_crates.sha256_hex
      "\x7b\"resources\":[\x7b\"metadata\":\x7b\"dependsOn\":[]\x7d,\"spec\":\x7b\x7d\x7d]\x7d".toUTF8.data.toList =
        "4924ef666066e5bb7b6434b26cc7bc38f067e420410ae127d1f44daea936b51f" := by
    rfl
  calc web_item.message web_crates "web"
    _ = "iac-assignment-v2\n" ++ "web" ++ "\n" ++ "0" ++ "\n" ++ "op" ++ "\n" ++ "1970-01-01T00:00:00Z" ++ "\n" ++ "" ++ "\n" ++
          web_crates.sha256_hex (web_crates.to_string web_item.payload.to_value).toUTF8.data.toList ++ "\n" := rfl
    _ = "iac-assignment-v2\n" ++ "web" ++ "\n" ++ "0" ++ "\n" ++ "op" ++ "\n" ++ "1970-01-01T00:00:00Z" ++ "\n" ++ "" ++ "\n" ++
          "4924ef666066e5bb7b6434b26cc7bc38f067e420410ae127d1f44daea936b51f" ++ "\n" := by
        rw [hpayload, hdigest]
    _ = signed_for_web.message := by rfl

private theorem web_built : [web_pending].mapM (build_envelope web_crates web_dalek web_signer none "web") =
    .ok [web_item] := by
  have hentry : web_signer.try_active_entry = .ok web_secret := by rfl
  have hsigned : web_dalek.encode (web_dalek.sign web_secret (web_pending.message web_crates "web")) =
      web_item.signature := by
    have hmessage : web_pending.message web_crates "web" = signed_for_web.message := web_message
    rw [hmessage, web_secret_eq, web_dalek, Dalek.sign_single web_bytes]
    exact web_bytes.signature_eq
  have hone : build_envelope web_crates web_dalek web_signer none "web" web_pending = .ok
      { web_pending with
        signature := web_dalek.encode (web_dalek.sign web_secret (web_pending.message web_crates "web"))
        key_id := web_item.key_id } := by
    simp only [build_envelope, resolve_envelope, resolve_payload, SignerState.sign, hentry, bind, Except.bind, pure,
      Except.pure, fallible.mapError_ok]
    rfl
  rw [hsigned] at hone
  simp only [List.mapM_cons, hone, List.mapM_nil, bind, Except.bind, pure, Except.pure]
  rfl

private theorem web_listed : ∀ hours ∈ [(0 : Fin 1000), 25],
    (list_assignments web_crates web_dalek read_midnight web_signer none 300 (hours_later hours) "web" "" web_waits).1 =
      .ok [web_item] :=
  fun hours hmem => list_assignments_ok (web_authenticated hours hmem) (web_fetched hours hmem) web_built

private theorem web_signs : ∀ env ∈ [web_item], web_dalek.Signs web_secret (env.message web_crates "web") := by
  intro env henv
  obtain rfl := List.mem_singleton.mp henv
  rw [web_message, web_secret_eq]
  exact Dalek.signs_single web_bytes

private theorem web_wire :
    web_crates.from_str (web_crates.to_string (list_to_value [web_item])) = .ok (list_to_value [web_item]) := by
  decide +kernel

private theorem web_fresh : Fresh web_agent (hours_later 0) web_item := by
  intro max_age hmax created hera hcreated
  obtain rfl := Option.some.inj hmax
  obtain rfl : iac_controlplane.store.midnight = created :=
    jiff.to_string_injective ((by set_option maxRecDepth 2000 in decide : _ = web_item.created_at).trans hcreated)
  decide

/-- The agent accepts the assignment at once. -/
theorem web_item_passes :
    verify_envelope web_crates web_dalek read_midnight (hours_later 0) web_agent web_item = .ok () := by
  have hsigned : web_item.signature =
      web_dalek.encode (web_dalek.sign web_secret (web_item.message web_crates web_agent.agent_id)) := by
    have hmessage : web_item.message web_crates web_agent.agent_id = signed_for_web.message := web_message
    rw [hmessage, web_secret_eq, web_dalek, Dalek.sign_single web_bytes]
    exact web_bytes.signature_eq.symm
  have hcreated : web_item.created_at = iac_controlplane.store.midnight.to_string := by
    set_option maxRecDepth 2000 in decide
  refine (verify_ok_iff_fresh rfl (by decide) hcreated ?_ le_rfl rfl hsigned
    (web_signs web_item List.mem_cons_self)).mpr web_fresh
  rw [hcreated]
  exact if_pos (by set_option maxRecDepth 2000 in decide)

/-- An agent that asks at once gets the assignment. -/
theorem prompt_assignment_is_accepted :
    (∀ env ∈ [web_item], verify_envelope web_crates web_dalek read_midnight (hours_later 0) web_agent env = .ok ()) ∧
      drained (fetch_assignments web_crates web_dalek read_midnight (hours_later 0) web_agent
        (web_crates.to_string (list_to_value [web_item]))) = [web_item] := by
  refine (dispatched_accepted_while_fresh (web_waits_reachable 0) (web_listed 0 (by decide)) le_rfl
    (fun a ha t _ => read_midnight_of_eq ha) web_wire rfl web_signs rfl rfl).1.mpr ?_
  intro env henv
  obtain rfl := List.mem_singleton.mp henv
  exact web_fresh

/-- An agent that comes online an hour after a day is sent an assignment that it refuses. -/
theorem waiting_assignment_is_refused :
    ¬ ∀ (crates : Crates) (dalek : Dalek) (parse : String → Option jiff.Timestamp) (signer : SignerState) (lease : Int)
        (now : jiff.Timestamp) (agent_id token : String) (db : Store) (agent : Verifier) (items : List AssignmentEnvelope)
        (secret : List UInt8),
      iac_controlplane.store.Reachable crates (stamped_by now) db →
      (list_assignments crates dalek parse signer none lease now agent_id token db).1 = .ok items →
      (∀ a ∈ db.rows .assignments, ∀ t : jiff.Timestamp, 0 ≤ t.nanos → a.created_at = t.to_string →
        parse a.created_at = some t) →
      crates.from_str (crates.to_string (list_to_value items)) = .ok (list_to_value items) →
      signer.keys.lookup signer.active_id = some secret →
      (∀ env ∈ items, dalek.Signs secret (env.message crates agent_id)) → agent.agent_id = agent_id →
      agent.verifiers.lookup signer.active_id = some (dalek.verifying_key secret) →
      ∀ env ∈ items, verify_envelope crates dalek parse now agent env = .ok () := by
  intro hall
  have haccepted := hall web_crates web_dalek read_midnight web_signer 300 (hours_later 25) "web" "" web_waits web_agent
    [web_item] web_secret (web_waits_reachable 25) (web_listed 25 (by decide)) (fun a ha t _ => read_midnight_of_eq ha)
    web_wire rfl web_signs rfl rfl web_item List.mem_cons_self
  have hrefused : (verify_envelope web_crates web_dalek read_midnight (hours_later 25) web_agent web_item).toBool = false := by
    decide
  rw [haccepted] at hrefused
  cases hrefused

end Samples

end iac_agent.remote
