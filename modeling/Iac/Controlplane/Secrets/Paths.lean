import Iac.Collections.Fallible
import Iac.Controlplane.Signing
import Iac.Controlplane.SshPush
import Iac.Controlplane.Store.DesiredState
import Iac.Controlplane.Store.Run

open iac_controlplane.api iac_controlplane.signing iac_controlplane.ssh_push iac_controlplane.store iac_core.protocol
open fallible serde_json sql

namespace iac_controlplane.secrets

def references_of_text (s : String) : List SecretRef :=
  (find_refs_in_string s).filterMap Sum.getRight?

mutual

/-- The secret references in the texts of a value. -/
def references : Value → List SecretRef
  | .string s => references_of_text s
  | .array items => references_of_items items
  | .object fields => references_of_fields fields
  | _ => []

def references_of_items : List Value → List SecretRef
  | [] => []
  | item :: items => references item ++ references_of_items items

def references_of_fields : List (String × Value) → List SecretRef
  | [] => []
  | (_, value) :: fields => references value ++ references_of_fields fields

end

section References

variable {registry : SecretRegistry}

theorem references_of_text_eq_nil {s : String} :
    references_of_text s = [] ↔ (find_refs_in_string s).any Sum.isRight = false := by
  simp only [references_of_text, List.filterMap_eq_nil_iff, List.any_eq_false]
  refine forall₂_congr fun piece _ => ?_
  cases piece <;> simp

mutual

/-- Nothing is resolved exactly when there is no reference, and then nothing changes. -/
theorem substitute_untouched (pointer : String) (v : Value) {out : Value × List String}
    (h : substitute_with_pointers registry pointer v = .ok out) :
    (references v = [] → out = (v, [])) ∧ (out.2 = [] → references v = []) := by
  cases v with
  | string s =>
    rw [substitute_with_pointers] at h
    cases hrefs : (find_refs_in_string s).any Sum.isRight with
    | false =>
      simp only [hrefs] at h
      obtain rfl := Except.ok.inj h
      exact ⟨fun _ => rfl, fun _ => references_of_text_eq_nil.mpr hrefs⟩
    | true =>
      refine ⟨fun hnone => ?_, fun hempty => ?_⟩
      · rw [references, references_of_text_eq_nil, hrefs] at hnone
        cases hnone
      · simp only [hrefs, if_true] at h
        obtain ⟨resolved, -, hout⟩ := bind_eq_ok_iff.mp h
        obtain rfl := Except.ok.inj hout
        cases hempty
  | array items =>
    rw [substitute_with_pointers] at h
    obtain ⟨result, hitems, hout⟩ := bind_eq_ok_iff.mp h
    obtain rfl := Except.ok.inj hout
    obtain ⟨hsame, hnone⟩ := substitute_items_untouched pointer 0 items hitems
    rw [references]
    refine ⟨fun hrefs => ?_, hnone⟩
    rw [hsame hrefs]
  | object fields =>
    rw [substitute_with_pointers] at h
    obtain ⟨result, hfields, hout⟩ := bind_eq_ok_iff.mp h
    obtain rfl := Except.ok.inj hout
    obtain ⟨hsame, hnone⟩ := substitute_fields_untouched pointer fields hfields
    rw [references]
    refine ⟨fun hrefs => ?_, hnone⟩
    rw [hsame hrefs]
  | null | bool b | number n =>
    obtain rfl := Except.ok.inj h
    exact ⟨fun _ => rfl, fun _ => rfl⟩

theorem substitute_items_untouched (pointer : String) (i : Nat) (items : List Value) {out : List Value × List String}
    (h : substitute_items registry pointer i items = .ok out) :
    (references_of_items items = [] → out = (items, [])) ∧ (out.2 = [] → references_of_items items = []) := by
  cases items with
  | nil =>
    obtain rfl := Except.ok.inj h
    exact ⟨fun _ => rfl, fun _ => rfl⟩
  | cons item items =>
    rw [substitute_items] at h
    obtain ⟨first, hfirst, htail⟩ := bind_eq_ok_iff.mp h
    obtain ⟨rest, hrest, hout⟩ := bind_eq_ok_iff.mp htail
    obtain rfl := Except.ok.inj hout
    obtain ⟨hsame, hnone⟩ := substitute_untouched _ item hfirst
    obtain ⟨hsame_rest, hnone_rest⟩ := substitute_items_untouched pointer (i + 1) items hrest
    rw [references_of_items, List.append_eq_nil_iff]
    refine ⟨fun hrefs => ?_, fun hempty => ?_⟩
    · rw [hsame hrefs.1, hsame_rest hrefs.2]
      rfl
    · obtain ⟨hleft, hright⟩ := List.append_eq_nil_iff.mp hempty
      exact ⟨hnone hleft, hnone_rest hright⟩

theorem substitute_fields_untouched (pointer : String) (fields : List (String × Value))
    {out : List (String × Value) × List String} (h : substitute_fields registry pointer fields = .ok out) :
    (references_of_fields fields = [] → out = (fields, [])) ∧ (out.2 = [] → references_of_fields fields = []) := by
  match fields with
  | [] =>
    obtain rfl := Except.ok.inj h
    exact ⟨fun _ => rfl, fun _ => rfl⟩
  | (key, value) :: fields =>
    rw [substitute_fields] at h
    obtain ⟨first, hfirst, htail⟩ := bind_eq_ok_iff.mp h
    obtain ⟨rest, hrest, hout⟩ := bind_eq_ok_iff.mp htail
    obtain rfl := Except.ok.inj hout
    obtain ⟨hsame, hnone⟩ := substitute_untouched _ value hfirst
    obtain ⟨hsame_rest, hnone_rest⟩ := substitute_fields_untouched pointer fields hrest
    rw [references_of_fields, List.append_eq_nil_iff]
    refine ⟨fun hrefs => ?_, fun hempty => ?_⟩
    · rw [hsame hrefs.1, hsame_rest hrefs.2]
      rfl
    · obtain ⟨hleft, hright⟩ := List.append_eq_nil_iff.mp hempty
      exact ⟨hnone hleft, hnone_rest hright⟩

end

/-- The metadata of the resource, when it is an object, has the annotation that the server writes. -/
def Annotated (resource : Value) : Prop :=
  ∀ metadata, resource.get "metadata" = some (.object metadata) →
    ∃ value, ((Value.object metadata).get "annotations").bind (Value.get · secret_fields_annotation) = some value

theorem annotated_annotate (pointers : List String) (resource : Value) : Annotated (annotate pointers resource) := by
  intro metadata hmetadata
  cases resource with
  | object fields =>
    obtain ⟨field, hfield, hvalue⟩ := Option.map_eq_some_iff.mp hmetadata
    rw [List.find?_map] at hfield
    obtain ⟨⟨key, value⟩, hold, rfl⟩ := Option.map_eq_some_iff.mp hfield
    have hkey := List.find?_some hold
    cases value with
    | object inner =>
      by_cases hthis : key = "metadata"
      · subst hthis
        simp only [if_true, Value.object.injEq] at hvalue
        subst hvalue
        rw [Value.get_insert_field_self, Option.bind_some, Value.get_insert_field_self]
        exact ⟨_, rfl⟩
      · simp [hthis] at hkey
    | _ => cases hvalue
  | _ => cases hmetadata

/-- Resolving gives a resource back when there is nothing to resolve; else only one
that already has the annotation. -/
theorem resolved_eq_self_iff {resource out : Value} (h : resolve_resource registry resource = .ok out) :
    out = resource ↔ references resource = [] ∨ Annotated resource ∧ out = resource := by
  obtain ⟨⟨substituted, pointers⟩, hsubstituted, hout⟩ := bind_eq_ok_iff.mp h
  obtain ⟨hsame, hnone⟩ := substitute_untouched "" resource hsubstituted
  obtain rfl := Except.ok.inj hout
  constructor
  · intro hself
    cases pointers with
    | nil => exact .inl (hnone rfl)
    | cons pointer pointers =>
      have hannotated := annotated_annotate (pointer :: pointers) substituted
      exact .inr ⟨hself ▸ hannotated, hself⟩
  · rintro (hrefs | ⟨-, hself⟩)
    · obtain ⟨rfl, rfl⟩ := Prod.mk.inj (hsame hrefs)
      rfl
    · exact hself

end References

/-- A resource that a path may deliver as it is stored: one without references,
or one that already is what resolving makes of it. -/
def Settled (registry : SecretRegistry) (resource : Value) : Prop :=
  references resource = [] ∨ Annotated resource ∧ resolve_resource registry resource = .ok resource

/-- What an assignment with the resources `resolved` and the desired state of its
operation are delivered as: by an answer to the agent, by a push to a target, and
by the items of the desired state. -/
structure PathsResolve (crates : Crates) (registry : SecretRegistry) (db : Store) (a : AssignmentRow)
    (payload : AssignmentPayload) (resolved : List Value) (stdin : String) (items : List DesiredStateItem) : Prop where
  pulled : ∀ dalek signer env,
    build_envelope crates dalek signer (some registry) a.agent_id (envelope a payload) = .ok env →
      env.payload.resources = resolved
  pushed : assignment_of_stdin crates stdin = .ok ⟨resolved⟩
  observed : ∀ item ∈ items, item.operation_id = a.operation_id → ∃ d ∈ db.rows .desired_states,
    d.operation_id = item.operation_id ∧ d.resource_id = item.resource_id ∧
      ∃ stored, dispatched_value crates d.spec_json = .ok stored ∧ resolve_resource registry stored = .ok item.resource

section Paths

variable {crates : Crates} {registry : SecretRegistry} {db after : Store} {a : AssignmentRow} {payload : AssignmentPayload}
variable {resolved : List Value} {target : SshTargetConfig} {stdin : String} {items : List DesiredStateItem}

theorem settled_iff {resource out : Value} (h : resolve_resource registry resource = .ok out) :
    Settled registry resource ↔ resolve_resource registry resource = .ok resource := by
  rw [Settled, h, Except.ok.injEq]
  exact (resolved_eq_self_iff h).symm

/-- The answer to an agent carries the payload resolved. -/
theorem pulled_resolves (hresolved : payload.resources.mapM (resolve_resource registry) = .ok resolved) {dalek : Dalek}
    {signer : SignerState} {env : AssignmentEnvelope}
    (h : build_envelope crates dalek signer (some registry) a.agent_id (envelope a payload) = .ok env) :
    env.payload.resources = resolved := by
  obtain ⟨built, hbuilt, h⟩ := bind_eq_ok_iff.mp h
  obtain ⟨signature, -, henv⟩ := bind_eq_ok_iff.mp h
  obtain ⟨sent, hsent, hpayload⟩ := bind_eq_ok_iff.mp hbuilt
  obtain ⟨resources, hresources, hsame⟩ := bind_eq_ok_iff.mp hsent
  obtain rfl := Except.ok.inj henv
  obtain rfl := Except.ok.inj hpayload
  obtain rfl := Except.ok.inj hsame
  exact Except.ok.inj (hresources.symm.trans hresolved)

/-- All three paths deliver resolved resources exactly when what is stored needs no resolving. -/
theorem paths_resolve_iff_settled
    (hunique : ∀ d ∈ db.rows .desired_states, ∀ e ∈ db.rows .desired_states,
      d.operation_id = e.operation_id → d.resource_id = e.resource_id → d = e)
    (hpayload : (crates.from_str a.payload_json >>= AssignmentPayload.of_value) = .ok payload)
    (hresolved : payload.resources.mapM (resolve_resource registry) = .ok resolved)
    (hpiped : process_assignment crates target a.payload_json = .ok (.piped stdin))
    (hitems : (list_desired_state_for_agent crates a.agent_id).run db = (.ok items, after))
    (hresolves : ∀ item ∈ items, ∃ out, resolve_resource registry item.resource = .ok out) :
    PathsResolve crates registry db a payload resolved stdin items ↔
      (∀ resource ∈ payload.resources, Settled registry resource) ∧
        ∀ item ∈ items, item.operation_id = a.operation_id → Settled registry item.resource := by
  obtain rfl := process_assignment_piped hpiped
  have hread : assignment_of_stdin crates a.payload_json = .ok payload := by
    rw [assignment_of_stdin, hpayload]
    rfl
  have hsettled : (∀ resource ∈ payload.resources, Settled registry resource) ↔ payload.resources = resolved := by
    constructor
    · intro hall
      have hself : payload.resources.mapM (resolve_resource registry) = .ok payload.resources := by
        refine mapM_eq_self_iff.mpr fun resource hmem => ?_
        obtain ⟨out, -, hout⟩ := exists_right (mapM_ok_iff.mp hresolved) hmem
        exact (settled_iff hout).mp (hall resource hmem)
      exact Except.ok.inj (hself.symm.trans hresolved)
    · rintro rfl resource hmem
      have hself := mapM_eq_self_iff.mp hresolved resource hmem
      exact (settled_iff hself).mpr hself
  rw [hsettled]
  constructor
  · intro h
    have hpushed : payload = ⟨resolved⟩ := Except.ok.inj (hread.symm.trans h.pushed)
    refine ⟨congrArg AssignmentPayload.resources hpushed, fun item hitem hop => ?_⟩
    obtain ⟨d, hd, hd_op, hd_id, stored, hstored, hresolve⟩ := h.observed item hitem hop
    obtain ⟨e, he, he_op, he_id, hresource⟩ := mem_desired_state hitems hitem
    obtain rfl := hunique d hd e he (hd_op.trans he_op.symm) (hd_id.trans he_id.symm)
    obtain rfl := Except.ok.inj (hstored.symm.trans hresource)
    exact (settled_iff hresolve).mpr hresolve
  · rintro ⟨rfl, hitems_settled⟩
    refine ⟨fun dalek signer env henv => pulled_resolves hresolved henv, hread, fun item hitem hop => ?_⟩
    obtain ⟨d, hd, hd_op, hd_id, hresource⟩ := mem_desired_state hitems hitem
    obtain ⟨out, hout⟩ := hresolves item hitem
    exact ⟨d, hd, hd_op, hd_id, _, hresource, (settled_iff hout).mp (hitems_settled item hitem hop)⟩

end Paths

section Samples

/-- A manifest with a password. -/
def database (password : String) : Value :=
  json [("kind", .string "Database"), ("metadata", json [("name", .string "main"), ("environment", .string "prod")]),
    ("spec", json [("password", .string password)])]

def database_crates (password : String) : Crates :=
  Crates.on [database password, AssignmentPayload.to_value ⟨[database password]⟩]

/-- The only secret. -/
def one_secret : SecretRegistry := fun sref =>
  if sref = ⟨"env", "DB_PASSWORD", none⟩ then .ok "hunter2" else .error (.BadRequest "unknown secret")

def database_calls (password : String) : List Call :=
  [.register_agent (registration "db"),
   .create_operation (submission [{ resource_id := "Database/prod/main", kind := "Database", environment := "prod",
                                    resource_json := compact (database password), name := "main",
                                    host_selector := some "db" }] none)]

def database_store (password : String) : Store := call_all (database_crates password) (database_calls password) migrated

/-- What is stored of the assignment for the database. -/
def database_payload (password : String) : String := compact (AssignmentPayload.to_value ⟨[database password]⟩)

def database_item (password : String) : DesiredStateItem :=
  ⟨"Database/prod/main", "op", "1970-01-01T00:00:00Z", database password⟩

def database_target : SshTargetConfig := ⟨"db", []⟩

def password_text (reference : Bool) : String :=
  if reference then "$\x7bsecret://env/DB_PASSWORD\x7d" else "postgres"

private theorem database_unique (reference : Bool) :
    ∀ d ∈ (database_store (password_text reference)).rows .desired_states,
      ∀ e ∈ (database_store (password_text reference)).rows .desired_states,
        d.operation_id = e.operation_id → d.resource_id = e.resource_id → d = e := by
  have hone : ((database_store (password_text reference)).rows .desired_states).length = 1 := by
    revert reference
    decide
  obtain ⟨row, hrow⟩ := List.length_eq_one_iff.mp hone
  simp [hrow]

private theorem database_assigned (reference : Bool) :
    ∃ a ∈ (database_store (password_text reference)).rows .assignments,
      a.agent_id = "db" ∧ a.operation_id = "op" ∧ a.payload_json = database_payload (password_text reference) := by
  have hone : ((database_store (password_text reference)).rows .assignments).map
      (fun a => (a.agent_id, a.operation_id, a.payload_json)) = [("db", "op", database_payload (password_text reference))] := by
    revert reference
    decide
  obtain ⟨a, hrow, ha⟩ := List.map_eq_singleton_iff.mp hone
  exact ⟨a, hrow ▸ List.mem_cons_self, by simpa using ha⟩

/-- The database as it is sent to an agent. -/
private def database_sent : Bool → Value
  | false => database "postgres"
  | true => annotate ["/spec/password"] (database "hunter2")

private theorem database_run (reference : Bool) :
    ((database_crates (password_text reference)).from_str (database_payload (password_text reference)) >>=
      AssignmentPayload.of_value) = .ok ⟨[database (password_text reference)]⟩ ∧
    ((list_desired_state_for_agent (database_crates (password_text reference)) "db").run
      (database_store (password_text reference))).1 = .ok [database_item (password_text reference)] ∧
    resolve_resource one_secret (database (password_text reference)) = .ok (database_sent reference) := by
  revert reference
  decide +kernel

private theorem database_piped (reference : Bool) :
    process_assignment (database_crates (password_text reference)) database_target
        (database_payload (password_text reference)) = .ok (.piped (database_payload (password_text reference))) := by
  rw [process_assignment, (database_run reference).1]
  rfl

private theorem database_items (reference : Bool) :
    ∃ after, (list_desired_state_for_agent (database_crates (password_text reference)) "db").run
      (database_store (password_text reference)) = (.ok [database_item (password_text reference)], after) := by
  have hitems := (database_run reference).2.1
  revert hitems
  generalize (list_desired_state_for_agent _ _).run _ = answer
  intro hitems
  exact ⟨answer.2, by rw [← hitems]⟩

private theorem database_resolved (reference : Bool) :
    [database (password_text reference)].mapM (resolve_resource one_secret) = .ok [database_sent reference] := by
  rw [List.mapM_cons, (database_run reference).2.2]
  rfl

/-- Without a reference the paths agree. -/
theorem plain_password_paths_agree : ∃ a ∈ (database_store (password_text false)).rows .assignments,
    PathsResolve (database_crates (password_text false)) one_secret (database_store (password_text false)) a
      ⟨[database (password_text false)]⟩ [database (password_text false)] (database_payload (password_text false))
      [database_item (password_text false)] := by
  obtain ⟨a, ha, hagent, -, hpayload⟩ := database_assigned false
  obtain ⟨after, hitems⟩ := database_items false
  have hread := (database_run false).1
  have hpiped := database_piped false
  have hplain : references (database (password_text false)) = [] := by
    decide
  rw [← hagent] at hitems
  rw [← hpayload] at hread hpiped ⊢
  refine ⟨a, ha, (paths_resolve_iff_settled (database_unique false) hread (database_resolved false) hpiped hitems ?_).mpr
    ⟨?_, ?_⟩⟩
  · intro item hitem
    obtain rfl := List.mem_singleton.mp hitem
    exact ⟨_, (database_run false).2.2⟩
  · intro resource hresource
    obtain rfl := List.mem_singleton.mp hresource
    exact .inl hplain
  · intro item hitem _
    obtain rfl := List.mem_singleton.mp hitem
    exact .inl hplain

/-- A push sends a reference as it is stored. -/
theorem password_reference_is_pushed :
    ¬ ∀ (crates : Crates) (registry : SecretRegistry) (db after : Store) (a : AssignmentRow) (payload : AssignmentPayload)
        (resolved : List Value) (target : SshTargetConfig) (stdin : String) (items : List DesiredStateItem),
      Reachable crates any_call db → a ∈ db.rows .assignments →
      (crates.from_str a.payload_json >>= AssignmentPayload.of_value) = .ok payload →
      payload.resources.mapM (resolve_resource registry) = .ok resolved →
      process_assignment crates target a.payload_json = .ok (.piped stdin) →
      (list_desired_state_for_agent crates a.agent_id).run db = (.ok items, after) →
      (∀ item ∈ items, ∃ out, resolve_resource registry item.resource = .ok out) →
      PathsResolve crates registry db a payload resolved stdin items := by
  intro hall
  obtain ⟨a, ha, hagent, -, hpayload⟩ := database_assigned true
  obtain ⟨after, hitems⟩ := database_items true
  have hread := (database_run true).1
  have hpiped := database_piped true
  rw [← hagent] at hitems
  rw [← hpayload] at hread hpiped
  have hpaths := hall _ one_secret _ after a _ _ database_target _ _ (reachable_call_all _ _) ha hread (database_resolved true)
    hpiped hitems (fun item hitem => by
      obtain rfl := List.mem_singleton.mp hitem
      exact ⟨_, (database_run true).2.2⟩)
  have hpushed := hpaths.pushed
  rw [assignment_of_stdin, hread] at hpushed
  have hsent : database (password_text true) = database_sent true := by simpa using hpushed
  exact absurd hsent (by decide +kernel)

end Samples

end iac_controlplane.secrets
