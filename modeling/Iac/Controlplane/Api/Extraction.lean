import Iac.Controlplane.Api.Operations

open iac_controlplane.store serde_json

namespace iac_controlplane.api

/-- `kind/environment/name`. -/
def resource_id_of (kind environment name : String) : String :=
  kind ++ "/" ++ environment ++ "/" ++ name

/-- What `extract_routing` reads of a manifest that it accepts. -/
structure Manifest (environment : String) (raw : Value) (kind name : String) : Prop where
  kind_eq : (raw.get "kind").bind Value.as_str = some kind
  name_eq : ((raw.get "metadata").bind fun m => m.get "name").bind Value.as_str = some name
  environment_eq : ((raw.get "metadata").bind fun m => m.get "environment").bind Value.as_str = none ∨
    ((raw.get "metadata").bind fun m => m.get "environment").bind Value.as_str = some environment

theorem extract_routing_spec {crates : Crates} {environment : String} {raw : Value} {r : ResourceForRouting}
    (h : extract_routing crates environment raw = .ok r) :
    ∃ kind name, Manifest environment raw kind name ∧ r.resource_id = resource_id_of kind environment name ∧
      r.kind = kind ∧ r.environment = environment ∧ r.name = name ∧
      r.resource_json = crates.to_string (stamp_environment environment raw) ∧ r.host_selector = host_selector_of raw := by
  simp only [extract_routing] at h
  cases hkind : (raw.get "kind").bind Value.as_str with
  | none => simp [hkind, bind, Except.bind] at h
  | some kind =>
    cases hname : ((raw.get "metadata").bind fun m => m.get "name").bind Value.as_str with
    | none => simp [hkind, hname, bind, Except.bind] at h
    | some name =>
      simp only [hkind, hname, Option.elim_some, bind, Except.bind] at h
      cases hdeclared : ((raw.get "metadata").bind fun m => m.get "environment").bind Value.as_str with
      | none =>
        simp only [hdeclared] at h
        obtain rfl := Except.ok.inj h
        exact ⟨kind, name, ⟨hkind, hname, .inl hdeclared⟩, rfl, rfl, rfl, rfl, rfl, rfl⟩
      | some declared =>
        simp only [hdeclared] at h
        by_cases hsame : declared = environment
        · subst hsame
          simp only [↓reduceIte] at h
          obtain rfl := Except.ok.inj h
          exact ⟨kind, name, ⟨hkind, hname, .inr hdeclared⟩, rfl, rfl, rfl, rfl, rfl, rfl⟩
        · simp [hsame] at h

/-- The fields of an accepted manifest, and what stamping its environment makes of them. -/
private theorem stamped_fields {environment : String} {raw : Value} {kind name : String}
    (h : Manifest environment raw kind name) :
    ∃ fields inner, raw = .object fields ∧ raw.get "metadata" = some (.object inner) ∧
      stamp_environment environment raw =
        .object (insert_field "metadata" (.object (insert_field "environment" (.string environment) inner)) fields) := by
  obtain ⟨name_value, hget, -⟩ := Option.bind_eq_some_iff.mp h.name_eq
  obtain ⟨metadata, hmetadata, hinner⟩ := Option.bind_eq_some_iff.mp hget
  obtain ⟨fields, rfl⟩ := Value.object_of_get hmetadata
  obtain ⟨inner, rfl⟩ := Value.object_of_get hinner
  exact ⟨fields, inner, rfl, hmetadata, by simp only [stamp_environment, hmetadata]⟩

/-- A stamped manifest declares its environment and is otherwise the one submitted. -/
theorem stamped_manifest {environment : String} {raw : Value} {kind name : String}
    (h : Manifest environment raw kind name) :
    Manifest environment (stamp_environment environment raw) kind name ∧
      (((stamp_environment environment raw).get "metadata").bind fun m => m.get "environment").bind Value.as_str =
        some environment := by
  obtain ⟨fields, inner, rfl, hmetadata, hstamped⟩ := stamped_fields h
  have hkind := h.kind_eq
  have hname := h.name_eq
  rw [hmetadata] at hname
  have hdeclared : (((stamp_environment environment (.object fields)).get "metadata").bind fun m =>
      m.get "environment").bind Value.as_str = some environment := by
    rw [hstamped, Value.get_insert_field_self]
    simp [Value.get_insert_field_self, Value.as_str]
  refine ⟨⟨?_, ?_, .inr hdeclared⟩, hdeclared⟩
  · rw [hstamped, Value.get_insert_field_of_ne _ _ _ (by decide)]
    exact hkind
  · rw [hstamped, Value.get_insert_field_self]
    simpa [Value.get_insert_field_of_ne] using hname

theorem stamp_environment_idem {environment : String} {raw : Value} {kind name : String}
    (h : Manifest environment raw kind name) :
    stamp_environment environment (stamp_environment environment raw) = stamp_environment environment raw := by
  obtain ⟨fields, inner, rfl, -, hstamped⟩ := stamped_fields h
  rw [hstamped, stamp_environment]
  simp only [Value.get_insert_field_self, insert_field_insert_field]

/-- A manifest that was stamped before is routed as it was then. -/
theorem extract_routing_stamped {crates : Crates} {environment other : String} {raw : Value} {r r' : ResourceForRouting}
    (h : extract_routing crates environment raw = .ok r)
    (hagain : extract_routing crates other (stamp_environment environment raw) = .ok r') :
    r'.resource_id = r.resource_id ∧ r'.environment = r.environment ∧ r'.resource_json = r.resource_json := by
  obtain ⟨kind, name, hmanifest, hid, -, henvironment, -, hjson, -⟩ := extract_routing_spec h
  obtain ⟨kind', name', hmanifest', hid', -, henvironment', -, hjson', -⟩ := extract_routing_spec hagain
  obtain ⟨hstamped, hdeclared⟩ := stamped_manifest hmanifest
  obtain rfl : environment = other := by
    obtain hnone | hsome := hmanifest'.environment_eq
    · simp [hdeclared] at hnone
    · exact Option.some.inj (hdeclared.symm.trans hsome)
  obtain rfl := Option.some.inj (hstamped.kind_eq.symm.trans hmanifest'.kind_eq)
  obtain rfl := Option.some.inj (hstamped.name_eq.symm.trans hmanifest'.name_eq)
  refine ⟨hid'.trans hid.symm, henvironment'.trans henvironment.symm, ?_⟩
  rw [hjson', hjson, stamp_environment_idem hmanifest]

theorem extract_routing_of_manifest {crates : Crates} {environment : String} {raw : Value} {kind name : String}
    (h : Manifest environment raw kind name) :
    extract_routing crates environment raw = .ok {
      resource_id := resource_id_of kind environment name, kind, environment,
      resource_json := crates.to_string (stamp_environment environment raw), name,
      host_selector := host_selector_of raw } := by
  simp only [extract_routing, h.kind_eq, h.name_eq, Option.elim_some, bind, Except.bind]
  obtain hnone | hsome := h.environment_eq
  · simp only [hnone]
    rfl
  · simp only [hsome, ↓reduceIte]
    rfl

/-- In its own environment a stamped manifest is routed exactly as it was. -/
theorem extract_routing_again {crates : Crates} {environment : String} {raw : Value} {r : ResourceForRouting}
    (h : extract_routing crates environment raw = .ok r) :
    extract_routing crates environment (stamp_environment environment raw) = .ok r := by
  obtain ⟨kind, name, hmanifest, -⟩ := extract_routing_spec h
  obtain ⟨fields, inner, rfl, -, hstamped⟩ := stamped_fields hmanifest
  have hselector : host_selector_of (stamp_environment environment (.object fields)) = host_selector_of (.object fields) := by
    rw [hstamped, host_selector_of, host_selector_of, Value.get_insert_field_of_ne _ _ _ (by decide)]
  rw [extract_routing_of_manifest hmanifest] at h
  rw [extract_routing_of_manifest (stamped_manifest hmanifest).1, stamp_environment_idem hmanifest, hselector, h]

end iac_controlplane.api
