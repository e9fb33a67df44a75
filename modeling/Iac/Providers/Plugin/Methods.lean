import Iac.Providers.Plugin
import Mathlib.Logic.Function.Basic

open iac_core iac_core.executor serde_json effect

namespace iac_providers.plugin

/-- The reply tells the state: present with the spec, or absent. -/
def ObserveResp.Reports (resp : ObserveResp) : Option Value → Prop
  | some spec => resp = ⟨true, spec⟩
  | none => resp.present = false

theorem reports_none {resp : ObserveResp} : resp.Reports none ↔ resp.present = false := Iff.rfl

theorem reports_some {resp : ObserveResp} {spec : Value} : resp.Reports (some spec) ↔ resp = ⟨true, spec⟩ := Iff.rfl

/-- A plugin with a state for each resource. What observes reports the state
and keeps it, `apply` sets or removes it, and the optional methods do what the
host does without them. -/
structure Plugin (Host : Type) (metadata : Resource → Value) extends PluginRuntime Host where
  state : Host → Value → Option Value
  observe_ok : ∀ {r raw s t}, perform (call "observe" (envelope toPluginRuntime metadata r)) s = (.ok raw, t) →
    state t = state s ∧ ∃ resp, ObserveResp.of_value raw = some resp ∧ resp.Reports (state s (metadata r))
  apply_ok : ∀ {r spec phase raw resp s t},
    perform (call "apply" (apply_params toPluginRuntime metadata r spec phase)) s = (.ok raw, t) →
    ApplyResp.of_value raw = some resp → resp.status = "ok" →
    state t (metadata r) = if phase = "delete" then none else some spec
  diff_ok : supports "diff" = true → ∀ {r observed raw s t},
    perform (call "diff" (diff_params metadata r observed)) s = (.ok raw, t) →
    state t = state s ∧ ∃ d, Diff.of_value raw = some d ∧ d.kind = (fallback_diff r.spec observed).kind
  pre_apply_ok : supports "pre_apply" = true → ∀ {r raw s t},
    perform (call "pre_apply" (envelope toPluginRuntime metadata r)) s = (.ok raw, t) →
    state t = state s ∧ ∃ resp : ObserveResp, resp.Reports (state s (metadata r)) ∧ raw = snapshot resp.present resp.spec
  verify_ok : supports "verify" = true → ∀ {r raw s t},
    perform (call "verify" (envelope toPluginRuntime metadata r)) s = (.ok raw, t) →
    state t = state s ∧ ∃ resp, ObserveResp.of_value raw = some resp ∧ resp.Reports (state s (metadata r))
  rollback_ok : supports "rollback" = true → ∀ {r present spec raw s t},
    perform (call "rollback" (rollback_params toPluginRuntime metadata r (snapshot present spec))) s = (.ok raw, t) →
    state t (metadata r) = if present then some spec else none

/-- What the host observes of a state. -/
def seen : Option Value → ObservedState
  | some spec => ⟨true, spec, []⟩
  | none => ⟨false, .null, []⟩

variable {Host : Type} {metadata : Resource → Value} {plugin : Plugin Host metadata} {r : Resource} {s t t₁ t₂ t₃ u w : Host}

namespace Plugin

/-- A step is planned for what is observed, checkpointed and applied with success. -/
def Applied (plugin : Plugin Host metadata) (r : Resource) (s t : Host) (data : Value) : Prop :=
  ∃ id observed d step result s₁ s₂ s₃, perform (observe plugin.toPluginRuntime metadata r) s = (.ok observed, s₁) ∧
    perform (diff plugin.toPluginRuntime metadata r observed) s₁ = (.ok d, s₂) ∧
    step ∈ plan plugin.toPluginRuntime id d ∧
    perform (pre_apply plugin.toPluginRuntime metadata r) s₂ = (.ok data, s₃) ∧
    perform (apply plugin.toPluginRuntime metadata r step) s₃ = (.ok result, t) ∧ result.status = .Succeeded

end Plugin

section Methods

theorem decode_ok {runtime : PluginRuntime Host} {α : Type} {method : String} {of_value : Value → Option α} {raw : Value}
    {a : α} (h : perform (decode runtime method of_value raw) s = (.ok a, t)) : of_value raw = some a ∧ t = s := by
  unfold decode at h
  split at h
  · next b hvalue =>
    obtain ⟨hresult, rfl⟩ := Prod.mk.inj h
    exact ⟨hvalue.trans (congrArg some (Except.ok.inj hresult)), rfl⟩
  · cases h

theorem observe_inner_returns {resp : ObserveResp}
    (h : perform (observe_inner plugin.toPluginRuntime metadata r) s = (.ok resp, t)) :
    plugin.state t = plugin.state s ∧ resp.Reports (plugin.state s (metadata r)) := by
  obtain ⟨raw, s₁, hcall, hdecode⟩ := perform_bind_eq_ok_iff.mp h
  obtain ⟨hresp, rfl⟩ := decode_ok hdecode
  obtain ⟨hkept, resp', hresp', hreports⟩ := plugin.observe_ok hcall
  obtain rfl := Option.some.inj (hresp'.symm.trans hresp)
  exact ⟨hkept, hreports⟩

/-- `observe` returns the state and keeps it. -/
theorem observe_returns {observed : ObservedState}
    (h : perform (observe plugin.toPluginRuntime metadata r) s = (.ok observed, t)) :
    plugin.state t = plugin.state s ∧ observed = seen (plugin.state s (metadata r)) := by
  obtain ⟨resp, s₁, hinner, hreturn⟩ := perform_bind_eq_ok_iff.mp h
  obtain ⟨hkept, hreports⟩ := observe_inner_returns hinner
  obtain ⟨hobserved, rfl⟩ := Prod.mk.inj hreturn
  refine ⟨hkept, (Except.ok.inj hobserved).symm.trans ?_⟩
  cases hstate : plugin.state s (metadata r) with
  | none =>
    have habsent := reports_none.mp (hstate ▸ hreports)
    rw [habsent]
    rfl
  | some spec =>
    obtain rfl := reports_some.mp (hstate ▸ hreports)
    rfl

/-- `diff` finds the change that the host would find, with or without the plugin. -/
theorem diff_finds {observed : ObservedState} {d : Diff}
    (h : perform (diff plugin.toPluginRuntime metadata r observed) s = (.ok d, t)) :
    plugin.state t = plugin.state s ∧ d.kind = (fallback_diff r.spec observed).kind := by
  unfold diff at h
  split_ifs at h with hsupports
  · obtain ⟨raw, s₁, hcall, hdecode⟩ := perform_bind_eq_ok_iff.mp h
    obtain ⟨hd, rfl⟩ := decode_ok hdecode
    obtain ⟨hkept, d', hd', hkind⟩ := plugin.diff_ok hsupports hcall
    obtain rfl := Option.some.inj (hd'.symm.trans hd)
    exact ⟨hkept, hkind⟩
  · obtain ⟨hd, rfl⟩ := Prod.mk.inj h
    exact ⟨rfl, congrArg Diff.kind (Except.ok.inj hd).symm⟩

/-- The checkpoint is the snapshot of the state, whoever takes it. -/
theorem pre_apply_takes {data : Value} (h : perform (pre_apply plugin.toPluginRuntime metadata r) s = (.ok data, t)) :
    plugin.state t = plugin.state s ∧
      ∃ resp : ObserveResp, resp.Reports (plugin.state s (metadata r)) ∧ data = snapshot resp.present resp.spec := by
  unfold pre_apply at h
  split_ifs at h with hsupports
  · exact plugin.pre_apply_ok hsupports h
  · obtain ⟨resp, s₁, hinner, hreturn⟩ := perform_bind_eq_ok_iff.mp h
    obtain ⟨hkept, hreports⟩ := observe_inner_returns hinner
    obtain ⟨hdata, rfl⟩ := Prod.mk.inj hreturn
    exact ⟨hkept, resp, hreports, (Except.ok.inj hdata).symm⟩

/-- A successful `apply` leaves the spec, or nothing. -/
theorem apply_leaves {step : Step} {result : StepResult}
    (h : perform (apply plugin.toPluginRuntime metadata r step) s = (.ok result, t)) (hresult : result.status = .Succeeded) :
    ∃ phase, phase_of_action step.action = some phase ∧
      plugin.state t (metadata r) = if phase = "delete" then none else some r.spec := by
  unfold apply at h
  split at h
  · cases h
  · next phase hphase =>
    obtain ⟨raw, s₁, hcall, hrest⟩ := perform_bind_eq_ok_iff.mp h
    obtain ⟨resp, s₂, hdecode, hreturn⟩ := perform_bind_eq_ok_iff.mp hrest
    obtain ⟨hresp, rfl⟩ := decode_ok hdecode
    split at hreturn
    · next hstatus =>
      obtain ⟨-, rfl⟩ := Prod.mk.inj hreturn
      exact ⟨phase, hphase, plugin.apply_ok hcall hresp hstatus⟩
    · obtain ⟨hfailed, -⟩ := Prod.mk.inj hreturn
      rw [← Except.ok.inj hfailed] at hresult
      cases hresult

theorem snapshot_fields (present : Bool) (spec : Value) :
    (snapshot present spec).get "prior_present" = some (.bool present) ∧
      (snapshot present spec).get "prior_spec" = some spec := by
  rw [snapshot, Value.get_json, Value.get_json]
  exact ⟨rfl, rfl⟩

/-- Rollback to a snapshot leaves what the snapshot says, whoever restores it. -/
theorem rollback_leaves {present : Bool} {spec : Value}
    (h : perform (rollback plugin.toPluginRuntime metadata r (snapshot present spec)) s = (.ok (), t)) :
    plugin.state t (metadata r) = if present then some spec else none := by
  unfold rollback at h
  split_ifs at h with hsupports
  · obtain ⟨raw, s₁, hcall, hreturn⟩ := perform_bind_eq_ok_iff.mp h
    obtain ⟨-, rfl⟩ := Prod.mk.inj hreturn
    exact plugin.rollback_ok hsupports hcall
  · obtain ⟨hpresent, hspec⟩ := snapshot_fields present spec
    simp only [hpresent, hspec, Option.getD_some] at h
    obtain ⟨raw, s₁, hcall, hrest⟩ := perform_bind_eq_ok_iff.mp h
    obtain ⟨resp, s₂, hdecode, hreturn⟩ := perform_bind_eq_ok_iff.mp hrest
    obtain ⟨hresp, rfl⟩ := decode_ok hdecode
    split at hreturn
    · cases hreturn
    · next hstatus =>
      obtain ⟨-, rfl⟩ := Prod.mk.inj hreturn
      rw [plugin.apply_ok hcall hresp (not_not.mp hstatus)]
      cases present <;> simp

/-- Without a `verify` of the plugin the host goes by a fresh diff. -/
theorem verify_of_diff {outcome : VerifyOutcome} (hsupports : plugin.supports "verify" = false)
    (h : perform (verify plugin.toPluginRuntime metadata r) s = (.ok outcome, t)) :
    plugin.state t = plugin.state s ∧
      (outcome = .Match ↔ (fallback_diff r.spec (seen (plugin.state s (metadata r)))).kind = .NoChange) := by
  unfold verify at h
  rw [if_neg (by simp [hsupports])] at h
  obtain ⟨observed, s₁, hobserve, hrest⟩ := perform_bind_eq_ok_iff.mp h
  obtain ⟨d, s₂, hdiff, hreturn⟩ := perform_bind_eq_ok_iff.mp hrest
  obtain ⟨hkept, rfl⟩ := observe_returns hobserve
  obtain ⟨hkept', hkind⟩ := diff_finds hdiff
  obtain ⟨houtcome, rfl⟩ := Prod.mk.inj hreturn
  refine ⟨hkept'.trans hkept, ?_⟩
  rw [← Except.ok.inj houtcome, ← hkind]
  split_ifs with hsame <;> simp [hsame]

/-- With it the state must be present and equal the spec. -/
theorem verify_of_plugin {outcome : VerifyOutcome} (hsupports : plugin.supports "verify" = true)
    (h : perform (verify plugin.toPluginRuntime metadata r) s = (.ok outcome, t)) :
    plugin.state t = plugin.state s ∧ (outcome = .Match ↔ plugin.state s (metadata r) = some r.spec) := by
  unfold verify at h
  rw [if_pos hsupports] at h
  obtain ⟨raw, s₁, hcall, hrest⟩ := perform_bind_eq_ok_iff.mp h
  obtain ⟨resp, s₂, hdecode, hreturn⟩ := perform_bind_eq_ok_iff.mp hrest
  obtain ⟨hresp, rfl⟩ := decode_ok hdecode
  obtain ⟨hkept, resp', hresp', hreports⟩ := plugin.verify_ok hsupports hcall
  obtain rfl := Option.some.inj (hresp'.symm.trans hresp)
  obtain ⟨houtcome, rfl⟩ := Prod.mk.inj hreturn
  refine ⟨hkept, ?_⟩
  rw [← Except.ok.inj houtcome]
  cases hstate : plugin.state s (metadata r) with
  | none =>
    have habsent := reports_none.mp (hstate ▸ hreports)
    simp [habsent]
  | some spec =>
    obtain rfl := reports_some.mp (hstate ▸ hreports)
    simp [eq_comm]

end Methods

section Lifecycle

/-- The state that the resource asks for. -/
def wanted (spec : Value) : Option Value := if desired_absent spec then none else some spec

/-- A successful apply leaves what is asked for. -/
theorem state_of_applied {data : Value} (h : plugin.Applied r s t data) : plugin.state t (metadata r) = wanted r.spec := by
  obtain ⟨id, observed, d, step, result, s₁, s₂, s₃, -, hdiff, hstep, -, happly, hresult⟩ := h
  obtain ⟨-, hkind⟩ := diff_finds hdiff
  obtain ⟨phase, hphase, hstate⟩ := apply_leaves happly hresult
  rw [hstate, wanted]
  simp only [plan, hkind] at hstep
  unfold fallback_diff at hstep
  cases habsent : desired_absent r.spec <;> cases hpresent : observed.present <;>
    simp only [habsent, hpresent, Diff.no_change] at hstep ⊢
  · obtain rfl := List.mem_singleton.mp hstep
    obtain rfl : "create" = phase := Option.some.inj hphase
    rfl
  · split_ifs at hstep
    · cases hstep
    · obtain rfl := List.mem_singleton.mp hstep
      obtain rfl : "update" = phase := Option.some.inj hphase
      rfl
  · cases hstep
  · obtain rfl := List.mem_singleton.mp hstep
    obtain rfl : "delete" = phase := Option.some.inj hphase
    rfl

/-- The host has nothing to change where the state is the one asked for. -/
theorem fallback_diff_wanted (spec : Value) : (fallback_diff spec (seen (wanted spec))).kind = .NoChange := by
  unfold wanted
  cases habsent : desired_absent spec <;> simp [fallback_diff, seen, habsent, Diff.no_change]

/-- A fresh diff after a successful step reports no change. -/
theorem no_change_of_applied {observed : ObservedState} {d : Diff}
    (hstate : plugin.state t (metadata r) = wanted r.spec) (hkept : plugin.state t₁ = plugin.state t)
    (hobserve : perform (observe plugin.toPluginRuntime metadata r) t₁ = (.ok observed, t₂))
    (hdiff : perform (diff plugin.toPluginRuntime metadata r observed) t₂ = (.ok d, t₃)) : d.is_change = false := by
  obtain ⟨-, rfl⟩ := observe_returns hobserve
  obtain ⟨-, hkind⟩ := diff_finds hdiff
  rw [hkept, hstate, fallback_diff_wanted] at hkind
  simp [Diff.is_change, hkind]

/-- Rollback to the checkpoint leaves the state that was there before the step. -/
theorem state_of_rollback {data : Value} (happlied : plugin.Applied r s t data)
    (h : perform (rollback plugin.toPluginRuntime metadata r data) w = (.ok (), u)) :
    plugin.state u (metadata r) = plugin.state s (metadata r) := by
  obtain ⟨id, observed, d, step, result, s₁, s₂, s₃, hobserve, hdiff, -, hcheckpoint, -, -⟩ := happlied
  have hbefore : plugin.state s₂ = plugin.state s := (diff_finds hdiff).1.trans (observe_returns hobserve).1
  obtain ⟨-, resp, hreports, rfl⟩ := pre_apply_takes hcheckpoint
  rw [rollback_leaves h, ← hbefore]
  cases hstate : plugin.state s₂ (metadata r) with
  | none =>
    have habsent := reports_none.mp (hstate ▸ hreports)
    simp [habsent]
  | some spec =>
    obtain rfl := reports_some.mp (hstate ▸ hreports)
    rfl

/-- After a successful step `verify` agrees with a fresh diff and rollback
restores the state, whichever methods the plugin has, exactly when it does not
verify a resource that is to be absent. -/
theorem methods_agree_iff {data : Value} {outcome : VerifyOutcome} {observed : ObservedState} {d : Diff}
    (happlied : plugin.Applied r s t data)
    (hverify : perform (verify plugin.toPluginRuntime metadata r) t = (.ok outcome, t₁))
    (hobserve : perform (observe plugin.toPluginRuntime metadata r) t₁ = (.ok observed, t₂))
    (hdiff : perform (diff plugin.toPluginRuntime metadata r observed) t₂ = (.ok d, t₃))
    (hrollback : perform (rollback plugin.toPluginRuntime metadata r data) w = (.ok (), u)) :
    ((outcome = .Match ↔ d.is_change = false) ∧ plugin.state u (metadata r) = plugin.state s (metadata r)) ↔
      ¬ (plugin.supports "verify" = true ∧ desired_absent r.spec = true) := by
  rw [and_iff_left (state_of_rollback happlied hrollback)]
  have hstate := state_of_applied happlied
  cases hsupports : plugin.supports "verify" with
  | false =>
    obtain ⟨hkept, hmatch⟩ := verify_of_diff hsupports hverify
    rw [iff_true_right (no_change_of_applied hstate hkept hobserve hdiff), hmatch, hstate]
    simp [fallback_diff_wanted]
  | true =>
    obtain ⟨hkept, hmatch⟩ := verify_of_plugin hsupports hverify
    rw [iff_true_right (no_change_of_applied hstate hkept hobserve hdiff), hmatch, hstate, wanted]
    cases desired_absent r.spec <;> simp

end Lifecycle

section Samples

private theorem of_value_report (state : Option Value) :
    ObserveResp.of_value (json [("present", .bool state.isSome), ("spec", state.getD .null)]) =
      some ⟨state.isSome, state.getD .null⟩ := by
  change (bool_field (json _) "present" false).map
    (fun present => ObserveResp.mk present (((json _).get "spec").getD .null)) = _
  rw [bool_field, Value.get_json, Value.get_json]
  rfl

private theorem report_reports (state : Option Value) : ObserveResp.Reports ⟨state.isSome, state.getD .null⟩ state := by
  cases state <;> rfl

private theorem params_fields (runtime : PluginRuntime (Option Value)) (spec : Value) (phase : String) :
    (apply_params runtime (fun _ => .null) r spec phase).get "phase" = some (.string phase) ∧
      (apply_params runtime (fun _ => .null) r spec phase).get "spec" = some spec := by
  rw [apply_params, Value.get_json, Value.get_json]
  exact ⟨rfl, rfl⟩

/-- A plugin of one resource, with a `verify` of its own or without. -/
def store (verifies : Bool) : Plugin (Option Value) fun _ => .null where
  kind := "store"
  call method params := of_fun fun state =>
    match method with
    | "observe" | "verify" =>
      (.ok (json [("present", .bool state.isSome), ("spec", state.getD .null)]), state)
    | "apply" =>
      (.ok (json [("status", .string "ok")]),
        if params.get "phase" = some (.string "delete") then none else params.get "spec")
    | _ => (.error (.Provider "store" "unknown method"), state)
  supports method := verifies && method == "verify"
  state host _ := host
  observe_ok h := by
    obtain ⟨hraw, rfl⟩ := Prod.mk.inj h
    obtain rfl := Except.ok.inj hraw
    exact ⟨rfl, _, of_value_report _, report_reports _⟩
  apply_ok h _ _ := by
    obtain ⟨-, rfl⟩ := Prod.mk.inj h
    obtain ⟨hphase, hspec⟩ := params_fields _ _ _
    rw [hphase, hspec]
    simp
  diff_ok h := by simp at h
  pre_apply_ok h := by simp at h
  verify_ok _ {_ _ _ _} h := by
    obtain ⟨hraw, rfl⟩ := Prod.mk.inj h
    obtain rfl := Except.ok.inj hraw
    exact ⟨rfl, _, of_value_report _, report_reports _⟩
  rollback_ok h := by simp at h

/-- A resource of the plugin with the spec. -/
def stored (spec : Value) : Resource := ⟨"iac.example/v1", "store", "main", "prod", [], spec⟩

variable {verifies : Bool} {before after : Option Value} {spec : Value}

private theorem store_observe_inner : perform (observe_inner (store verifies).toPluginRuntime (fun _ => .null) r) before =
    (.ok ⟨before.isSome, before.getD .null⟩, before) := by
  rw [observe_inner, perform_bind_ok (show perform ((store verifies).call "observe" _) before = (.ok _, before) from rfl),
    decode, of_value_report]
  rfl

private theorem store_observe :
    perform (observe (store verifies).toPluginRuntime (fun _ => .null) r) before = (.ok (seen before), before) := by
  rw [observe, perform_bind_ok store_observe_inner]
  cases before <;> rfl

private theorem store_diff {observed : ObservedState} :
    perform (diff (store verifies).toPluginRuntime (fun _ => .null) r observed) before =
      (.ok (fallback_diff r.spec observed), before) := by
  rw [diff, if_neg (by simp [store])]
  rfl

private theorem store_pre_apply : perform (pre_apply (store verifies).toPluginRuntime (fun _ => .null) r) before =
    (.ok (snapshot before.isSome (before.getD .null)), before) := by
  rw [pre_apply, if_neg (by simp [store]), perform_bind_ok store_observe_inner]
  rfl

private theorem of_value_applied : ApplyResp.of_value (json [("status", .string "ok")]) = some ⟨"ok", ""⟩ := by
  change (do return ApplyResp.mk (← text_field (json _) "status") (← text_field (json _) "message")) = _
  rw [text_field, text_field, Value.get_json, Value.get_json]
  rfl

private theorem store_call (verifies : Bool) (r : Resource) (before : Option Value) (spec : Value) (phase : String) :
    ∃ after, perform ((store verifies).call "apply"
        (apply_params (store verifies).toPluginRuntime (fun _ => .null) r spec phase)) before =
      (.ok (json [("status", .string "ok")]), after) := by
  refine ⟨if phase = "delete" then none else some spec, ?_⟩
  obtain ⟨hphase, hspec⟩ := params_fields (r := r) (store verifies).toPluginRuntime spec phase
  change (Except.ok _, if (apply_params _ _ _ _ _).get "phase" = _ then none else (apply_params _ _ _ _ _).get "spec") = _
  rw [hphase, hspec]
  simp

private theorem store_apply (verifies : Bool) (r : Resource) (before : Option Value) {step : Step} {phase : String}
    (h : phase_of_action step.action = some phase) :
    ∃ result after, perform (apply (store verifies).toPluginRuntime (fun _ => .null) r step) before = (.ok result, after) ∧
      result.status = .Succeeded := by
  obtain ⟨after, hcall⟩ := store_call verifies r before r.spec phase
  refine ⟨.ok (phase ++ " via " ++ (store verifies).kind), after, ?_, rfl⟩
  simp only [apply, h]
  rw [perform_bind_ok hcall, decode, of_value_applied]
  rfl

private theorem store_rollback (verifies : Bool) (r : Resource) (before : Option Value) (present : Bool) (spec : Value) :
    ∃ after,
    perform (rollback (store verifies).toPluginRuntime (fun _ => .null) r (snapshot present spec)) before =
      (.ok (), after) := by
  obtain ⟨hpresent, hspec⟩ := snapshot_fields present spec
  rw [rollback, if_neg (by simp [store])]
  simp only [hpresent, hspec, Option.getD_some]
  obtain ⟨after, hcall⟩ := store_call verifies r before spec (if present then "update" else "delete")
  refine ⟨after, ?_⟩
  rw [perform_bind_ok hcall, decode, of_value_applied]
  rfl

private theorem store_verify (verifies : Bool) (r : Resource) (before : Option Value) : ∃ outcome,
    perform (verify (store verifies).toPluginRuntime (fun _ => .null) r) before = (.ok outcome, before) := by
  cases verifies with
  | true =>
    rw [verify, if_pos (by simp [store]),
      perform_bind_ok (show perform ((store true).call "verify" _) before = (.ok _, before) from rfl), decode, of_value_report]
    exact ⟨_, rfl⟩
  | false =>
    rw [verify, if_neg (by simp [store]), perform_bind_ok store_observe, perform_bind_ok store_diff]
    exact ⟨_, rfl⟩

private theorem planned (runtime : PluginRuntime Host) {d : Diff} (h : d.is_change = true) :
    ∃ step phase, plan runtime 0 d = [step] ∧ phase_of_action step.action = some phase := by
  unfold plan
  cases hkind : d.kind with
  | NoChange => simp [Diff.is_change, hkind] at h
  | Create => exact ⟨_, "create", rfl, rfl⟩
  | Update => exact ⟨_, "update", rfl, rfl⟩
  | Delete => exact ⟨_, "delete", rfl, rfl⟩

private theorem store_applied (verifies : Bool) (hchange : (fallback_diff spec (seen before)).is_change = true) :
    ∃ t, (store verifies).Applied (stored spec) before t (snapshot before.isSome (before.getD .null)) := by
  obtain ⟨step, phase, hplan, hphase⟩ := planned (store verifies).toPluginRuntime hchange
  obtain ⟨result, t, happly, hresult⟩ := store_apply verifies (stored spec) before hphase
  exact ⟨t, 0, seen before, fallback_diff spec (seen before), step, result, before, before, before, store_observe, store_diff,
    hplan ▸ List.mem_singleton_self step, store_pre_apply, happly, hresult⟩

/-- Every wanted change goes through, up to its rollback. -/
private theorem store_cycle (verifies : Bool) (hchange : (fallback_diff spec (seen before)).is_change = true) :
    ∃ t outcome d u data, (store verifies).Applied (stored spec) before t data ∧
      perform (verify (store verifies).toPluginRuntime (fun _ => .null) (stored spec)) t = (.ok outcome, t) ∧
      perform (observe (store verifies).toPluginRuntime (fun _ => .null) (stored spec)) t = (.ok (seen t), t) ∧
      perform (diff (store verifies).toPluginRuntime (fun _ => .null) (stored spec) (seen t)) t = (.ok d, t) ∧
      perform (rollback (store verifies).toPluginRuntime (fun _ => .null) (stored spec) data) t = (.ok (), u) := by
  obtain ⟨t, happlied⟩ := store_applied verifies hchange
  obtain ⟨outcome, hverify⟩ := store_verify verifies (stored spec) t
  obtain ⟨u, hrollback⟩ := store_rollback verifies (stored spec) t before.isSome (before.getD .null)
  exact ⟨t, outcome, _, u, _, happlied, hverify, store_observe, store_diff, hrollback⟩

def port_80 : Value := json [("port", .number (.PosInt 80))]

def absent : Value := json [("state", .string "absent")]

/-- A resource that is created verifies, and rollback removes it. -/
theorem created_resource_verifies : ∃ outcome d u data t, (store false).Applied (stored port_80) none t data ∧
    perform (verify (store false).toPluginRuntime (fun _ => .null) (stored port_80)) t = (.ok outcome, t) ∧
    perform (diff (store false).toPluginRuntime (fun _ => .null) (stored port_80) (seen t)) t = (.ok d, t) ∧
    perform (rollback (store false).toPluginRuntime (fun _ => .null) (stored port_80) data) t = (.ok (), u) ∧
    (outcome = .Match ↔ d.is_change = false) ∧ u = none := by
  have habsent : desired_absent port_80 = false := by
    rw [desired_absent, port_80, Value.get_json]
    rfl
  have hchange : (fallback_diff port_80 (seen none)).is_change = true := by simp [fallback_diff, seen, habsent, Diff.is_change]
  obtain ⟨t, outcome, d, u, data, happlied, hverify, hobserve, hdiff, hrollback⟩ := store_cycle false hchange
  exact ⟨outcome, d, u, data, t, happlied, hverify, hdiff, hrollback,
    (methods_agree_iff happlied hverify hobserve hdiff hrollback).mpr (by simp [store])⟩

/-- A plugin that verifies reports a mismatch for a resource that was removed as asked. -/
theorem removed_resource_mismatches :
    ¬ ∀ (plugin : Plugin (Option Value) fun _ => .null) (r : Resource) (s t t₁ t₂ t₃ w u : Option Value) (data : Value)
      (outcome : VerifyOutcome) (observed : ObservedState) (d : Diff), plugin.Applied r s t data →
      perform (verify plugin.toPluginRuntime (fun _ => .null) r) t = (.ok outcome, t₁) →
      perform (observe plugin.toPluginRuntime (fun _ => .null) r) t₁ = (.ok observed, t₂) →
      perform (diff plugin.toPluginRuntime (fun _ => .null) r observed) t₂ = (.ok d, t₃) →
      perform (rollback plugin.toPluginRuntime (fun _ => .null) r data) w = (.ok (), u) →
      (outcome = .Match ↔ d.is_change = false) ∧ plugin.state u .null = plugin.state s .null := by
  intro hall
  have habsent : desired_absent absent = true := by
    rw [desired_absent, absent, Value.get_json]
    rfl
  have hchange : (fallback_diff absent (seen (some port_80))).is_change = true := by
    simp [fallback_diff, seen, habsent, Diff.is_change]
  obtain ⟨t, outcome, d, u, data, happlied, hverify, hobserve, hdiff, hrollback⟩ := store_cycle true hchange
  obtain ⟨hagree, -⟩ := hall _ _ _ _ _ _ _ _ _ _ _ _ _ happlied hverify hobserve hdiff hrollback
  have hstate := state_of_applied happlied
  obtain ⟨-, hmatch⟩ := verify_of_plugin (by simp [store]) hverify
  have hpresent := hmatch.mp (hagree.mpr (no_change_of_applied hstate rfl hobserve hdiff))
  have hwanted : wanted absent = none := by simp [wanted, habsent]
  exact absurd (hpresent.symm.trans (hstate.trans hwanted)) (by simp)

end Samples

end iac_providers.plugin
