import Iac.Controlplane.Api.Approvers
import Iac.Controlplane.Api.Extraction
import Iac.Controlplane.Api.Serving

open iac_controlplane.identity iac_controlplane.policy iac_controlplane.store serde_json sql

namespace iac_controlplane.api

/-- The submission matches a policy that requires an approval. -/
def Submission.needs_approval (crates : Crates) (policies : List Policy) (sub : Submission) : Prop :=
  ∃ routing, sub.routing crates = .ok routing ∧
    (evaluate policies (facts_of sub.environment routing)).any Policy.requires_approval = true

/-- The operation of the submission needs no approval, or has one. -/
def Cleared (crates : Crates) (policies : List Policy) (db : Store) (sub : Submission) : Prop :=
  ¬ sub.needs_approval crates policies ∨ ∃ op ∈ db.rows .operations, op.id = sub.op_id ∧ op.approved_by.isSome = true

/-- `raw` is a resource of the submission, and `r` what is stored of it. -/
structure Submitted (crates : Crates) (sub : Submission) (raw : Value) (r : ResourceForRouting) : Prop where
  mem : raw ∈ sub.resources
  routed : extract_routing crates sub.environment raw = .ok r

/-- A stored resource is the submitted `r` or what reverts made of it, each of
which reads the text and routes it once more. -/
inductive Copied (crates : Crates) (r : ResourceForRouting) : String → String → Prop
  | stored : Copied crates r r.resource_id r.resource_json
  | reverted {resource_id spec_json environment : String} {raw : Value} {routed : ResourceForRouting}
      (h : Copied crates r resource_id spec_json) (hread : crates.from_str spec_json = .ok raw)
      (hrouted : extract_routing crates environment raw = .ok routed) :
      Copied crates r routed.resource_id routed.resource_json

/-- Reading the text of the value gives the value, with its routing hints and without. -/
def ReadsBack (crates : Crates) (value : Value) : Prop :=
  crates.from_str (crates.to_string value) = .ok value ∧
    crates.from_str (crates.to_string (strip_routing_hints value)) = .ok (strip_routing_hints value)

/-- `value` is the submitted resource as agents get it: carried from what was
stored of it, and equal to it whenever its text reads back as it was written. -/
structure Delivers (crates : Crates) (environment : String) (raw : Value) (r : ResourceForRouting) (value : Value) :
    Prop where
  carried : ∃ resource_id spec_json, Copied crates r resource_id spec_json ∧ Carries crates spec_json value
  equal : ReadsBack crates (stamp_environment environment raw) →
    value = strip_routing_hints (stamp_environment environment raw)

/-- Every resource of every assignment was submitted in an operation that needed no approval or got it. -/
def ApprovalGated (crates : Crates) (policies : List Policy) (db : Store) (subs : List Submission) : Prop :=
  ∀ a ∈ db.rows .assignments, ∃ values, a.payload_json = payload_json crates values ∧
    ∀ value ∈ values, ∃ sub ∈ subs, Cleared crates policies db sub ∧
      ∃ raw r, Submitted crates sub raw r ∧ Delivers crates sub.environment raw r value

/-- When JSON reads back, a copy of a resource is the resource. -/
theorem Copied.eq {crates : Crates} {environment : String} {raw : Value} {r : ResourceForRouting}
    (hrouted : extract_routing crates environment raw = .ok r)
    (hreads : ReadsBack crates (stamp_environment environment raw)) {resource_id spec_json : String}
    (h : Copied crates r resource_id spec_json) : resource_id = r.resource_id ∧ spec_json = r.resource_json := by
  induction h with
  | stored => exact ⟨rfl, rfl⟩
  | reverted _ hread hagain ih =>
    obtain ⟨rfl, rfl⟩ := ih
    obtain ⟨kind, name, -, -, -, -, -, hjson, -⟩ := extract_routing_spec hrouted
    rw [hjson, hreads.1] at hread
    obtain rfl := Except.ok.inj hread
    obtain ⟨hid, -, hsame⟩ := extract_routing_stamped hrouted hagain
    exact ⟨hid, hsame⟩

theorem delivers_of_carries {crates : Crates} {environment : String} {raw : Value} {r : ResourceForRouting}
    (hrouted : extract_routing crates environment raw = .ok r) {resource_id spec_json : String} {value : Value}
    (hcopied : Copied crates r resource_id spec_json) (hcarries : Carries crates spec_json value) :
    Delivers crates environment raw r value := by
  refine ⟨⟨resource_id, spec_json, hcopied, hcarries⟩, fun hreads => ?_⟩
  obtain ⟨-, rfl⟩ := hcopied.eq hrouted hreads
  obtain ⟨kind, name, -, -, -, -, -, hjson, -⟩ := extract_routing_spec hrouted
  obtain ⟨stripped, hstripped, hvalue⟩ := hcarries
  rw [dispatched_value, hjson, hreads.1] at hstripped
  obtain rfl := Except.ok.inj hstripped
  obtain rfl | hread := hvalue
  · rfl
  · exact (Except.ok.inj (hreads.2.symm.trans hread)).symm

/-- Some state with the resource and the spec of `d` belongs to an operation
that was not submitted, or whose submission awaits no decision and was not rejected. -/
def Settled (db : Store) (subs : List Submission) (d : DesiredStateRow) : Prop :=
  ∃ d' ∈ db.rows .desired_states, d'.resource_id = d.resource_id ∧ d'.spec_json = d.spec_json ∧
    ∀ sub ∈ subs, sub.op_id = d'.operation_id →
      ∀ op ∈ db.rows .operations, op.id = sub.op_id → undecided op.status = false

/-- A revert that is carried out finds a settled state of its resource. -/
def reverts_settled (db : Store) (subs : List Submission) : Request → Prop
  | .revert_drift identity (some event) _ => identity.has_role .Operator = true → event.resolved_at = none →
    ∀ d, latest_state db.rows event.resource_id = some d → Settled db subs d
  | _ => True

/-- Where a stored state comes from: a submission for its operation, or a cleared one. -/
inductive Traced (crates : Crates) (policies : List Policy) (db : Store) (subs : List Submission) (d : DesiredStateRow) :
    Prop where
  | submitted (sub : Submission) (hsub : sub ∈ subs) (hop : sub.op_id = d.operation_id) (raw : Value)
      (r : ResourceForRouting) (hsubmitted : Submitted crates sub raw r) (hid : r.resource_id = d.resource_id)
      (hjson : r.resource_json = d.spec_json)
  | copied (sub : Submission) (hsub : sub ∈ subs) (hcleared : Cleared crates policies db sub) (raw : Value)
      (r : ResourceForRouting) (hsubmitted : Submitted crates sub raw r)
      (hcopied : Copied crates r d.resource_id d.spec_json)

/-- The invariant of a run whose reverts are settled. -/
structure Provenance (crates : Crates) (policies : List Policy) (db : Store) (subs : List Submission) : Prop where
  consistent : Consistent db
  backed : Backed crates db
  decided : ∀ sub ∈ subs, ∃ op ∈ db.rows .operations, op.id = sub.op_id ∧
    (sub.needs_approval crates policies → undecided op.status = true ∨ op.approved_by.isSome = true)
  traced : ∀ d ∈ db.rows .desired_states, Traced crates policies db subs d

section Provenance

variable {crates : Crates} {policies : List Policy} {db after : Store} {subs : List Submission}

/-- A submission whose operation is past its decision is cleared. -/
theorem Provenance.cleared (h : Provenance crates policies db subs) {sub : Submission} (hsub : sub ∈ subs)
    (hdecided : ∀ op ∈ db.rows .operations, op.id = sub.op_id → undecided op.status = false) :
    Cleared crates policies db sub := by
  obtain ⟨op, hop, hid, happroval⟩ := h.decided sub hsub
  by_cases hneeds : sub.needs_approval crates policies
  · obtain hundecided | happroved := happroval hneeds
    · simp [hdecided op hop hid] at hundecided
    · exact .inr ⟨op, hop, hid, happroved⟩
  · exact .inl hneeds

/-- A state of an operation past its decision is a copy of a cleared resource. -/
theorem Provenance.copied (h : Provenance crates policies db subs) {d : DesiredStateRow}
    (hd : d ∈ db.rows .desired_states)
    (hdecided : ∀ sub ∈ subs, sub.op_id = d.operation_id →
      ∀ op ∈ db.rows .operations, op.id = sub.op_id → undecided op.status = false) :
    ∃ sub ∈ subs, Cleared crates policies db sub ∧
      ∃ raw r, Submitted crates sub raw r ∧ Copied crates r d.resource_id d.spec_json := by
  cases h.traced d hd with
  | submitted sub hsub hop raw r hsubmitted hid hjson =>
    exact ⟨sub, hsub, h.cleared hsub (hdecided sub hsub hop), raw, r, hsubmitted, hid ▸ hjson ▸ .stored⟩
  | copied sub hsub hcleared raw r hsubmitted hcopied => exact ⟨sub, hsub, hcleared, raw, r, hsubmitted, hcopied⟩

theorem Provenance.gated (h : Provenance crates policies db subs) : ApprovalGated crates policies db subs := by
  intro a ha
  obtain ⟨values, hpayload, hvalues⟩ := h.backed a ha
  refine ⟨values, hpayload, fun value hvalue => ?_⟩
  obtain ⟨d, hd, hop, hcarries⟩ := hvalues value hvalue
  obtain ⟨sub, hsub, hcleared, raw, r, hsubmitted, hcopied⟩ := h.copied hd fun sub _ hid op hmem hopid => by
    by_contra hundecided
    exact h.consistent.undecided op hmem (by simpa using hundecided) a ha (by rw [hopid, hid, hop])
  exact ⟨sub, hsub, hcleared, raw, r, hsubmitted, delivers_of_carries hsubmitted.routed hcopied hcarries⟩

/-- Clearances and origins outlast a call that brings in more submissions. -/
private theorem cleared_mono (happrovals : ∀ op ∈ db.rows .operations, ∃ op' ∈ after.rows .operations, KeepsApproval op op')
    {sub : Submission} (h : Cleared crates policies db sub) : Cleared crates policies after sub := by
  obtain hfree | ⟨op, hop, hid, happroved⟩ := h
  · exact .inl hfree
  · obtain ⟨op', hop', hkeeps⟩ := happrovals op hop
    exact .inr ⟨op', hop', hkeeps.id.trans hid, hkeeps.approved happroved⟩

private theorem traced_mono (happrovals : ∀ op ∈ db.rows .operations, ∃ op' ∈ after.rows .operations, KeepsApproval op op')
    {more : List Submission} (hsubs : subs ⊆ more) {d : DesiredStateRow} (h : Traced crates policies db subs d) :
    Traced crates policies after more d := by
  cases h with
  | submitted sub hsub hop raw r hsubmitted hid hjson => exact .submitted sub (hsubs hsub) hop raw r hsubmitted hid hjson
  | copied sub hsub hcleared raw r hsubmitted hcopied =>
    exact .copied sub (hsubs hsub) (cleared_mono happrovals hcleared) raw r hsubmitted hcopied

private theorem decided_mono (happrovals : ∀ op ∈ db.rows .operations, ∃ op' ∈ after.rows .operations, KeepsApproval op op')
    {sub : Submission} (h : ∃ op ∈ db.rows .operations, op.id = sub.op_id ∧
      (sub.needs_approval crates policies → undecided op.status = true ∨ op.approved_by.isSome = true)) :
    ∃ op ∈ after.rows .operations, op.id = sub.op_id ∧
      (sub.needs_approval crates policies → undecided op.status = true ∨ op.approved_by.isSome = true) := by
  obtain ⟨op, hop, hid, happroval⟩ := h
  obtain ⟨op', hop', hkeeps⟩ := happrovals op hop
  refine ⟨op', hop', hkeeps.id.trans hid, fun hneeds => ?_⟩
  obtain hundecided | happroved := happroval hneeds
  · exact hkeeps.undecided hundecided
  · exact .inr (hkeeps.approved happroved)

/-- A new operation of copies of cleared resources keeps the invariant. -/
theorem Provenance.creates (h : Provenance crates policies db subs) {req : CreateRequest}
    (hcreates : Creates crates req db after)
    (hcopies : ∀ r ∈ req.resources, ∃ sub ∈ subs, Cleared crates policies db sub ∧
      ∃ raw r', Submitted crates sub raw r' ∧ Copied crates r' r.resource_id r.resource_json) :
    Provenance crates policies after subs := by
  have happrovals := fun op (hop : op ∈ db.rows .operations) => hcreates.acts.approvals h.consistent hop
  obtain ⟨stored, hstored, hrows⟩ := hcreates.desired_states
  refine ⟨hcreates.acts.consistent h.consistent, hcreates.acts.backed h.consistent h.backed,
    fun sub hsub => decided_mono happrovals (h.decided sub hsub), ?_⟩
  rw [hstored]
  intro d hd
  obtain hold | hnew := List.mem_append.mp hd
  · exact traced_mono happrovals (List.Subset.refl _) (h.traced d hold)
  · obtain ⟨r, hr, id, rfl⟩ := hrows d hnew
    obtain ⟨sub, hsub, hcleared, raw, r', hsubmitted, hcopied⟩ := hcopies r hr
    exact .copied sub hsub (cleared_mono happrovals hcleared) raw r' hsubmitted hcopied

theorem Provenance.submit (h : Provenance crates policies db subs) {identity : Identity} {sub : Submission}
    {routing : List ResourceForRouting} (hrouting : sub.routing crates = .ok routing)
    (hcreates : Creates crates (create_request policies identity sub routing) db after) :
    Provenance crates policies after (subs ++ [sub]) := by
  have happrovals := fun op (hop : op ∈ db.rows .operations) => hcreates.acts.approvals h.consistent hop
  obtain ⟨stored, hstored, hrows⟩ := hcreates.desired_states
  refine ⟨hcreates.acts.consistent h.consistent, hcreates.acts.backed h.consistent h.backed, ?_, ?_⟩
  · intro other hother
    obtain hold | hnew := List.mem_append.mp hother
    · exact decided_mono happrovals (h.decided other hold)
    · obtain rfl := List.mem_singleton.mp hnew
      obtain ⟨op, hop, hid, hundecided⟩ := hcreates.operation
      refine ⟨op, hop, hid, fun hneeds => .inl (hundecided ?_)⟩
      obtain ⟨routing', hrouting', hany⟩ := hneeds
      obtain rfl := Except.ok.inj (hrouting.symm.trans hrouting')
      exact hany
  · rw [hstored]
    intro d hd
    obtain hold | hnew := List.mem_append.mp hd
    · exact traced_mono happrovals (List.subset_append_left _ _) (h.traced d hold)
    · obtain ⟨r, hr, id, rfl⟩ := hrows d hnew
      rw [Submission.routing] at hrouting
      cases hextract : sub.resources.mapM (extract_routing crates sub.environment) with
      | error e => simp [hextract, bind, Except.bind] at hrouting
      | ok extracted =>
        simp only [hextract, bind, Except.bind] at hrouting
        obtain ⟨raw, hraw, hrouted⟩ :=
          fallible.mem_of_mapM_ok hextract (depsort.mem_of_topo_sort hrouting r hr)
        exact .submitted sub (by simp) rfl raw r ⟨hraw, hrouted⟩ rfl rfl

/-- Every request whose reverts are settled keeps the invariant. -/
theorem Provenance.request (h : Provenance crates policies db subs) (request : Request)
    (hsettled : reverts_settled db subs request) :
    Provenance crates policies (request.after crates policies db) (subs ++ request.accepted crates policies db) := by
  cases request_effect crates policies request db with
  | refused hrows haccepted =>
    rw [haccepted, List.append_nil]
    have happrovals (op : OperationRow) (hop : op ∈ db.rows .operations) :
        ∃ op' ∈ (request.after crates policies db).rows .operations, KeepsApproval op op' :=
      ⟨op, by rw [hrows]; exact hop, .refl op⟩
    refine ⟨consistent_of_rows h.consistent (congrFun hrows _) (congrFun hrows _),
      backed_of_rows h.backed (congrFun hrows _) (congrFun hrows _),
      fun sub hsub => decided_mono happrovals (h.decided sub hsub), ?_⟩
    rw [hrows]
    exact fun d hd => traced_mono happrovals (List.Subset.refl _) (h.traced d hd)
  | called call hcall hacts haccepted =>
    rw [haccepted, List.append_nil]
    have happrovals := fun op (hop : op ∈ db.rows .operations) => hacts.approvals h.consistent hop
    refine ⟨hacts.consistent h.consistent, hacts.backed h.consistent h.backed,
      fun sub hsub => decided_mono happrovals (h.decided sub hsub), ?_⟩
    rw [hacts.desired_states_kept h.consistent hcall]
    exact fun d hd => traced_mono happrovals (List.Subset.refl _) (h.traced d hd)
  | submitted identity sub routing hrouting hcreates haccepted =>
    rw [haccepted]
    exact h.submit hrouting hcreates
  | rolled_back req hcreates hreturnable haccepted =>
    rw [haccepted, List.append_nil]
    refine h.creates hcreates fun r hr => ?_
    obtain ⟨ds, hds, hrow, o, ho, hid, happlied⟩ := hreturnable r hr
    obtain ⟨hresource, -, -, hjson⟩ := routing_of_row_spec hrow
    rw [hresource, hjson]
    refine h.copied hds fun sub _ hop op hmem hopid => ?_
    obtain rfl := eq_of_key_eq h.consistent.operation_ids hmem ho (hopid.trans (hop.trans hid.symm))
    cases hstatus : op.status <;> simp_all [applied, undecided]
  | reverted identity event req d raw routed hrequest hoperator hopen hlatest hread hrouted hcreates haccepted =>
    rw [haccepted, List.append_nil]
    subst hrequest
    refine h.creates hcreates fun r hr => ?_
    obtain rfl := List.mem_singleton.mp hr
    obtain ⟨d', hd', hresource, hjson, hdecided⟩ := hsettled hoperator hopen d hlatest
    obtain ⟨sub, hsub, hcleared, raw', r', hsubmitted, hcopied⟩ := h.copied hd' hdecided
    exact ⟨sub, hsub, hcleared, raw', r', hsubmitted, (hresource ▸ hjson ▸ hcopied).reverted hread hrouted⟩

end Provenance

theorem provenance_migrated (crates : Crates) (policies : List Policy) : Provenance crates policies migrated [] := by
  refine ⟨consistent_migrated, ?_, by simp, ?_⟩ <;> simp [Backed, migrated]

/-- In every run whose reverts find a settled state of their resource, no spec
reaches an agent past the approval that its submission needed. -/
theorem approval_gate_holds {crates : Crates} {policies : List Policy} {db : Store} {subs : List Submission}
    (h : Serving crates policies reverts_settled db subs) : ApprovalGated crates policies db subs := by
  refine Provenance.gated ?_
  induction h with
  | start => exact provenance_migrated crates policies
  | request _ request hsettled ih => exact ih.request request hsettled

section Samples

def held_environment : List Policy :=
  [{ name := "prod", policy_match := { environment := some "prod" }, requires_approval := true }]

def package_drift : DriftSummary := ⟨"Package/prod/nginx", none⟩

def package_revert : RevertRequest where
  drift_id := 1
  source_commit := none
  now := midnight
  audit_now := midnight
  op_id := "revert"
  ulid n := "revert-" ++ toString n

/-- One agent registers, a package is submitted and its drift reverted. -/
def reverted_package (policies : List Policy) : Store × List Submission :=
  serve_all (package_crates policies) policies [.agent (.register_agent (registration "web")) rfl,
    .submit (user "carol" .Operator) package_submission,
    .revert_drift (user "carol" .Operator) (some package_drift) package_revert]

/-- A revert hands out the spec of a submission that nobody approved. -/
theorem unapproved_spec_is_dispatched :
    ∃ db subs, Serving (package_crates held_environment) held_environment (fun _ _ _ => True) db subs ∧
      ¬ ApprovalGated (package_crates held_environment) held_environment db subs := by
  refine ⟨_, _, ((Serving.start.request (.agent (.register_agent (registration "web")) rfl) trivial).request
    (.submit (user "carol" .Operator) package_submission) trivial).request
    (.revert_drift (user "carol" .Operator) (some package_drift) package_revert) trivial, fun hgated => ?_⟩
  change ApprovalGated _ _ (reverted_package held_environment).1 (reverted_package held_environment).2 at hgated
  have hdispatched : ((reverted_package held_environment).1.rows .assignments).any (fun a =>
      a.payload_json != payload_json (package_crates held_environment) []) = true := by decide
  have hunapproved : ((reverted_package held_environment).1.rows .operations).all (fun op =>
      op.approved_by.isNone) = true := by decide
  have hneeds : (package_submission.routing (package_crates held_environment)).toOption.any (fun routing =>
      (evaluate held_environment (facts_of package_submission.environment routing)).any Policy.requires_approval) =
        true := by decide
  obtain ⟨a, ha, hpayload⟩ := List.any_eq_true.mp hdispatched
  obtain ⟨values, heq, hvalues⟩ := hgated a ha
  cases values with
  | nil => simp [heq] at hpayload
  | cons value values =>
    obtain ⟨sub, hsub, hcleared, -⟩ := hvalues value List.mem_cons_self
    obtain rfl : sub = package_submission := by
      simp only [reverted_package, serve_all, List.foldl_cons, List.foldl_nil, List.mem_append] at hsub
      obtain ((hnone | hagent) | hsubmit) | hrevert := hsub
      · cases hnone
      · cases hagent
      · exact eq_of_mem_accepted hsubmit
      · cases hrevert
    obtain hfree | ⟨op, hop, -, happroved⟩ := hcleared
    · cases hresult : package_submission.routing (package_crates held_environment) with
      | error e => simp [hresult, Except.toOption] at hneeds
      | ok routing => exact hfree ⟨routing, hresult, by simpa [hresult, Except.toOption] using hneeds⟩
    · have hnone := List.all_eq_true.mp hunapproved op hop
      simp [Option.isNone_iff_eq_none.mp hnone] at happroved

theorem reverted_package_is_gated :
    ApprovalGated (package_crates []) [] (reverted_package []).1 (reverted_package []).2 := by
  refine approval_gate_holds (((Serving.start.request (.agent (.register_agent (registration "web")) rfl) trivial).request
    (.submit (user "carol" .Operator) package_submission) trivial).request
    (.revert_drift (user "carol" .Operator) (some package_drift) package_revert) ?_)
  intro _ _ d hlatest
  refine ⟨d, List.mem_of_mem_filter (newest_spec hlatest).1, rfl, rfl, fun _ _ _ op hop _ => ?_⟩
  have hdecided : ((serve_all (package_crates []) [] [.agent (.register_agent (registration "web")) rfl,
      .submit (user "carol" .Operator) package_submission]).1.rows .operations).all (fun op =>
        !undecided op.status) = true := by decide
  simpa using List.all_eq_true.mp hdecided op hop

end Samples

end iac_controlplane.api
