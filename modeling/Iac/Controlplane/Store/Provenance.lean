import Iac.Collections.Fallible
import Iac.Controlplane.Store.Consistent

open serde_json sql fallible

namespace iac_controlplane.store

/-- The value is what an agent gets of a stored spec: without its routing
hints, and read back from its text once more when the operation was approved first. -/
def Carries (crates : Crates) (spec_json : String) (value : Value) : Prop :=
  ∃ stripped, dispatched_value crates spec_json = .ok stripped ∧
    (value = stripped ∨ crates.from_str (crates.to_string stripped) = .ok value)

/-- Every resource of the assignment is a stored state of its operation. -/
def BackedBy (crates : Crates) (states : List DesiredStateRow) (a : AssignmentRow) : Prop :=
  ∃ values, a.payload_json = payload_json crates values ∧
    ∀ value ∈ values, ∃ d ∈ states, d.operation_id = a.operation_id ∧ Carries crates d.spec_json value

def Backed (crates : Crates) (db : Store) : Prop :=
  ∀ a ∈ db.rows .assignments, BackedBy crates (db.rows .desired_states) a

theorem BackedBy.mono {crates : Crates} {states more : List DesiredStateRow} {a b : AssignmentRow}
    (h : BackedBy crates states a) (hsub : states ⊆ more) (hsame : SameAssignment a b) : BackedBy crates more b := by
  obtain ⟨values, hpayload, hvalues⟩ := h
  refine ⟨values, hsame.payload_json.trans hpayload, fun value hvalue => ?_⟩
  obtain ⟨d, hd, hop, hcarries⟩ := hvalues value hvalue
  exact ⟨d, hsub hd, hop.trans hsame.operation_id.symm, hcarries⟩

/-- What the loops push into a bucket comes from one of the routed resources. -/
private theorem mem_bucket {environment : String} {agents : List AgentEntry}
    {layered : List (ResourceForRouting × Int)} {bucket : (String ×ₗ Int) × List ResourceForRouting}
    (hbucket : bucket ∈ push_all [] (routes environment agents layered)) {r : ResourceForRouting} (hr : r ∈ bucket.2) :
    ∃ layer, (r, layer) ∈ layered ∧ ∃ entry ∈ routes environment agents layered, entry.2 = r := by
  obtain ⟨hitems, -⟩ := (mem_push_all _ (ofLex bucket.1).1 (ofLex bucket.1).2 bucket.2).mp hbucket
  rw [hitems] at hr
  obtain ⟨entry, hentry, rfl⟩ := List.mem_map.mp hr
  have hroute := List.mem_of_mem_filter hentry
  obtain ⟨hlayered, -⟩ := mem_routes.mp (show ((entry.1.1, entry.1.2), entry.2) ∈ _ from hroute)
  exact ⟨entry.1.2, hlayered, entry, hroute, rfl⟩

/-- Assignments made of buckets are backed when the items of the buckets are. -/
private theorem backed_of_buckets {crates : Crates} {op_id now : String} {states : List DesiredStateRow}
    {values : List ResourceForRouting → Except ApiError (List Value)} {batch : String → Int → Option Int}
    {buckets : Buckets ResourceForRouting} {created : List AssignmentRow}
    (h : List.Forall₂ (AssignmentOf crates op_id now values batch) buckets created)
    (hvalues : ∀ bucket ∈ buckets, ∀ resources, values bucket.2 = .ok resources → ∀ value ∈ resources,
      ∃ d ∈ states, d.operation_id = op_id ∧ Carries crates d.spec_json value) :
    ∀ a ∈ created, BackedBy crates states a := by
  induction h with
  | nil => simp
  | @cons bucket row buckets created hrow _ ih =>
    obtain ⟨hfirst, hrest⟩ := List.forall_mem_cons.mp hvalues
    refine List.forall_mem_cons.mpr ⟨?_, ih hrest⟩
    obtain ⟨id, resources, hresources, rfl⟩ := hrow
    exact ⟨resources, rfl, hfirst resources hresources⟩

theorem CreateEffect.backed {crates : Crates} {req : CreateRequest} {db after : Store} {out : CreateOperationOutcome}
    {layers : List Int} {created : List AssignmentRow} (h : CreateEffect crates req db out after layers created) :
    ∀ a ∈ created, BackedBy crates (after.rows .desired_states) a := by
  cases happroval : req.requires_approval with
  | true => simp [h.deferred happroval]
  | false =>
    obtain ⟨stored, hstored, hrows⟩ := h.desired_states
    refine backed_of_buckets (h.dispatched happroval) fun bucket hbucket resources hresources value hvalue => ?_
    obtain ⟨r, hr, hcarried⟩ := mem_of_mapM_ok hresources hvalue
    obtain ⟨layer, hlayered, -⟩ := mem_bucket hbucket hr
    obtain ⟨d, hd, id, hrow⟩ := exists_right hrows hlayered
    refine ⟨d, hstored ▸ List.mem_append_right _ hd, by rw [hrow]; rfl, value, ?_, .inl rfl⟩
    rw [hrow]
    exact hcarried

/-- What `approve_operation` dispatches was stored for the operation. -/
theorem mem_approval_routing {crates : Crates} {req : ApproveRequest} {rows : sql.Rows Row}
    {routing_list : List ResourceForRouting} (h : approval_routing crates req rows = .ok routing_list)
    {r : ResourceForRouting} (hr : r ∈ routing_list) :
    ∃ d ∈ rows .desired_states, d.operation_id = req.op_id ∧ routing_of_row crates d = .ok r := by
  rw [approval_routing] at h
  cases hread : (req.scan.order ((rows .desired_states).filter fun d => d.operation_id == req.op_id)).mapM
      (routing_of_row crates) with
  | error e => simp [hread, bind, Except.bind] at h
  | ok routing =>
    simp only [hread, bind, Except.bind] at h
    obtain ⟨d, hd, hrow⟩ := mem_of_mapM_ok hread (depsort.mem_of_topo_sort h r hr)
    obtain ⟨hmem, hop⟩ := List.mem_filter.mp ((req.scan.perm _).mem_iff.mp hd)
    exact ⟨d, hmem, by simpa using hop, hrow⟩

theorem routing_of_row_spec {crates : Crates} {d : DesiredStateRow} {r : ResourceForRouting}
    (h : routing_of_row crates d = .ok r) :
    r.resource_id = d.resource_id ∧ r.kind = d.kind ∧ r.environment = d.environment ∧ r.resource_json = d.spec_json := by
  rw [routing_of_row] at h
  cases hvalue : crates.from_str d.spec_json with
  | error e => simp [hvalue, json_error, bind, Except.bind] at h
  | ok value =>
    simp only [hvalue, json_error, bind, Except.bind] at h
    obtain rfl := Except.ok.inj h
    exact ⟨rfl, rfl, rfl, rfl⟩

theorem ApproveEffect.backed {crates : Crates} {req : ApproveRequest} {rows after : sql.Rows Row} {count : Nat}
    {op : OperationRow} {routing_list : List ResourceForRouting} {layers : List Int} {created : List AssignmentRow}
    (h : ApproveEffect crates req rows count after op routing_list layers created) :
    ∀ a ∈ created, BackedBy crates (rows .desired_states) a := by
  refine backed_of_buckets h.dispatched fun bucket hbucket resources hresources value hvalue => ?_
  obtain ⟨r, hr, hcarried⟩ := mem_of_mapM_ok hresources hvalue
  obtain ⟨layer, hlayered, entry, hentry, rfl⟩ := mem_bucket hbucket hr
  obtain ⟨stripped, hstripped⟩ := h.readable entry hentry
  obtain ⟨d, hd, hop, hrow⟩ := mem_approval_routing h.sorted (List.of_mem_zip hlayered).1
  have hspec := (routing_of_row_spec hrow).2.2.2
  refine ⟨d, hd, hop, stripped, hspec ▸ hstripped, .inr ?_⟩
  simp only [stripped_text, hstripped] at hcarried
  cases hread : crates.from_str (crates.to_string stripped) with
  | error e => simp [hread, json_error] at hcarried
  | ok read =>
    rw [hread] at hcarried
    exact congrArg Except.ok (Except.ok.inj hcarried)

/-- The tables that a call writes to. -/
def Call.tables : Call → List Table
  | .register_agent _ => [.agents, .audit_events, .audit_chain_tip]
  | .upsert_ssh_target .. => [.agents]
  | .create_operation _ => [.operations, .desired_states, .assignments, .audit_events, .audit_chain_tip]
  | .approve_operation _ => [.operations, .assignments, .audit_events, .audit_chain_tip]
  | .reject_operation _ => [.operations, .audit_events, .audit_chain_tip]
  | .fetch_pending_assignments .. | .claim_ssh_pending .. => [.assignments, .operations]
  | .revert_assignment_claims _ => [.assignments]
  | .complete_assignment _ => [.assignments, .operations, .audit_events, .audit_chain_tip]

theorem call_frame (crates : Crates) {db : Store} (h : Consistent db) (call : Call) :
    SameOutside call.tables db.rows (call.after crates db).rows := by
  have hexec {α : Type} {p : Tx α} (hok : ∀ a after, p.run db = (.ok a, after) →
      SameOutside call.tables db.rows after.rows) : SameOutside call.tables db.rows (p.exec db).2.rows := by
    obtain ⟨e, -, hrows⟩ | ⟨a, after, hrun, hexec⟩ := exec_cases p db
    · exact fun _ _ => congrFun hrows _
    · rw [hexec]
      exact hok a after hrun
  cases call with
  | register_agent req => exact hexec fun _ _ hrun => register_agent_frame hrun
  | upsert_ssh_target id name environment => exact hexec fun _ _ hrun => upsert_ssh_target_frame hrun
  | create_operation req =>
    refine hexec fun _ _ hrun => ?_
    obtain ⟨layers, created, heffect⟩ := create_operation_spec hrun
    exact heffect.frame
  | approve_operation req =>
    refine hexec fun _ _ hrun => ?_
    obtain ⟨op, routing_list, layers, created, heffect⟩ := approve_operation_spec hrun
    exact heffect.frame
  | reject_operation req => exact hexec fun _ _ hrun => (reject_operation_spec hrun).frame
  | fetch_pending_assignments lease now agent_id =>
    refine hexec fun _ _ hrun => ?_
    obtain ⟨cutoff, -, -, -, -, hframe⟩ := fetch_pending_assignments_spec hrun
    exact hframe
  | claim_ssh_pending lease now scan target_ids =>
    refine hexec fun _ _ hrun => ?_
    obtain ⟨-, hrows⟩ | ⟨cutoff, -, a, -, -, -, -, -, -, hframe⟩ := claim_ssh_pending_spec h.assignment_ids hrun
    · exact fun _ _ => congrFun hrows _
    · exact hframe
  | revert_assignment_claims ids =>
    refine hexec fun _ _ hrun => ?_
    obtain ⟨-, rfl⟩ := Prod.mk.inj ((run_revert_assignment_claims ids db).symm.trans hrun)
    exact SameOutside.set_rows _ _ _
  | complete_assignment rep =>
    refine hexec fun _ _ hrun => ?_
    obtain ⟨hrefused, -⟩ | ⟨a, -, -, hrecord⟩ := complete_assignment_cases crates rep db
    · cases hrefused.symm.trans hrun
    · obtain ⟨after, prev_hash, id, extra, hrecorded, -, -, -, -, hframe⟩ :=
        record_result_spec crates rep a.operation_id db
      obtain ⟨-, rfl⟩ := Prod.mk.inj (hrecorded.symm.trans (hrecord.symm.trans hrun))
      exact hframe

/-- Only `create_operation` changes the desired states. -/
theorem desired_states_kept (crates : Crates) {db : Store} (h : Consistent db) (call : Call)
    (hcall : ∀ req, call ≠ .create_operation req) :
    (call.after crates db).rows .desired_states = db.rows .desired_states := by
  apply call_frame crates h call
  cases call with
  | create_operation req => exact absurd rfl (hcall req)
  | _ => simp [Call.tables]

/-- No call drops a desired state. -/
theorem desired_states_subset (crates : Crates) {db : Store} (h : Consistent db) (call : Call) :
    db.rows .desired_states ⊆ (call.after crates db).rows .desired_states := by
  by_cases hcall : ∃ req, call = .create_operation req
  · obtain ⟨req, rfl⟩ := hcall
    obtain ⟨e, -, hrows⟩ | ⟨out, after, hrun, hexec⟩ := exec_cases (create_operation crates req) db
    · exact fun d hd => (congrFun hrows Table.desired_states) ▸ hd
    · obtain ⟨layers, created, heffect⟩ := create_operation_spec hrun
      obtain ⟨stored, hstored, -⟩ := heffect.desired_states
      rw [Call.after, hexec, hstored]
      exact List.subset_append_left _ _
  · rw [desired_states_kept crates h call (not_exists.mp hcall)]
    exact List.Subset.refl _

/-- Every call keeps the assignments backed. -/
theorem Backed.after {crates : Crates} {db : Store} (h : Backed crates db) (hconsistent : Consistent db) (call : Call) :
    Backed crates (call.after crates db) := by
  have hsub := desired_states_subset crates hconsistent call
  refine every_assignment_after hconsistent call (fun a ha b hsame => (h a ha).mono hsub hsame) ?_ ?_
  · rintro req out layers created rfl heffect
    exact heffect.backed
  · rintro req count op routing_list layers created rfl heffect
    rw [heffect.frame .desired_states (by decide)]
    exact heffect.backed

/-- An approval is not taken back, and the operation gets past its decision only with one. -/
structure KeepsApproval (a b : OperationRow) : Prop where
  id : b.id = a.id
  approved : a.approved_by.isSome = true → b.approved_by.isSome = true
  undecided : undecided a.status = true → store.undecided b.status = true ∨ b.approved_by.isSome = true

theorem KeepsApproval.refl (op : OperationRow) : KeepsApproval op op := ⟨rfl, fun happroved => happroved, .inl⟩

private theorem updated_keeps_approval {which : OperationRow → Bool} {change : OperationRow → OperationRow}
    {op : OperationRow} (h : which op = true → KeepsApproval op (change op)) :
    KeepsApproval op (updated which change op) := by
  cases hwhich : which op with
  | false =>
    rw [updated_of_false hwhich]
    exact .refl op
  | true =>
    rw [updated_of_true hwhich]
    exact h hwhich

/-- Every call keeps the approvals of the operations. -/
theorem approvals_after (crates : Crates) {db : Store} (h : Consistent db) (call : Call) {op : OperationRow}
    (hop : op ∈ db.rows .operations) :
    ∃ op' ∈ (call.after crates db).rows .operations, KeepsApproval op op' := by
  have hmap {which : OperationRow → Bool} {change : OperationRow → OperationRow}
      (hafter : (call.after crates db).rows .operations = (db.rows .operations).map (updated which change))
      (hchange : which op = true → KeepsApproval op (change op)) :
      ∃ op' ∈ (call.after crates db).rows .operations, KeepsApproval op op' :=
    ⟨_, hafter ▸ List.mem_map_of_mem hop, updated_keeps_approval hchange⟩
  cases call_effect crates call h.assignment_ids with
  | unchanged hoperations _ => exact ⟨op, hoperations ▸ hop, .refl op⟩
  | deferred new _ _ hoperations _ | created new _ _ _ _ hoperations _ _ =>
    exact ⟨op, hoperations ▸ List.mem_append_left _ hop, .refl op⟩
  | approved other req new _ _ _ hoperations _ _ => exact hmap hoperations fun _ => ⟨rfl, fun _ => rfl, fun _ => .inr rfl⟩
  | rejected req hoperations _ => exact hmap hoperations fun _ => ⟨rfl, fun happroved => happroved, fun _ => .inl rfl⟩
  | dispatched now g _ _ hoperations _ =>
    obtain ⟨chosen, hstarted⟩ := hoperations
    refine hmap hstarted fun hpending => ⟨rfl, fun happroved => happroved, fun hundecided => ?_⟩
    have hstatus : op.status = .pending := by simpa using (Bool.and_eq_true_iff.mp hpending).2
    rw [hstatus] at hundecided
    cases hundecided
  | completed rep a ha _ hoperations _ =>
    rw [rolled_up] at hoperations
    split at hoperations
    · exact ⟨op, hoperations ▸ hop, .refl op⟩
    · refine hmap hoperations fun howner => ⟨rfl, fun happroved => happroved, fun hundecided => ?_⟩
      exact absurd (beq_iff_eq.mp howner).symm (h.undecided op hop hundecided a ha)

end iac_controlplane.store
