import Iac.Controlplane.Store.CreateOperation
import Iac.Controlplane.Store.CreateOperation.Spec
import Iac.Core.Text
import Iac.Sql.Query

open iac_core.protocol serde_json sql

namespace iac_controlplane.store

/-- The arguments of `approve_operation` and what it draws from the outside:
the clock, the ULIDs it mints and the order its desired states come in. -/
structure ApproveRequest where
  op_id : String
  approver_display : String
  actor : String
  reason : Option String
  now : jiff.Timestamp
  audit_now : jiff.Timestamp
  ulid : Nat → String
  scan : Scan DesiredStateRow

def host_selector_of (value : Value) : Option String :=
  (((value.get "spec").bind fun s => s.get "hostSelector").bind fun h => h.get "name").bind Value.as_str

def name_of (value : Value) : String :=
  (((value.get "metadata").bind fun m => m.get "name").bind Value.as_str).getD ""

/-- A stored desired state as the routing input it was written from. -/
def routing_of_row (crates : Crates) (r : DesiredStateRow) : Except ApiError ResourceForRouting := do
  let value ← json_error (crates.from_str r.spec_json)
  return { resource_id := r.resource_id, kind := r.kind, environment := r.environment,
           resource_json := r.spec_json, name := name_of value, host_selector := host_selector_of value }

/-- The loop over the sorted resources; those without a route are skipped. -/
def bucket_for_approval (crates : Crates) (environment : String) (agents : List AgentEntry) :
    List (ResourceForRouting × Int) → Buckets String → Except ApiError (Buckets String)
  | [], buckets => .ok buckets
  | (r, layer) :: rest, buckets =>
    match route_resource r environment agents with
    | .ok agent_id => do
      let stripped ← dispatched_value crates r.resource_json
      bucket_for_approval crates environment agents rest
        (push_bucket buckets agent_id layer (crates.to_string stripped))
    | .error _ => bucket_for_approval crates environment agents rest buckets

def approval_buckets (crates : Crates) (environment : String) (agents : List AgentEntry)
    (desired_rows : List DesiredStateRow) : Except ApiError (Buckets String) := do
  let routing_list ← desired_rows.mapM (routing_of_row crates)
  let routing_list ← depsort.topo_sort_by_depends_on crates routing_list
  let layers ← depsort.compute_resource_layers crates routing_list
  bucket_for_approval crates environment agents (routing_list.zip layers) []

def stored_values (crates : Crates) (items_json : List String) : Except ApiError (List Value) :=
  items_json.mapM fun s => json_error (crates.from_str s)

def approve_assignments (crates : Crates) (req : ApproveRequest) : Buckets String → Nat → Tx Nat :=
  insert_assignments crates (stored_values crates) fun count agent_id layer payload_json =>
    { id := req.ulid count, agent_id, operation_id := req.op_id, payload_json, created_at := req.now.to_string,
      status := if layer = 0 then .pending else .pending_layer, kind := "apply", layer }

def approval_conflict (op_id : String) : ApiError :=
  .Conflict ("operation " ++ op_id ++ " no longer in pending_approval (concurrent approve/reject); " ++
    "refusing to overwrite")

def awaits_approval (op_id : String) (op : OperationRow) : Bool :=
  op.id == op_id && op.status == .pending_approval

def OperationRow.approve (req : ApproveRequest) (assignment_count : Nat) (op : OperationRow) : OperationRow :=
  { op with
    status := if assignment_count = 0 then .succeeded else .pending
    approved_by := some req.approver_display
    approved_at := some req.now.to_string
    approval_reason := req.reason
    finished_at := if assignment_count = 0 then some req.now.to_string else op.finished_at }

def approve_audit (req : ApproveRequest) (assignment_count : Nat) : AuditRecord :=
  { actor := req.actor, kind := "operation.approved", operation_id := some req.op_id
    payload := json [("approver", .string req.approver_display), ("reason", of_option req.reason),
      ("assignment_count", of_nat assignment_count)] }

def approve_operation (crates : Crates) (req : ApproveRequest) : Tx Nat := do
  let row ← sql_select fun db => (db .operations).find? fun op => op.id == req.op_id
  match row with
  | none => Prog.throw .NotFound
  | some row =>
    if row.status ≠ .pending_approval then
      Prog.throw (.Conflict ("operation is in status " ++ str.debug row.status.name ++ ", not pending_approval"))
    else do
      let desired_rows ← sql_select fun db =>
        req.scan.order ((db .desired_states).filter fun d => d.operation_id == req.op_id)
      let agents ← sql_select agent_entries
      let buckets ← Prog.ofExcept (approval_buckets crates row.environment agents desired_rows)
      let assignment_count ← approve_assignments crates req buckets 0
      let upd ← sql_update .operations (awaits_approval req.op_id) (OperationRow.approve req assignment_count)
      if upd.length ≠ 1 then
        Prog.throw (approval_conflict req.op_id)
      else do
        record_audit_on crates req.audit_now.to_string (approve_audit req assignment_count)
        return assignment_count

structure RejectRequest where
  op_id : String
  rejector_display : String
  actor : String
  reason : String
  now : jiff.Timestamp
  audit_now : jiff.Timestamp

def OperationRow.reject (req : RejectRequest) (op : OperationRow) : OperationRow :=
  { op with
    status := .rejected
    rejected_by := some req.rejector_display
    rejected_at := some req.now.to_string
    rejection_reason := some req.reason
    finished_at := some req.now.to_string }

def reject_audit (req : RejectRequest) : AuditRecord :=
  { actor := req.actor, kind := "operation.rejected", severity := "warning", operation_id := some req.op_id
    payload := json [("rejector", .string req.rejector_display), ("reason", .string req.reason)] }

def reject_operation (crates : Crates) (req : RejectRequest) : Tx Unit :=
  if req.reason.toList.all str.is_whitespace then
    Prog.throw (.BadRequest "reason must not be empty")
  else do
    let res ← sql_update .operations (awaits_approval req.op_id) (OperationRow.reject req)
    if res.length = 0 then
      Prog.throw (.Conflict "operation not found or not in pending_approval")
    else
      record_audit_on crates req.audit_now.to_string (reject_audit req)

/-- The text of a resource after its routing hints are stripped. -/
def stripped_text (crates : Crates) (r : ResourceForRouting) : String :=
  match dispatched_value crates r.resource_json with
  | .ok value => crates.to_string value
  | .error _ => ""

/-- What `approve_operation` sends of the resources of a bucket: their stripped texts, read again. -/
def approved_values (crates : Crates) (items : List ResourceForRouting) : Except ApiError (List Value) :=
  items.mapM fun r => json_error (crates.from_str (stripped_text crates r))

theorem bucket_for_approval_spec {crates : Crates} {environment : String} {agents : List AgentEntry}
    {layered : List (ResourceForRouting × Int)} {buckets buckets' : Buckets String}
    (h : bucket_for_approval crates environment agents layered buckets = .ok buckets') :
    buckets' = push_all buckets ((routes environment agents layered).map (Prod.map id (stripped_text crates))) ∧
      ∀ entry ∈ routes environment agents layered, ∃ value, dispatched_value crates entry.2.resource_json = .ok value := by
  induction layered generalizing buckets with
  | nil =>
    obtain rfl := Except.ok.inj h
    exact ⟨rfl, by simp [routes]⟩
  | cons entry layered ih =>
    obtain ⟨r, layer⟩ := entry
    rw [bucket_for_approval] at h
    cases hroute : route_resource r environment agents with
    | ok agent_id =>
      cases hvalue : dispatched_value crates r.resource_json with
      | error e => simp [hroute, hvalue, bind, Except.bind] at h
      | ok value =>
        simp only [hroute, hvalue, bind, Except.bind] at h
        obtain ⟨hbuckets, hvalues⟩ := ih h
        have hroutes : routes environment agents ((r, layer) :: layered) =
            ((agent_id, layer), r) :: routes environment agents layered := by
          simp [routes, hroute]
        rw [hroutes]
        refine ⟨?_, ?_⟩
        · simpa [push_all, stripped_text, hvalue] using hbuckets
        · intro entry hentry
          obtain rfl | hmem := List.mem_cons.mp hentry
          · exact ⟨value, hvalue⟩
          · exact hvalues entry hmem
    | error reason =>
      simp only [hroute] at h
      have hroutes : routes environment agents ((r, layer) :: layered) = routes environment agents layered := by
        simp [routes, hroute]
      rw [hroutes]
      exact ih h

/-- The resources of an operation as `approve_operation` reads them back. -/
def approval_routing (crates : Crates) (req : ApproveRequest) (rows : sql.Rows Row) :
    Except ApiError (List ResourceForRouting) := do
  let desired_rows := req.scan.order ((rows .desired_states).filter fun d => d.operation_id == req.op_id)
  let routing_list ← desired_rows.mapM (routing_of_row crates)
  depsort.topo_sort_by_depends_on crates routing_list

/-- One more audit event, recorded for `rec`. -/
def Audited (crates : Crates) (now : String) (rec : AuditRecord) (rows after : sql.Rows Row) : Prop :=
  ∃ prev_hash id, after .audit_events = rows .audit_events ++ [audit_row crates now prev_hash rec id]

/-- What a successful `approve_operation` does: the operation that awaited its
approval is approved and gets an assignment for each bucket. -/
structure ApproveEffect (crates : Crates) (req : ApproveRequest) (rows : sql.Rows Row) (count : Nat)
    (after : sql.Rows Row) (op : OperationRow) (routing_list : List ResourceForRouting) (layers : List Int)
    (created : List AssignmentRow) : Prop where
  found : (rows .operations).find? (fun op => op.id == req.op_id) = some op
  awaits : awaits_approval req.op_id op = true
  sorted : approval_routing crates req rows = .ok routing_list
  layered : depsort.compute_resource_layers crates routing_list = .ok layers
  count_eq : count = created.length
  operations : after .operations =
    (rows .operations).map (updated (awaits_approval req.op_id) (OperationRow.approve req count))
  assignments : after .assignments = rows .assignments ++ created
  dispatched : List.Forall₂ (AssignmentOf crates req.op_id req.now.to_string (approved_values crates) fun _ _ => none)
    (push_all [] (routes op.environment (agent_entries rows) (routing_list.zip layers))) created
  readable : ∀ entry ∈ routes op.environment (agent_entries rows) (routing_list.zip layers),
    ∃ value, dispatched_value crates entry.2.resource_json = .ok value
  ids : ((rows .assignments).map AssignmentRow.id).Nodup → ((after .assignments).map AssignmentRow.id).Nodup
  audited : Audited crates req.audit_now.to_string (approve_audit req count) rows after
  frame : SameOutside [.operations, .assignments, .audit_events, .audit_chain_tip] rows after

private theorem approval_buckets_ok {crates : Crates} {req : ApproveRequest} {rows : sql.Rows Row}
    {environment : String} {agents : List AgentEntry} {buckets : Buckets String}
    (h : approval_buckets crates environment agents
      (req.scan.order ((rows .desired_states).filter fun d => d.operation_id == req.op_id)) = .ok buckets) :
    ∃ routing_list layers, approval_routing crates req rows = .ok routing_list ∧
      depsort.compute_resource_layers crates routing_list = .ok layers ∧
      bucket_for_approval crates environment agents (routing_list.zip layers) [] = .ok buckets := by
  rw [approval_buckets] at h
  cases hread : (req.scan.order ((rows .desired_states).filter fun d => d.operation_id == req.op_id)).mapM
      (routing_of_row crates) with
  | error e => simp [hread, bind, Except.bind] at h
  | ok routing_list =>
    simp only [hread, bind, Except.bind] at h
    cases hsort : depsort.topo_sort_by_depends_on crates routing_list with
    | error e => simp [hsort] at h
    | ok sorted =>
      simp only [hsort] at h
      cases hlayers : depsort.compute_resource_layers crates sorted with
      | error e => simp [hlayers] at h
      | ok layers =>
        simp only [hlayers] at h
        exact ⟨sorted, layers, by simp [approval_routing, hread, hsort, bind, Except.bind], hlayers, h⟩

private theorem wp_approve_assignments {crates : Crates} {req : ApproveRequest}
    {buckets : Buckets ResourceForRouting} {rows : sql.Rows Row} :
    (approve_assignments crates req (buckets.map (Prod.map id (List.map (stripped_text crates)))) 0).wp rows
      fun count after => ∃ created, count = created.length ∧ after .assignments = rows .assignments ++ created ∧
        List.Forall₂ (AssignmentOf crates req.op_id req.now.to_string (approved_values crates) fun _ _ => none)
          buckets created ∧
        (((rows .assignments).map AssignmentRow.id).Nodup → ((after .assignments).map AssignmentRow.id).Nodup) ∧
        SameOutside [.assignments] rows after := by
  refine wp_mono ?_ wp_insert_assignments
  rintro count after ⟨created, hcount, hcreated, hmade, hids, hsame⟩
  refine ⟨created, by simpa using hcount, hcreated, ?_, hids, hsame⟩
  refine (List.forall₂_map_left_iff.mp hmade).imp ?_
  rintro bucket row ⟨i, resources, hvalues, rfl⟩
  refine ⟨req.ulid i, resources, ?_, ?_⟩
  · simpa [approved_values, stored_values, List.mapM_map, Function.comp_def] using hvalues
  · simp only [initial_assignment_status, Prod.map_fst, id_eq]

/-- A successful `approve_operation` has the effect of one. -/
theorem wp_approve_operation (crates : Crates) (req : ApproveRequest) (rows : sql.Rows Row) :
    (approve_operation crates req).wp rows fun count after =>
      ∃ op routing_list layers created, ApproveEffect crates req rows count after op routing_list layers created := by
  rw [approve_operation, wp_bind, wp_query]
  cases hfound : (rows .operations).find? fun op => op.id == req.op_id with
  | none => trivial
  | some op =>
    simp only
    split
    · trivial
    · rename_i hstatus
      rw [wp_bind, wp_query, wp_bind, wp_query, wp_bind, wp_ofExcept]
      intro buckets hbuckets
      obtain ⟨routing_list, layers, hsorted, hlayers, hpushed⟩ := approval_buckets_ok hbuckets
      obtain ⟨rfl, hreadable⟩ := bucket_for_approval_spec hpushed
      have hmapped := push_all_map (stripped_text crates) []
        (routes op.environment (agent_entries rows) (routing_list.zip layers))
      rw [List.map_nil] at hmapped
      rw [hmapped, wp_bind]
      refine wp_mono ?_ wp_approve_assignments
      rintro n rows₁ ⟨created, hcount, hcreated, hall, hids, hframe₁⟩
      rw [wp_bind, wp_update_where]
      split
      · trivial
      · rw [wp_bind]
        refine wp_mono ?_ (wp_record_audit_on _ _ _ _)
        rintro - rows₂ ⟨haudit, hframe₂⟩
        have hop : op.id = req.op_id := by simpa using List.find?_some hfound
        have hawaits : awaits_approval req.op_id op = true := by
          simpa [awaits_approval, hop] using hstatus
        refine ⟨op, routing_list, layers, created, hfound, hawaits, hsorted, hlayers,
          hcount, ?_, ?_, hall, hreadable, ?_, ?_, ?_⟩
        · rw [hframe₂ _ (by decide), Function.update_self, hframe₁ _ (by decide)]
        · rw [hframe₂ _ (by decide), Function.update_of_ne (by decide), hcreated]
        · rw [hframe₂ _ (by decide), Function.update_of_ne (by decide)]
          exact hids
        · obtain ⟨prev_hash, id, hrow⟩ := haudit
          refine ⟨prev_hash, id, ?_⟩
          rw [hrow, Function.update_of_ne (by decide), hframe₁ _ (by decide)]
        · exact (hframe₁.mono (by simp)).trans
            (((SameOutside.update _ _ _).mono (by simp)).trans (hframe₂.mono (by simp)))

theorem approve_operation_spec {crates : Crates} {req : ApproveRequest} {count : Nat} {db after : Store}
    (h : (approve_operation crates req).run db = (.ok count, after)) :
    ∃ op routing_list layers created,
      ApproveEffect crates req db.rows count after.rows op routing_list layers created :=
  run_of_wp (wp_approve_operation crates req db.rows) h

/-- What a successful `reject_operation` does: the operation that awaited its approval is rejected. -/
structure RejectEffect (crates : Crates) (req : RejectRequest) (rows after : sql.Rows Row) : Prop where
  operations : after .operations =
    (rows .operations).map (updated (awaits_approval req.op_id) (OperationRow.reject req))
  audited : Audited crates req.audit_now.to_string (reject_audit req) rows after
  frame : SameOutside [.operations, .audit_events, .audit_chain_tip] rows after

theorem wp_reject_operation (crates : Crates) (req : RejectRequest) (rows : sql.Rows Row) :
    (reject_operation crates req).wp rows fun _ after => RejectEffect crates req rows after := by
  rw [reject_operation]
  split
  · trivial
  · rw [wp_bind, wp_update_where]
    split
    · trivial
    · refine wp_mono ?_ (wp_record_audit_on _ _ _ _)
      rintro - after ⟨⟨prev_hash, id, hrow⟩, hframe⟩
      refine ⟨?_, ⟨prev_hash, id, ?_⟩, ((SameOutside.update _ _ _).mono (by simp)).trans (hframe.mono (by simp))⟩
      · rw [hframe _ (by decide), Function.update_self]
      · rw [hrow, Function.update_of_ne (by decide)]

theorem reject_operation_spec {crates : Crates} {req : RejectRequest} {db after : Store}
    (h : (reject_operation crates req).run db = (.ok (), after)) : RejectEffect crates req db.rows after.rows :=
  run_of_wp (Q := fun _ => RejectEffect crates req db.rows) (wp_reject_operation crates req db.rows) h

end iac_controlplane.store
