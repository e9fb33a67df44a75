import Iac.Controlplane.Depsort
import Iac.Controlplane.Store.Agents
import Iac.Controlplane.Store.ApproveOperation
import Iac.Controlplane.Store.CompleteAssignment
import Iac.Controlplane.Store.Dispatch
import Mathlib.Logic.Relation

open iac_core.protocol sql

namespace iac_controlplane.store

/-- A call of a store operation, with everything it draws from the outside. -/
inductive Call where
  | register_agent (req : RegisterRequest)
  | upsert_ssh_target (id name environment : String)
  | create_operation (req : CreateRequest)
  | approve_operation (req : ApproveRequest)
  | reject_operation (req : RejectRequest)
  | fetch_pending_assignments (lease : Int) (now : jiff.Timestamp) (agent_id : String)
  | claim_ssh_pending (lease : Int) (now : jiff.Timestamp) (scan : Scan AssignmentRow) (target_ids : List String)
  | revert_assignment_claims (assignment_ids : List String)
  | complete_assignment (rep : Report)

/-- The store after a call that no other transaction overlaps. -/
def Call.after (crates : Crates) (call : Call) (db : Store) : Store :=
  match call with
  | .register_agent req => ((store.register_agent crates req).exec db).2
  | .upsert_ssh_target id name environment => ((store.upsert_ssh_target id name environment).exec db).2
  | .create_operation req => ((store.create_operation crates req).exec db).2
  | .approve_operation req => ((store.approve_operation crates req).exec db).2
  | .reject_operation req => ((store.reject_operation crates req).exec db).2
  | .fetch_pending_assignments lease now agent_id =>
    ((store.fetch_pending_assignments crates lease now agent_id).exec db).2
  | .claim_ssh_pending lease now scan target_ids => ((store.claim_ssh_pending lease now scan target_ids).exec db).2
  | .revert_assignment_claims assignment_ids => ((store.revert_assignment_claims assignment_ids).exec db).2
  | .complete_assignment rep => ((complete_assignment_with_extra_audit crates rep).exec db).2

/-- One call of a serial run, when `allowed` admits it. -/
def Step (crates : Crates) (allowed : Store → Call → Prop) (db after : Store) : Prop :=
  ∃ call : Call, allowed db call ∧ after = call.after crates db

abbrev Run (crates : Crates) (allowed : Store → Call → Prop) : Store → Store → Prop :=
  Relation.ReflTransGen (Step crates allowed)

/-- A state of a serial run from the migrated store. -/
abbrev Reachable (crates : Crates) (allowed : Store → Call → Prop) (db : Store) : Prop :=
  Run crates allowed migrated db

/-- The store after a list of calls. -/
def call_all (crates : Crates) (calls : List Call) (db : Store) : Store :=
  calls.foldl (fun db call => call.after crates db) db

/-- Each call of the list is admitted in the store it comes to. -/
def AllAllowed (crates : Crates) (allowed : Store → Call → Prop) : List Call → Store → Prop
  | [], _ => True
  | call :: calls, db => allowed db call ∧ AllAllowed crates allowed calls (call.after crates db)

theorem run_call_all {crates : Crates} {allowed : Store → Call → Prop} (calls : List Call) {db : Store}
    (h : AllAllowed crates allowed calls db) : Run crates allowed db (call_all crates calls db) := by
  induction calls generalizing db with
  | nil => exact .refl
  | cons call calls ih => exact .head ⟨call, h.1, rfl⟩ (ih h.2)

/-- Any call at any time. -/
def any_call : Store → Call → Prop := fun _ _ => True

theorem reachable_call_all (crates : Crates) (calls : List Call) :
    Reachable crates any_call (call_all crates calls migrated) := by
  refine run_call_all calls ?_
  generalize migrated = db
  induction calls generalizing db with
  | nil => trivial
  | cons call calls ih => exact ⟨trivial, ih _⟩

section Samples

/-- The start of 1970. -/
def midnight : jiff.Timestamp := ⟨62167219200000000000, jiff.unix_epoch_in_range⟩

/-- A manifest for the host that depends on the given resources. -/
def manifest (host : String) (depends_on : List String) : serde_json.Value :=
  serde_json.json [("metadata", serde_json.json [("dependsOn", .array (depends_on.map .string))]),
    ("spec", serde_json.json [("hostSelector", serde_json.json [("name", .string host)])])]

def resource (resource_id host : String) (depends_on : List String) : ResourceForRouting where
  resource_id
  kind := "Package"
  environment := "prod"
  resource_json := serde_json.compact (manifest host depends_on)
  name := ""
  host_selector := some host

/-- The submission of resources for the environment `prod`, whose assignments
get their numbers as ids. -/
def submission (resources : List ResourceForRouting) (canary : Option CanarySpec) : CreateRequest where
  environment := "prod"
  requested_by := "alice"
  actor := "user:alice"
  source_commit := none
  summary := none
  resources
  matched_policies := []
  requires_approval := false
  canary
  now := midnight
  audit_now := midnight
  op_id := "op"
  ulid n := toString n

def registration (name : String) : RegisterRequest :=
  { id := name, name, environment := "prod", audit_now := midnight }

def report (agent_id assignment_id : String) (status : AssignmentResultStatus) : Report :=
  { agent_id, assignment_id, result := ⟨status, none, []⟩, now := midnight, audit_now := midnight }

/-- The crates on manifests without strings to escape and on what the store makes of them. -/
def crates_on (manifests : List serde_json.Value) : Crates :=
  Crates.on (manifests ++ manifests.map strip_routing_hints ++
    manifests.map fun value => AssignmentPayload.to_value ⟨[strip_routing_hints value]⟩)

end Samples

/-- The resources that a call turns into assignments, with the agent each is
routed to and its layer, as `create_operation` and `approve_operation` compute them. -/
def Call.routed (crates : Crates) (db : Store) : Call → List ((String × Int) × ResourceForRouting)
  | .create_operation req =>
    if req.requires_approval then []
    else
      match depsort.compute_resource_layers crates req.resources with
      | .ok layers => routes req.environment (agent_entries db.rows) (req.resources.zip layers)
      | .error _ => []
  | .approve_operation req =>
    match (db.rows .operations).find? (fun op => op.id == req.op_id), approval_routing crates req db.rows with
    | some op, .ok routing_list =>
      if awaits_approval req.op_id op then
        match depsort.compute_resource_layers crates routing_list with
        | .ok layers => routes op.environment (agent_entries db.rows) (routing_list.zip layers)
        | .error _ => []
      else []
    | _, _ => []
  | _ => []

/-- The canary option a call passes on to the split. -/
def Call.canary : Call → Option CanarySpec
  | .create_operation req => req.canary
  | _ => none

/-- `rows` are new assignments of `op_id`: one for each agent and layer that
some entry is routed to, in its batch and in its first status. -/
structure NewAssignments (op_id : String) (entries : List ((String × Int) × ResourceForRouting))
    (canary : Option CanarySpec) (rows : List AssignmentRow) : Prop where
  routed : ∀ a ∈ rows, ∃ r, ((a.agent_id, a.layer), r) ∈ entries
  covered : ∀ entry ∈ entries, ∃ a ∈ rows, a.agent_id = entry.1.1 ∧ a.layer = entry.1.2
  operation : ∀ a ∈ rows, a.operation_id = op_id
  nonneg : ∀ a ∈ rows, 0 ≤ a.layer
  batch : ∀ a ∈ rows, a.batch = batch_of (push_all [] entries) canary a.agent_id a.layer
  status : ∀ a ∈ rows, a.status = initial_assignment_status a.layer a.batch

/-- The row was handed out, taken back or left alone. -/
def Redispatched (a b : AssignmentRow) : Prop :=
  b = a ∨ dispatchable a.status = true ∧
    ∃ status fetched_at, dispatchable status = true ∧ b = { a with status, fetched_at }

/-- The calls that hand assignments out or take them back. -/
def Call.redispatches : Call → Bool
  | .fetch_pending_assignments .. | .claim_ssh_pending .. | .revert_assignment_claims _ => true
  | _ => false

/-- What a call can do to the operations and their assignments. -/
inductive Effect (crates : Crates) (db : Store) (call : Call) (after : Store) : Prop where
  | unchanged (hoperations : after.rows .operations = db.rows .operations)
      (hassignments : after.rows .assignments = db.rows .assignments)
  | deferred (op : OperationRow) (hstatus : op.status = .pending_approval)
      (hfresh : ∀ other ∈ db.rows .operations, other.id ≠ op.id)
      (hoperations : after.rows .operations = db.rows .operations ++ [op])
      (hassignments : after.rows .assignments = db.rows .assignments)
  | created (op : OperationRow) (new : List AssignmentRow)
      (hstatus : op.status = if new = [] then .succeeded else .pending)
      (hfresh : ∀ other ∈ db.rows .operations, other.id ≠ op.id)
      (hnew : NewAssignments op.id (call.routed crates db) call.canary new)
      (hoperations : after.rows .operations = db.rows .operations ++ [op])
      (hassignments : after.rows .assignments = db.rows .assignments ++ new)
      (hids : (((db.rows .assignments).map AssignmentRow.id).Nodup → ((after.rows .assignments).map AssignmentRow.id).Nodup))
  | approved (op : OperationRow) (req : ApproveRequest) (new : List AssignmentRow)
      (hop : op ∈ db.rows .operations) (hawaits : awaits_approval req.op_id op = true)
      (hnew : NewAssignments op.id (call.routed crates db) call.canary new)
      (hoperations : after.rows .operations =
        (db.rows .operations).map (updated (awaits_approval req.op_id) (OperationRow.approve req new.length)))
      (hassignments : after.rows .assignments = db.rows .assignments ++ new)
      (hids : (((db.rows .assignments).map AssignmentRow.id).Nodup → ((after.rows .assignments).map AssignmentRow.id).Nodup))
  | rejected (req : RejectRequest)
      (hoperations : after.rows .operations =
        (db.rows .operations).map (updated (awaits_approval req.op_id) (OperationRow.reject req)))
      (hassignments : after.rows .assignments = db.rows .assignments)
  | dispatched (now : String) (g : AssignmentRow → AssignmentRow) (hcall : call.redispatches = true)
      (hmoved : ∀ a ∈ db.rows .assignments, Redispatched a (g a))
      (hoperations : Started now (db.rows .operations) (after.rows .operations))
      (hassignments : after.rows .assignments = (db.rows .assignments).map g)
  | completed (rep : Report) (a : AssignmentRow) (ha : a ∈ db.rows .assignments) (haccepts : accepts_result rep a = true)
      (hoperations : after.rows .operations =
        rolled_up a.operation_id rep.now.to_string (after.rows .assignments) (db.rows .operations))
      (hassignments : after.rows .assignments = reported crates rep a.operation_id (db.rows .assignments))

theorem new_assignments {crates : Crates} {op_id now : String}
    {values : List ResourceForRouting → Except ApiError (List serde_json.Value)} {canary : Option CanarySpec}
    {entries : List ((String × Int) × ResourceForRouting)} {rows : List AssignmentRow}
    (hnonneg : ∀ entry ∈ entries, 0 ≤ entry.1.2)
    (h : List.Forall₂ (AssignmentOf crates op_id now values (batch_of (push_all [] entries) canary))
      (push_all [] entries) rows) : NewAssignments op_id entries canary rows := by
  have hrow : ∀ a ∈ rows, ∃ bucket ∈ push_all [] entries,
      AssignmentOf crates op_id now values (batch_of (push_all [] entries) canary) bucket a := by
    intro a ha
    obtain ⟨i, hi, rfl⟩ := List.mem_iff_getElem.mp ha
    have hlength := h.length_eq
    exact ⟨_, List.getElem_mem (hlength ▸ hi), List.forall₂_iff_get.mp h |>.2 i (hlength ▸ hi) hi⟩
  have hdispatched : ∀ a ∈ rows, ∃ r, ((a.agent_id, a.layer), r) ∈ entries := by
    intro a ha
    obtain ⟨bucket, hbucket, id, resources, -, rfl⟩ := hrow a ha
    exact (dispatches_push_all entries _ _).mp ⟨bucket.2, hbucket⟩
  refine ⟨hdispatched, ?_, ?_, ?_, ?_, ?_⟩
  · rintro ⟨⟨agent_id, layer⟩, r⟩ hentry
    obtain ⟨items, hbucket⟩ := (dispatches_push_all entries agent_id layer).mpr ⟨r, hentry⟩
    obtain ⟨i, hi, hget⟩ := List.mem_iff_getElem.mp hbucket
    have hlength := h.length_eq
    obtain ⟨id, resources, -, hmade⟩ := (List.forall₂_iff_get.mp h).2 i hi (hlength ▸ hi)
    refine ⟨rows.get ⟨i, hlength ▸ hi⟩, List.get_mem _ _, ?_, ?_⟩
    · rw [hmade]
      simp [hget]
    · rw [hmade]
      simp [hget]
  · intro a ha
    obtain ⟨bucket, -, id, resources, -, rfl⟩ := hrow a ha
    rfl
  · intro a ha
    obtain ⟨r, hentry⟩ := hdispatched a ha
    exact hnonneg _ hentry
  · intro a ha
    obtain ⟨bucket, -, id, resources, -, rfl⟩ := hrow a ha
    rfl
  · intro a ha
    obtain ⟨bucket, -, id, resources, -, rfl⟩ := hrow a ha
    rfl

theorem routes_nonneg {crates : Crates} {environment : String} {agents : List AgentEntry}
    {routing : List ResourceForRouting} {layers : List Int}
    (hlayers : depsort.compute_resource_layers crates routing = .ok layers) :
    ∀ entry ∈ routes environment agents (routing.zip layers), 0 ≤ entry.1.2 := by
  rintro ⟨⟨agent_id, layer⟩, r⟩ hentry
  obtain ⟨hmem, -⟩ := mem_routes.mp hentry
  exact depsort.compute_resource_layers_nonneg hlayers _ (List.of_mem_zip hmem).2

/-- What a program does to the operations and the assignments when it fails:
nothing. -/
private theorem effect_of_run {α : Type} {crates : Crates} {db : Store} {call : Call} {p : Tx α}
    (hok : ∀ a after, p.run db = (.ok a, after) → Effect crates db call after) :
    Effect crates db call (p.exec db).2 := by
  obtain ⟨e, -, hrows⟩ | ⟨a, after, hrun, hexec⟩ := exec_cases p db
  · exact .unchanged (congrFun hrows _) (congrFun hrows _)
  · rw [hexec]
    exact hok a after hrun

private theorem create_effect {crates : Crates} {req : CreateRequest} {out : CreateOperationOutcome} {db after : Store}
    (h : (create_operation crates req).run db = (.ok out, after)) :
    Effect crates db (.create_operation req) after := by
  obtain ⟨layers, created, heffect⟩ := create_operation_spec h
  have hid (n : Nat) : (created_operation crates req n).id = req.op_id := by
    simp only [created_operation, operation_row]
    split <;> rfl
  cases happroval : req.requires_approval with
  | true =>
    refine .deferred (created_operation crates req created.length) ?_ ?_ heffect.operations ?_
    · simp [created_operation, operation_row, initial_operation_status, happroval]
    · rw [hid]
      exact heffect.fresh
    · rw [heffect.assignments, heffect.deferred happroval, List.append_nil]
  | false =>
    have hrouted : (Call.create_operation req).routed crates db =
        routes req.environment (agent_entries db.rows) (req.resources.zip layers) := by
      simp [Call.routed, happroval, heffect.layered]
    refine .created (created_operation crates req created.length) created ?_ ?_ ?_ heffect.operations
      heffect.assignments heffect.ids
    · simp only [created_operation, operation_row, initial_operation_status, happroval, true_and,
        List.length_eq_zero_iff]
      split <;> rfl
    · rw [hid]
      exact heffect.fresh
    · rw [hid, hrouted]
      exact new_assignments (routes_nonneg heffect.layered) (heffect.dispatched happroval)

private theorem approve_effect {crates : Crates} {req : ApproveRequest} {count : Nat} {db after : Store}
    (h : (approve_operation crates req).run db = (.ok count, after)) :
    Effect crates db (.approve_operation req) after := by
  obtain ⟨op, routing_list, layers, created, heffect⟩ := approve_operation_spec h
  have hrouted : (Call.approve_operation req).routed crates db =
      routes op.environment (agent_entries db.rows) (routing_list.zip layers) := by
    simp [Call.routed, heffect.found, heffect.awaits, heffect.sorted, heffect.layered]
  have hid : op.id = req.op_id := by simpa using List.find?_some heffect.found
  refine .approved op req created (List.mem_of_find?_eq_some heffect.found) heffect.awaits ?_ ?_ heffect.assignments
    heffect.ids
  · rw [hid, hrouted]
    exact new_assignments (routes_nonneg heffect.layered) heffect.dispatched
  · rw [heffect.operations, heffect.count_eq]

private theorem dispatch_effect {crates : Crates} {db after : Store} {call : Call} {now : String}
    {which : AssignmentRow → Bool} {change : AssignmentRow → AssignmentRow} (hcall : call.redispatches = true)
    (hmoved : ∀ a ∈ db.rows .assignments, which a = true → Redispatched a (change a))
    (hoperations : Started now (db.rows .operations) (after.rows .operations))
    (hassignments : after.rows .assignments = (db.rows .assignments).map (updated which change)) :
    Effect crates db call after := by
  refine .dispatched now (updated which change) hcall (fun a ha => ?_) hoperations hassignments
  cases hwhich : which a with
  | false => exact .inl (updated_of_false hwhich)
  | true => exact updated_of_true hwhich ▸ hmoved a ha hwhich

theorem claimable_dispatchable {cutoff : String} {a : AssignmentRow} (h : claimable cutoff a = true) :
    dispatchable a.status = true := by
  simp only [claimable, Bool.or_eq_true, beq_iff_eq, Bool.and_eq_true] at h
  rcases h with h | ⟨h, -⟩ <;> rw [h] <;> rfl

private theorem redispatched_fetch {now cutoff : String} {a : AssignmentRow} (h : claimable cutoff a = true) :
    Redispatched a (AssignmentRow.fetch now a) :=
  .inr ⟨claimable_dispatchable h, .fetched, some now, rfl, rfl⟩

/-- Every call has one of the effects, on any store whose assignments have ids of their own. -/
theorem call_effect (crates : Crates) (call : Call) {db : Store}
    (hids : ((db.rows .assignments).map AssignmentRow.id).Nodup) : Effect crates db call (call.after crates db) := by
  cases call with
  | register_agent req =>
    refine effect_of_run fun _ after hrun => ?_
    have hframe := register_agent_frame hrun
    exact .unchanged (hframe _ (by decide)) (hframe _ (by decide))
  | upsert_ssh_target id name environment =>
    refine effect_of_run fun _ after hrun => ?_
    have hframe := upsert_ssh_target_frame hrun
    exact .unchanged (hframe _ (by decide)) (hframe _ (by decide))
  | create_operation req => exact effect_of_run fun _ _ => create_effect
  | approve_operation req => exact effect_of_run fun _ _ => approve_effect
  | reject_operation req =>
    refine effect_of_run fun _ after hrun => ?_
    have heffect := reject_operation_spec hrun
    exact .rejected req heffect.operations (heffect.frame _ (by decide))
  | fetch_pending_assignments lease now agent_id =>
    refine effect_of_run fun out after hrun => ?_
    obtain ⟨cutoff, -, hassignments, -, hstarted, -⟩ := fetch_pending_assignments_spec hrun
    refine dispatch_effect rfl (fun a _ ha => ?_) hstarted hassignments
    exact redispatched_fetch (Bool.and_eq_true_iff.mp ha).2
  | claim_ssh_pending lease now scan target_ids =>
    refine effect_of_run fun out after hrun => ?_
    rcases claim_ssh_pending_spec hids hrun with
      ⟨-, hrows⟩ | ⟨cutoff, -, a, ha, -, hclaimable, -, hassignments, hstarted, -⟩
    · exact .unchanged (congrFun hrows _) (congrFun hrows _)
    · refine dispatch_effect rfl (fun b hb hid => ?_) hstarted hassignments
      obtain rfl : b = a := eq_of_key_eq hids hb ha (by simpa using hid)
      exact redispatched_fetch hclaimable
  | revert_assignment_claims ids =>
    refine effect_of_run fun _ after hrun => ?_
    obtain ⟨-, rfl⟩ := Prod.mk.inj ((run_revert_assignment_claims ids db).symm.trans hrun)
    refine dispatch_effect rfl (fun a _ ha => ?_) (Started.refl "" _) (Db.set_rows_self _ _ _)
    have hfetched : a.status = .fetched := by simpa using (Bool.and_eq_true_iff.mp ha).2
    exact .inr ⟨by rw [hfetched]; rfl, .pending, none, rfl, rfl⟩
  | complete_assignment rep =>
    obtain ⟨hrefused, -⟩ | ⟨a, ha, haccepts, hrun⟩ := complete_assignment_cases crates rep db
    · refine effect_of_run fun _ after hrun => ?_
      rw [hrefused] at hrun
      cases hrun
    · obtain ⟨after, prev_hash, id, extra, hrecorded, hassignments, hoperations, -, -, -⟩ :=
        record_result_spec crates rep a.operation_id db
      have hexec := exec_of_run_ok (hrun.trans hrecorded)
      rw [Call.after, hexec]
      exact .completed rep a ha haccepts hoperations hassignments

theorem accepts_dispatchable {rep : Report} {a : AssignmentRow} (h : accepts_result rep a = true) :
    dispatchable a.status = true := by
  simp only [accepts_result, Bool.and_eq_true] at h
  exact h.2

theorem accepts_id {rep : Report} {a : AssignmentRow} (h : accepts_result rep a = true) :
    a.id = rep.assignment_id := by
  simp only [accepts_result, Bool.and_eq_true, beq_iff_eq] at h
  exact h.1.1

/-- The assignments and operations after a report that an assignment accepts. -/
theorem complete_after (crates : Crates) {rep : Report} {db : Store}
    (hids : ((db.rows .assignments).map AssignmentRow.id).Nodup) {a : AssignmentRow} (ha : a ∈ db.rows .assignments)
    (haccepts : accepts_result rep a = true) :
    let after := (Call.complete_assignment rep).after crates db
    after.rows .assignments = reported crates rep a.operation_id (db.rows .assignments) ∧
      after.rows .operations = rolled_up a.operation_id rep.now.to_string
        (reported crates rep a.operation_id (db.rows .assignments)) (db.rows .operations) := by
  obtain ⟨-, hnone⟩ | ⟨b, hb, hb_accepts, hrun⟩ := complete_assignment_cases crates rep db
  · simp [hnone a ha] at haccepts
  · obtain rfl : b = a := eq_of_key_eq hids hb ha ((accepts_id hb_accepts).trans (accepts_id haccepts).symm)
    obtain ⟨after, prev_hash, id, extra, hrecorded, hassignments, hoperations, -, -, -⟩ :=
      record_result_spec crates rep b.operation_id db
    rw [Call.after, exec_of_run_ok (hrun.trans hrecorded)]
    exact ⟨hassignments, hassignments ▸ hoperations⟩

end iac_controlplane.store
