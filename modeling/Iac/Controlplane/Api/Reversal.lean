import Iac.Controlplane.Api.Operations
import Iac.Controlplane.Depsort
import Iac.Controlplane.Store.CreateOperation.Spec
import Iac.Controlplane.Store.PrepareRollback

open iac_controlplane.identity iac_controlplane.policy iac_controlplane.store iac_core.protocol serde_json sql

namespace iac_controlplane.api

/-- The request of `reject_op`; the handler fills the rejector in. -/
def reject_op (crates : Crates) (identity : Identity) (req : RejectRequest) : Tx Unit := do
  let identity ← Prog.ofExcept (require_role identity .Approver)
  reject_operation crates { req with rejector_display := identity.display_name, actor := identity.audit_actor }

/-- A request to roll an operation back, and what the call draws from the
outside: the clock of the new operation and of its audit row, and the ULIDs. -/
structure RollbackRequest where
  target_op_id : String
  requested_by : String
  reason : Option String
  canary : Option CanarySpec
  scan : Scan DesiredStateRow
  now : jiff.Timestamp
  audit_now : jiff.Timestamp
  initiated_now : jiff.Timestamp
  op_id : String
  ulid : Nat → String

structure RollbackOperationResponse where
  new_operation_id : String
  assignment_count : Nat
  resources_reverted : Nat
  resources_orphaned : List String

def nothing_to_revert (orphaned : List String) : ApiError :=
  .Conflict ("no resources have a prior desired state to revert to (" ++ toString orphaned.length ++ " orphaned). " ++
    "Operator must delete these manually.")

/-- The arguments that `rollback_op` calls `create_operation` with. -/
def rollback_create (policies : List Policy) (identity : Identity) (req : RollbackRequest) (environment : String)
    (resources : List ResourceForRouting) : CreateRequest :=
  let matched := evaluate policies (facts_of environment resources)
  { environment, requested_by := req.requested_by, actor := identity.audit_actor, source_commit := none,
    summary := some ("rollback of " ++ req.target_op_id ++ (match req.reason with | some r => ": " ++ r | none => "")),
    resources, matched_policies := matched.map Policy.name, requires_approval := matched.any Policy.requires_approval,
    canary := req.canary, now := req.now, audit_now := req.audit_now, op_id := req.op_id, ulid := req.ulid }

def rollback_audit (identity : Identity) (req : RollbackRequest) (operation_id : String) (reverted : Nat)
    (orphaned : List String) : AuditRecord :=
  { actor := identity.audit_actor, kind := "operation.rollback_initiated", severity := "warning",
    operation_id := some operation_id
    payload := json [("target_operation_id", .string req.target_op_id), ("reason", of_option req.reason),
      ("resources_reverted", of_nat reverted), ("resources_orphaned", .array (orphaned.map .string))] }

/-- Applies the specs that the resources of an operation had before it. -/
def rollback_op (crates : Crates) (policies : List Policy) (identity : Identity) (req : RollbackRequest) :
    Tx RollbackOperationResponse := do
  let identity ← Prog.ofExcept (require_role identity .Operator)
  let (resources, orphaned, environment) ← prepare_rollback crates req.scan req.target_op_id
  if resources.isEmpty then
    Prog.throw (nothing_to_revert orphaned)
  else do
    let resources ← Prog.ofExcept (depsort.topo_sort_by_depends_on crates resources)
    let outcome ← create_operation crates (rollback_create policies identity req environment resources)
    record_audit_on crates req.initiated_now.to_string
      (rollback_audit identity req outcome.operation_id resources.length orphaned)
    return { new_operation_id := outcome.operation_id, assignment_count := outcome.assignment_count,
             resources_reverted := min resources.length (2 ^ 32 - 1), resources_orphaned := orphaned }

/-- What `revert_drift` reads of a drift event. -/
structure DriftSummary where
  resource_id : String
  resolved_at : Option String

/-- A request to revert a drift, and what the call draws from the outside. -/
structure RevertRequest where
  drift_id : Int
  source_commit : Option String
  now : jiff.Timestamp
  audit_now : jiff.Timestamp
  op_id : String
  ulid : Nat → String

def already_resolved (drift_id : Int) (resolved_at : String) : ApiError :=
  .BadRequest ("drift " ++ toString drift_id ++ " already resolved at " ++ str.debug resolved_at)

def no_desired_state (resource_id : String) : ApiError :=
  .BadRequest ("no desired-state row for resource " ++ str.debug resource_id ++ "; cannot revert without a known good spec")

/-- `serde_json::from_str` on a stored resource. -/
def decode_resource (crates : Crates) (resource_json : String) : Except ApiError Value :=
  match crates.from_str resource_json with
  | .ok raw => .ok raw
  | .error e => .error (.Internal ("decoding stored resource_json: " ++ e))

/-- The arguments that `revert_drift` calls `create_operation` with: no policies and no approval. -/
def revert_create (identity : Identity) (req : RevertRequest) (drift : DriftSummary) (environment : String)
    (routed : ResourceForRouting) : CreateRequest :=
  { environment, requested_by := identity.audit_actor, actor := identity.audit_actor, source_commit := req.source_commit,
    summary := some ("revert drift " ++ toString req.drift_id ++ " for " ++ drift.resource_id), resources := [routed],
    matched_policies := [], requires_approval := false, canary := none, now := req.now, audit_now := req.audit_now,
    op_id := req.op_id, ulid := req.ulid }

/-- Applies the last stored spec of a drifted resource again. `drift` is the
event with the id of the request, when there is one. -/
def revert_drift (crates : Crates) (identity : Identity) (drift : Option DriftSummary) (req : RevertRequest) :
    Tx CreateOperationOutcome := do
  let identity ← Prog.ofExcept (require_role identity .Operator)
  match drift with
  | none => Prog.throw .NotFound
  | some drift =>
    match drift.resolved_at with
    | some resolved_at => Prog.throw (already_resolved req.drift_id resolved_at)
    | none => do
      let latest ← find_latest_resource_for_revert drift.resource_id
      match latest with
      | none => Prog.throw (no_desired_state drift.resource_id)
      | some (environment, resource_json) => do
        let raw ← Prog.ofExcept (decode_resource crates resource_json)
        let routed ← Prog.ofExcept (extract_routing crates environment raw)
        create_operation crates (revert_create identity req drift environment routed)

/-- What an accepted submission did: it created the operation of its routing. -/
theorem submit_spec {crates : Crates} {policies : List Policy} {identity : Identity} {sub : Submission}
    {out : CreateOperationOutcome} {db after : Store} (h : (submit crates policies identity sub).run db = (.ok out, after)) :
    ∃ routing, sub.routing crates = .ok routing ∧
      (create_operation crates (create_request policies identity sub routing)).run db = (.ok out, after) := by
  rw [submit] at h
  obtain ⟨caller, hrole, hrest⟩ := run_ofExcept_bind_eq_ok_iff.mp h
  obtain ⟨rfl, -⟩ := require_role_ok hrole
  split at hrest
  · cases hrest
  · split at hrest
    · cases hrest
    · exact run_ofExcept_bind_eq_ok_iff.mp hrest

/-- What an accepted rollback did: it created an operation of resources that
had been stored by operations with a successful end. -/
theorem rollback_op_spec {crates : Crates} {policies : List Policy} {identity : Identity} {req : RollbackRequest}
    {out : RollbackOperationResponse} {db after : Store}
    (h : (rollback_op crates policies identity req).run db = (.ok out, after)) :
    ∃ (db₁ mid : Store) (create : CreateRequest) (outcome : CreateOperationOutcome), db₁.rows = db.rows ∧
      (create_operation crates create).run db₁ = (.ok outcome, mid) ∧
      SameOutside [.audit_events, .audit_chain_tip] mid.rows after.rows ∧
      ∀ r ∈ create.resources, Returnable crates db.rows r := by
  rw [rollback_op] at h
  obtain ⟨caller, -, h⟩ := run_ofExcept_bind_eq_ok_iff.mp h
  obtain ⟨⟨resources, orphaned, environment⟩, db₁, hprepare, h⟩ := run_bind_eq_ok_iff.mp h
  obtain ⟨hrows, hreturnable⟩ := run_of_wp (wp_prepare_rollback crates req.scan req.target_op_id _) hprepare
  simp only at h
  split at h
  · cases h
  · obtain ⟨sorted, hsorted, h⟩ := run_ofExcept_bind_eq_ok_iff.mp h
    obtain ⟨outcome, mid, hcreate, h⟩ := run_bind_eq_ok_iff.mp h
    obtain ⟨prev_hash, id, audited, haudit, -, hframe⟩ := record_audit_on_spec crates req.initiated_now.to_string
      (rollback_audit caller req outcome.operation_id sorted.length orphaned) mid
    rw [run_bind_ok haudit] at h
    obtain ⟨-, rfl⟩ := Prod.mk.inj h
    exact ⟨_, mid, _, outcome, hrows, hcreate, hframe,
      fun r hr => hreturnable r (depsort.mem_of_topo_sort hsorted r hr)⟩

/-- The state of the drifted resource that a revert applies again. -/
def latest_state (rows : sql.Rows Row) (resource_id : String) : Option DesiredStateRow :=
  newest DesiredStateRow.id ((rows .desired_states).filter fun d => d.resource_id == resource_id)

theorem decode_resource_ok {crates : Crates} {resource_json : String} {raw : Value}
    (h : decode_resource crates resource_json = .ok raw) : crates.from_str resource_json = .ok raw := by
  rw [decode_resource] at h
  split at h
  · exact ‹_ = _›.trans (congrArg Except.ok (Except.ok.inj h))
  · cases h

/-- What an accepted revert did: it created an operation of the newest state of
the resource, without asking for an approval. -/
theorem revert_drift_spec {crates : Crates} {identity : Identity} {drift : Option DriftSummary} {req : RevertRequest}
    {out : CreateOperationOutcome} {db after : Store}
    (h : (revert_drift crates identity drift req).run db = (.ok out, after)) :
    identity.has_role .Operator = true ∧ ∃ event, drift = some event ∧ event.resolved_at = none ∧
      ∃ (db₁ : Store) (d : DesiredStateRow) (raw : Value) (routed : ResourceForRouting), db₁.rows = db.rows ∧
        latest_state db.rows event.resource_id = some d ∧ crates.from_str d.spec_json = .ok raw ∧
        extract_routing crates d.environment raw = .ok routed ∧
        (create_operation crates (revert_create identity req event d.environment routed)).run db₁ = (.ok out, after) := by
  rw [revert_drift] at h
  obtain ⟨caller, hrole, hrest⟩ := run_ofExcept_bind_eq_ok_iff.mp h
  obtain ⟨rfl, hoperator⟩ := require_role_ok hrole
  clear h
  refine ⟨hoperator, ?_⟩
  split at hrest
  · cases hrest
  · rename_i event
    refine ⟨event, rfl, ?_⟩
    split at hrest
    · cases hrest
    · rename_i hopen
      refine ⟨hopen, ?_⟩
      obtain ⟨latest, db₁, hfind, hrest⟩ := run_bind_eq_ok_iff.mp hrest
      obtain ⟨hrows, hlatest⟩ := run_of_wp (wp_find_latest_resource_for_revert event.resource_id _) hfind
      split at hrest
      · cases hrest
      · rename_i environment resource_json
        obtain ⟨d, hnewest, rfl, rfl⟩ := hlatest environment resource_json rfl
        obtain ⟨raw, hdecoded, hrest⟩ := run_ofExcept_bind_eq_ok_iff.mp hrest
        obtain ⟨routed, hrouted, hcreate⟩ := run_ofExcept_bind_eq_ok_iff.mp hrest
        exact ⟨_, d, raw, routed, hrows, hnewest, decode_resource_ok hdecoded, hrouted, hcreate⟩

end iac_controlplane.api
