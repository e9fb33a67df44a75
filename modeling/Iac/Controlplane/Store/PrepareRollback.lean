import Iac.Controlplane.Store.ApproveOperation
import Iac.Sql.Program
import Mathlib.Data.Prod.Lex
import Mathlib.Data.String.Basic

open sql

namespace iac_controlplane.store

/-- `'succeeded', 'partially_applied'`: the operation left its resources in a state to return to. -/
def applied : OperationStatus → Bool
  | .succeeded | .partially_applied => true
  | _ => false

/-- `'succeeded', 'partially_applied', 'failed'`: the operation is not rolling out any more. -/
def rolled_out : OperationStatus → Bool
  | .succeeded | .partially_applied | .failed => true
  | _ => false

/-- `desired_states ds JOIN operations o ON o.id = ds.operation_id`. -/
def with_operation (rows : sql.Rows Row) : List (DesiredStateRow × OperationRow) :=
  (rows .desired_states).flatMap fun ds =>
    ((rows .operations).filter fun o => o.id == ds.operation_id).map fun o => (ds, o)

/-- The state stands for the resource before the operation `op_id`. -/
def precedes (rows : sql.Rows Row) (op_id resource_id : String) (ds : DesiredStateRow) (o : OperationRow) : Bool :=
  ds.resource_id == resource_id && ds.operation_id != op_id && applied o.status &&
    ((rows .operations).find? fun op => op.id == op_id).any fun op => decide (o.created_at < op.created_at)

/-- The most recent such state, by the time of its operation and then by its id. -/
def prior_state (rows : sql.Rows Row) (op_id resource_id : String) : Option DesiredStateRow :=
  let prior := (with_operation rows).filter fun entry => precedes rows op_id resource_id entry.1 entry.2
  (newest (fun entry => toLex (entry.2.created_at, entry.1.id)) prior).map Prod.fst

/-- The loop over the resources of the operation. -/
def revert_resources (crates : Crates) (op_id : String) :
    List String → List ResourceForRouting → List String → Tx (List ResourceForRouting × List String)
  | [], reverted, orphaned => pure (reverted, orphaned)
  | resource_id :: target_rows, reverted, orphaned => do
    let prior ← sql_select fun db => prior_state db op_id resource_id
    match prior with
    | none => revert_resources crates op_id target_rows reverted (orphaned ++ [resource_id])
    | some prior_row => do
      let r ← Prog.ofExcept (routing_of_row crates prior_row)
      revert_resources crates op_id target_rows (reverted ++ [r]) orphaned

/-- The resources of an operation with the specs they had before it, those it
applied first, and its environment. -/
def prepare_rollback (crates : Crates) (scan : Scan DesiredStateRow) (op_id : String) :
    Tx (List ResourceForRouting × List String × String) := do
  let row ← sql_select fun db => (db .operations).find? fun op => op.id == op_id
  match row with
  | none => Prog.throw .NotFound
  | some row =>
    if rolled_out row.status then do
      let target_rows ← sql_select fun db =>
        (scan.order ((db .desired_states).filter fun d => d.operation_id == op_id)).map DesiredStateRow.resource_id
      let (reverted, orphaned) ← revert_resources crates op_id target_rows [] []
      return (reverted, orphaned, row.environment)
    else
      Prog.throw (.Conflict ("rollback only on terminal operations; current status: " ++ row.status.name))

/-- The environment and spec of the most recent state stored for the resource. -/
def find_latest_resource_for_revert (resource_id : String) : Tx (Option (String × String)) :=
  sql_select fun db =>
    (newest DesiredStateRow.id ((db .desired_states).filter fun d => d.resource_id == resource_id)).map fun d =>
      (d.environment, d.spec_json)

theorem mem_with_operation {rows : sql.Rows Row} {ds : DesiredStateRow} {o : OperationRow} :
    (ds, o) ∈ with_operation rows ↔ ds ∈ rows .desired_states ∧ o ∈ rows .operations ∧ o.id = ds.operation_id := by
  simp only [with_operation, List.mem_flatMap, List.mem_map, List.mem_filter, beq_iff_eq, Prod.mk.injEq]
  constructor
  · rintro ⟨ds', hds, o', ⟨ho, hid⟩, rfl, rfl⟩
    exact ⟨hds, ho, hid⟩
  · rintro ⟨hds, ho, hid⟩
    exact ⟨ds, hds, o, ⟨ho, hid⟩, rfl, rfl⟩

theorem prior_state_spec {rows : sql.Rows Row} {op_id resource_id : String} {ds : DesiredStateRow}
    (h : prior_state rows op_id resource_id = some ds) :
    ds ∈ rows .desired_states ∧ ds.resource_id = resource_id ∧
      ∃ o ∈ rows .operations, o.id = ds.operation_id ∧ applied o.status = true := by
  obtain ⟨⟨ds', o⟩, hnewest, rfl⟩ := Option.map_eq_some_iff.mp h
  obtain ⟨hmem, hprecedes⟩ := List.mem_filter.mp (newest_spec hnewest).1
  obtain ⟨hds, ho, hid⟩ := mem_with_operation.mp hmem
  simp only [precedes, Bool.and_eq_true, beq_iff_eq] at hprecedes
  exact ⟨hds, hprecedes.1.1.1, o, ho, hid, hprecedes.1.2⟩

/-- The resource of an operation that reached a successful end, as it was stored. -/
def Returnable (crates : Crates) (rows : sql.Rows Row) (r : ResourceForRouting) : Prop :=
  ∃ ds ∈ rows .desired_states, routing_of_row crates ds = .ok r ∧
    ∃ o ∈ rows .operations, o.id = ds.operation_id ∧ applied o.status = true

private theorem wp_revert_resources {crates : Crates} {op_id : String} {rows : sql.Rows Row}
    (target_rows : List String) {reverted : List ResourceForRouting} {orphaned : List String}
    (h : ∀ r ∈ reverted, Returnable crates rows r) :
    (revert_resources crates op_id target_rows reverted orphaned).wp rows fun out after =>
      after = rows ∧ ∀ r ∈ out.1, Returnable crates rows r := by
  induction target_rows generalizing reverted orphaned with
  | nil => exact ⟨rfl, h⟩
  | cons resource_id target_rows ih =>
    rw [revert_resources, wp_bind, wp_query]
    cases hprior : prior_state rows op_id resource_id with
    | none => exact ih h
    | some prior_row =>
      simp only
      rw [wp_bind, wp_ofExcept]
      intro r hr
      refine ih fun r' hr' => ?_
      obtain hold | hnew := List.mem_append.mp hr'
      · exact h r' hold
      · obtain rfl := List.mem_singleton.mp hnew
        obtain ⟨hds, -, ho⟩ := prior_state_spec hprior
        exact ⟨prior_row, hds, hr, ho⟩

theorem wp_prepare_rollback (crates : Crates) (scan : Scan DesiredStateRow) (op_id : String) (rows : sql.Rows Row) :
    (prepare_rollback crates scan op_id).wp rows fun out after =>
      after = rows ∧ ∀ r ∈ out.1, Returnable crates rows r := by
  rw [prepare_rollback, wp_bind, wp_query]
  cases (rows .operations).find? fun op => op.id == op_id with
  | none => trivial
  | some row =>
    simp only
    split
    · rw [wp_bind, wp_query, wp_bind]
      exact wp_mono (fun _ _ h => h) (wp_revert_resources _ (by simp))
    · trivial

theorem wp_find_latest_resource_for_revert (resource_id : String) (rows : sql.Rows Row) :
    (find_latest_resource_for_revert resource_id).wp rows fun out after =>
      after = rows ∧ ∀ environment spec_json, out = some (environment, spec_json) →
        ∃ d, newest DesiredStateRow.id ((rows .desired_states).filter fun d => d.resource_id == resource_id) = some d ∧
          d.environment = environment ∧ d.spec_json = spec_json := by
  rw [find_latest_resource_for_revert, wp_query]
  refine ⟨rfl, fun environment spec_json hout => ?_⟩
  obtain ⟨d, hnewest, heq⟩ := Option.map_eq_some_iff.mp hout
  obtain ⟨rfl, rfl⟩ := Prod.mk.inj heq
  exact ⟨d, hnewest, rfl, rfl⟩

end iac_controlplane.store
