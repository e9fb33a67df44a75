import Iac.Controlplane.Identity
import Iac.Core.Json
import Iac.Sql.Program

namespace iac_controlplane.store

inductive AssignmentStatus where
  | pending
  | fetched
  | pending_layer
  | pending_canary
  | succeeded
  | partially_applied
  | failed
  | cancelled
  deriving DecidableEq, Repr

inductive OperationStatus where
  | pending
  | pending_approval
  | running
  | succeeded
  | partially_applied
  | failed
  | rejected
  deriving DecidableEq, Repr

def OperationStatus.name : OperationStatus → String
  | .pending => "pending"
  | .pending_approval => "pending_approval"
  | .running => "running"
  | .succeeded => "succeeded"
  | .partially_applied => "partially_applied"
  | .failed => "failed"
  | .rejected => "rejected"

structure AgentRow where
  id : String
  name : String
  environment : String
  token_hash : String := ""
  token_expires_at : Option String := none
  kind : String := "pull"

structure OperationRow where
  id : String
  kind : String
  environment : String
  requested_by : String
  status : OperationStatus
  source_commit : Option String
  summary : Option String
  created_at : String
  started_at : Option String := none
  finished_at : Option String := none
  requires_approval : Bool
  approved_by : Option String := none
  approved_at : Option String := none
  rejected_by : Option String := none
  rejected_at : Option String := none
  rejection_reason : Option String := none
  approval_reason : Option String := none
  matched_policies_json : String

structure DesiredStateRow where
  id : Nat
  operation_id : String
  resource_id : String
  kind : String
  environment : String
  spec_json : String
  metadata_json : String

structure AssignmentRow where
  id : String
  agent_id : String
  operation_id : String
  payload_json : String
  created_at : String
  fetched_at : Option String := none
  completed_at : Option String := none
  status : AssignmentStatus
  kind : String
  result_json : Option String := none
  expires_at : Option String := none
  layer : Int := 0
  batch : Option Int := none

structure AuditEventRow where
  id : Nat
  timestamp : String
  actor : String
  kind : String
  severity : String
  operation_id : Option String
  agent_id : Option String
  resource_id : Option String
  drift_id : Option Int
  payload_json : String
  prev_hash : Option String
  row_hash : Option String

structure AuditChainTip where
  id : Nat
  last_id : Nat
  last_hash : String
  updated_at : String

inductive Table where
  | agents
  | operations
  | desired_states
  | assignments
  | audit_events
  | audit_chain_tip
  deriving DecidableEq, Repr

@[reducible] def Row : Table → Type
  | .agents => AgentRow
  | .operations => OperationRow
  | .desired_states => DesiredStateRow
  | .assignments => AssignmentRow
  | .audit_events => AuditEventRow
  | .audit_chain_tip => AuditChainTip

/-- The PRIMARY KEY and UNIQUE constraints of the migrations. The generated
ids of `desired_states` and `audit_events` come from a sequence and cannot clash. -/
def clash : (t : Table) → Row t → Row t → Bool
  | .agents, a, b => a.id == b.id || a.name == b.name
  | .operations, a, b => a.id == b.id
  | .desired_states, a, b => a.operation_id == b.operation_id && a.resource_id == b.resource_id
  | .assignments, a, b => a.id == b.id
  | .audit_events, _, _ => false
  | .audit_chain_tip, a, b => a.id == b.id

instance : sql.Schema Row := ⟨clash⟩

abbrev Store := sql.Db Row

/-- A transaction of the store that answers with an `α`. -/
abbrev Tx (α : Type) := sql.Prog Row ApiError α

/-- The error an INSERT answers with when it violates a constraint. -/
def unique_violation : ApiError := .Sqlx "UNIQUE constraint failed"

abbrev sql_select {α : Type} (q : sql.Rows Row → α) : Tx α := sql.Prog.query q

abbrev sql_update (t : Table) (which : Row t → Bool) (change : Row t → Row t) : Tx (List (Row t)) :=
  sql.Prog.update_where t which change

abbrev sql_delete (t : Table) (which : Row t → Bool) : Tx (List (Row t)) :=
  sql.Prog.delete_where t which

abbrev sql_insert (t : Table) (values : Nat → Row t) : Tx (Row t) :=
  sql.Prog.insert_into unique_violation t values

/-- The store the migrations leave: empty, with the single row of the audit tip. -/
def migrated : Store where
  rows
    | .agents => []
    | .operations => []
    | .desired_states => []
    | .assignments => []
    | .audit_events => []
    | .audit_chain_tip => [⟨1, 0, "", "1970-01-01T00:00:00Z"⟩]
  seq _ := 1

section Clash

variable (t : Table)

@[simp] theorem clash_eq (a b : Row t) : @sql.Schema.clash Table Row _ t a b = clash t a b := rfl

end Clash

end iac_controlplane.store
