import Iac.Controlplane.Store.Audit
import Iac.Controlplane.Store.Routing

open serde_json iac_core.protocol sql

namespace iac_controlplane.store

/-- The arguments of `create_operation`, and what the call draws from the
outside: the clock at its start and at its audit row, and the ULIDs it mints,
first the operation's and then one for each assignment. -/
structure CreateRequest where
  environment : String
  requested_by : String
  actor : String
  source_commit : Option String
  summary : Option String
  resources : List ResourceForRouting
  matched_policies : List String
  requires_approval : Bool
  canary : Option CanarySpec
  now : jiff.Timestamp
  audit_now : jiff.Timestamp
  op_id : String
  ulid : Nat → String

structure CreateOperationOutcome where
  operation_id : String
  assignment_count : Nat
  unrouted : List (String × String)
  matched_policies : List String
  requires_approval : Bool

def agent_entries (rows : sql.Rows Row) : List AgentEntry :=
  (rows .agents).map fun a => (a.id, a.name, a.environment)

def initial_operation_status (requires_approval : Bool) : OperationStatus :=
  if requires_approval then .pending_approval else .pending

def initial_assignment_status (layer : Int) (batch : Option Int) : AssignmentStatus :=
  if layer = 0 then
    match batch with
    | none => .pending
    | some 0 => .pending
    | some 1 => .pending_canary
    | some _ => .pending_layer
  else .pending_layer

def desired_state_row (op_id : String) (r : ResourceForRouting) (id : Nat) : DesiredStateRow :=
  { id, operation_id := op_id, resource_id := r.resource_id, kind := r.kind,
    environment := r.environment, spec_json := r.resource_json, metadata_json := "\x7b\x7d" }

/-- The loop that stores the resources, routes each and puts it in its bucket. -/
def store_resources (op_id environment : String) (agents : List AgentEntry) :
    List (ResourceForRouting × Int) → Buckets ResourceForRouting → List (String × String) →
      Tx (Buckets ResourceForRouting × List (String × String))
  | [], buckets, unrouted => pure (buckets, unrouted)
  | (r, layer) :: rest, buckets, unrouted => do
    let _ ← sql_insert .desired_states (desired_state_row op_id r)
    match route_resource r environment agents with
    | .ok agent_id => store_resources op_id environment agents rest (push_bucket buckets agent_id layer r) unrouted
    | .error reason => store_resources op_id environment agents rest buckets (unrouted ++ [(r.resource_id, reason)])

/-- The resource as the agent gets it. -/
def dispatched_value (crates : Crates) (resource_json : String) : Except ApiError Value := do
  let value ← json_error (crates.from_str resource_json)
  return strip_routing_hints value

def payload_json (crates : Crates) (resources : List Value) : String :=
  crates.to_string (AssignmentPayload.to_value ⟨resources⟩)

/-- The loop that makes an assignment of each bucket: `values` gives what its
items send to the agent and `row` the columns of the assignment with a given
number, agent, layer and payload. -/
def insert_assignments {α : Type} (crates : Crates) (values : List α → Except ApiError (List Value))
    (row : Nat → String → Int → String → AssignmentRow) : Buckets α → Nat → Tx Nat
  | [], count => pure count
  | (key, items) :: buckets, count => do
    let (agent_id, layer) := ofLex key
    let resources ← Prog.ofExcept (values items)
    let _ ← sql_insert .assignments fun _ => row count agent_id layer (payload_json crates resources)
    insert_assignments crates values row buckets (count + 1)

def dispatched_values (crates : Crates) (items : List ResourceForRouting) : Except ApiError (List Value) :=
  items.mapM fun r => dispatched_value crates r.resource_json

def create_assignments (crates : Crates) (req : CreateRequest) (split : List ((String × Int) × Int)) :
    Buckets ResourceForRouting → Nat → Tx Nat :=
  insert_assignments crates (dispatched_values crates) fun count agent_id layer payload_json =>
    let batch := split.lookup (agent_id, layer)
    { id := req.ulid count, agent_id, operation_id := req.op_id, payload_json, created_at := req.now.to_string,
      status := initial_assignment_status layer batch, kind := "apply", layer, batch }

def create_audit (req : CreateRequest) (assignment_count unrouted_count : Nat) : AuditRecord :=
  { actor := req.actor
    kind := if req.requires_approval then "operation.pending_approval" else "operation.submitted"
    operation_id := some req.op_id
    payload := json [("environment", .string req.environment), ("requested_by", .string req.requested_by),
      ("resource_count", of_nat req.resources.length), ("assignment_count", of_nat assignment_count),
      ("unrouted_count", of_nat unrouted_count), ("source_commit", of_option req.source_commit),
      ("matched_policies", .array (req.matched_policies.map .string))] }

def operation_row (crates : Crates) (req : CreateRequest) : OperationRow :=
  { id := req.op_id, kind := "apply", environment := req.environment, requested_by := req.requested_by,
    status := initial_operation_status req.requires_approval, source_commit := req.source_commit,
    summary := req.summary, created_at := req.now.to_string, requires_approval := req.requires_approval,
    matched_policies_json := crates.to_string (.array (req.matched_policies.map .string)) }

/-- The assignments of an operation that needs no approval. Without any, the
operation is done at once. -/
def dispatch_new (crates : Crates) (req : CreateRequest) (buckets : Buckets ResourceForRouting) : Tx Nat := do
  let split := compute_canary_split (bucket_agents_per_layer buckets) req.canary
  let assignment_count ← create_assignments crates req split buckets 0
  if assignment_count = 0 then
    let _ ← sql_update .operations (fun op => op.id == req.op_id) fun op =>
      { op with status := .succeeded, started_at := some req.now.to_string, finished_at := some req.now.to_string }
    return assignment_count
  else
    return assignment_count

/-- Creating assignments is deferred when the operation requires approval. -/
def initial_assignments (crates : Crates) (req : CreateRequest) (buckets : Buckets ResourceForRouting) : Tx Nat :=
  if req.requires_approval then pure 0 else dispatch_new crates req buckets

def create_operation (crates : Crates) (req : CreateRequest) : Tx CreateOperationOutcome := do
  let agents ← sql_select agent_entries
  let _ ← sql_insert .operations fun _ => operation_row crates req
  let layers ← Prog.ofExcept (depsort.compute_resource_layers crates req.resources)
  let (buckets, unrouted) ← store_resources req.op_id req.environment agents (req.resources.zip layers) [] []
  let assignment_count ← initial_assignments crates req buckets
  record_audit_on crates req.audit_now.to_string (create_audit req assignment_count unrouted.length)
  return { operation_id := req.op_id, assignment_count, unrouted, matched_policies := req.matched_policies,
           requires_approval := req.requires_approval }

end iac_controlplane.store
