import Iac.Controlplane.Identity
import Iac.Controlplane.Store.ApproveOperation
import Iac.Controlplane.Store.CreateOperation
import Mathlib.Data.List.Basic

namespace iac_controlplane.policy

structure PolicyMatch where
  environment : Option String := none
  kind : Option String := none
  resource_count_min : Option Nat := none

/-- A `[[policies]]` block of the server config. -/
structure Policy where
  name : String
  policy_match : PolicyMatch := {}
  requires_approval : Bool := false
  approvers : List String := []

/-- The environment of an operation and the kinds of its resources. -/
structure OperationFacts where
  environment : String
  resources : List String

/-- An empty match block matches nothing. -/
def Policy.matches (p : Policy) (facts : OperationFacts) : Bool :=
  let m := p.policy_match
  if m.environment.any fun env => env != "*" && env != facts.environment then false
  else if m.resource_count_min.any fun min => decide (facts.resources.length < min) then false
  else if m.kind.any fun kind => !facts.resources.contains kind then false
  else if m.environment.isNone && m.resource_count_min.isNone && m.kind.isNone then false
  else true

def evaluate (policies : List Policy) (facts : OperationFacts) : List Policy :=
  policies.filter fun p => p.matches facts

end iac_controlplane.policy

open iac_controlplane.identity iac_controlplane.policy iac_controlplane.store iac_core.protocol serde_json sql

namespace iac_controlplane.api

/-- What `approve_op` reads of an operation. -/
structure OperationView where
  matched_policies : List String

/-- `serde_json::from_str::<Vec<String>>`. -/
def strings_from_str (crates : Crates) (text : String) : Option (List String) :=
  match crates.from_str text with
  | .ok (.array items) => items.mapM Value.as_str
  | _ => none

/-- Policy names that cannot be read are none. -/
def operation_view (crates : Crates) (op : OperationRow) : OperationView :=
  { matched_policies := (strings_from_str crates op.matched_policies_json).getD [] }

def get_operation (crates : Crates) (operation_id : String) : Tx OperationView := do
  let row ← sql_select fun db => (db .operations).find? fun op => op.id == operation_id
  match row with
  | none => Prog.throw .NotFound
  | some row => return operation_view crates row

/-- `metadata.environment` as the resource will carry it. -/
def stamp_environment (environment : String) (raw : Value) : Value :=
  match raw with
  | .object fields =>
    match raw.get "metadata" with
    | none => .object (insert_field "metadata" (json [("environment", .string environment)]) fields)
    | some (.object inner) =>
      .object (insert_field "metadata" (.object (insert_field "environment" (.string environment) inner)) fields)
    | some _ => raw
  | _ => raw

def environment_mismatch (name : Option String) (env op_env : String) : ApiError :=
  .BadRequest ("resource '" ++ name.getD "<unknown>" ++ "' declares metadata.environment=" ++ str.debug env ++
    " but operation is for environment " ++ str.debug op_env ++ "; cross-env submissions are not " ++
    "permitted — either drop the metadata.environment field or submit " ++
    "the operation under the matching environment")

def extract_routing (crates : Crates) (op_env : String) (raw : Value) : Except ApiError ResourceForRouting := do
  let metadata := raw.get "metadata"
  let name_field := (metadata.bind fun m => m.get "name").bind Value.as_str
  let kind ← ((raw.get "kind").bind Value.as_str).elim (.error (.BadRequest "resource missing 'kind'")) .ok
  let name ← name_field.elim (.error (.BadRequest "resource missing 'metadata.name'")) .ok
  let environment ← match (metadata.bind fun m => m.get "environment").bind Value.as_str with
    | none => .ok op_env
    | some env => if env = op_env then .ok env else .error (environment_mismatch name_field env op_env)
  return {
    resource_id := kind ++ "/" ++ environment ++ "/" ++ name, kind, environment,
    resource_json := crates.to_string (stamp_environment environment raw), name,
    host_selector := host_selector_of raw }

/-- A submission after its modules are expanded, and what the call draws from the outside. -/
structure Submission where
  environment : String
  requested_by : String
  source_commit : Option String
  summary : Option String
  resources : List Value
  canary : Option CanarySpec
  now : jiff.Timestamp
  audit_now : jiff.Timestamp
  op_id : String
  ulid : Nat → String

/-- The routing of a submission, in the order of its dependencies. -/
def Submission.routing (crates : Crates) (sub : Submission) : Except ApiError (List ResourceForRouting) := do
  let routing ← sub.resources.mapM (extract_routing crates sub.environment)
  depsort.topo_sort_by_depends_on crates routing

def facts_of (environment : String) (routing : List ResourceForRouting) : OperationFacts :=
  ⟨environment, routing.map ResourceForRouting.kind⟩

/-- The arguments that `submit` calls `create_operation` with. -/
def create_request (policies : List Policy) (identity : Identity) (sub : Submission) (routing : List ResourceForRouting) :
    CreateRequest :=
  let matched := evaluate policies (facts_of sub.environment routing)
  { environment := sub.environment, requested_by := sub.requested_by, actor := identity.audit_actor,
    source_commit := sub.source_commit, summary := sub.summary, resources := routing,
    matched_policies := matched.map Policy.name, requires_approval := matched.any Policy.requires_approval,
    canary := sub.canary, now := sub.now, audit_now := sub.audit_now, op_id := sub.op_id, ulid := sub.ulid }

def submit (crates : Crates) (policies : List Policy) (identity : Identity) (sub : Submission) :
    Tx CreateOperationOutcome := do
  let identity ← Prog.ofExcept (require_role identity .Operator)
  if sub.environment = "" then
    Prog.throw (.BadRequest "environment must not be empty")
  else if sub.resources.isEmpty then
    Prog.throw (.BadRequest "resources must not be empty")
  else do
    let routing ← Prog.ofExcept (sub.routing crates)
    create_operation crates (create_request policies identity sub routing)

/-- The policy has approvers, and the caller is not one of them. -/
def excludes (caller : String) (policy : Policy) : Bool :=
  if policy.approvers.isEmpty then false else !policy.approvers.contains caller

/-- The loop over the matched names; a name without a policy is skipped. -/
def violated (policies : List Policy) (caller : String) (matched_policies : List String) : List String :=
  matched_policies.filter fun matched_name =>
    match policies.find? fun p => p.name == matched_name with
    | none => false
    | some policy => excludes caller policy

/-- `req` carries what the handler passes on to the store besides the caller. -/
def approve_op (crates : Crates) (policies : List Policy) (identity : Identity) (req : ApproveRequest) : Tx Nat := do
  let identity ← Prog.ofExcept (require_role identity .Approver)
  let req := { req with approver_display := identity.display_name, actor := identity.audit_actor }
  if identity.has_role .Admin then
    approve_operation crates req
  else do
    let view ← get_operation crates req.op_id
    if (violated policies identity.display_name view.matched_policies).isEmpty then
      approve_operation crates req
    else
      Prog.throw .Forbidden

end iac_controlplane.api
