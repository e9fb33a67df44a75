import Iac.Collections.Effect
import Iac.Collections.Undo
import Iac.Core.Json
import Iac.Core.Provider
import Iac.Core.Timestamp
import Mathlib.Algebra.GroupWithZero.Nat
import Mathlib.Data.Fin.Basic
import Mathlib.Data.List.AList

open serde_json effect

namespace iac_core.executor

inductive Error where
  | Io (path source : String)
  | Yaml (path source : String)
  | Json (message : String)
  | Manifest (path message : String)
  | Validation (resource message : String)
  | UnknownKind (kind : String)
  | Provider (provider message : String)
  | Checkpoint (resource message : String)
  | Command (message : String)

def Error.to_string : Error → String
  | .Io path source => "io error at " ++ path ++ ": " ++ source
  | .Yaml path source => "yaml parse error in " ++ path ++ ": " ++ source
  | .Json message => "json error: " ++ message
  | .Manifest path message => "manifest error in " ++ path ++ ": " ++ message
  | .Validation resource message => "validation failed for " ++ resource ++ ": " ++ message
  | .UnknownKind kind => "unknown resource kind: " ++ kind
  | .Provider provider message => "provider " ++ provider ++ " failed: " ++ message
  | .Checkpoint resource message => "checkpoint missing for resource " ++ resource ++ ": " ++ message
  | .Command message => "command failed: " ++ message

/-- A ULID, as the number that it is ordered by. -/
abbrev Ulid := Fin (2 ^ 128)

instance ulid_zero : NeZero (2 ^ 128) := ⟨by decide⟩

def crockford : List Char := "0123456789ABCDEFGHJKMNPQRSTVWXYZ".toList

/-- 26 digits of Crockford's base 32. -/
def ulid_text (id : Ulid) : String :=
  String.ofList ((List.range 26).map fun i => crockford.getD (id.val / 32 ^ (25 - i) % 32) '0')

inductive StepStatus where
  | Pending
  | Running
  | Succeeded
  | Failed
  | Skipped
  | RolledBack
  deriving DecidableEq, Repr

structure Step where
  id : Ulid
  action : String
  description : String
  reversible : Bool
  payload : Value
  status : StepStatus
  started_at : Option jiff.Timestamp
  finished_at : Option jiff.Timestamp

structure StepResult where
  status : StepStatus
  message : String
  data : Value
  error : Option String

def StepResult.failed (error : String) : StepResult := ⟨.Failed, error, .null, some error⟩

inductive OperationStatus where
  | Pending
  | Planning
  | WaitingApproval
  | Running
  | PartiallyApplied
  | Failed
  | RollingBack
  | RolledBack
  | Succeeded
  | Cancelled
  deriving DecidableEq, Repr

structure Operation where
  id : Ulid
  kind : String
  status : OperationStatus
  source_commit : Option String
  requested_by : String
  created_at : jiff.Timestamp
  started_at : Option jiff.Timestamp
  finished_at : Option jiff.Timestamp

structure Checkpoint where
  id : Ulid
  resource_id : ResourceId
  operation_id : Ulid
  created_at : jiff.Timestamp
  data : Value
  resource_spec : Option Value

inductive VerifyOutcome where
  | Match
  | Mismatch (changes : List FieldChange)

structure VerifySummary where
  is_matched : Bool
  mismatch : Option (List FieldChange)

def VerifySummary.of : VerifyOutcome → VerifySummary
  | .Match => ⟨true, none⟩
  | .Mismatch changes => ⟨false, some changes⟩

/-- The directory `operations/<ulid>/checkpoints/<resource>/<step-ulid>`. -/
structure Workspace where
  operation_id : Ulid
  resource_key : String
  step_id : Ulid
  deriving DecidableEq

structure ApplyContext where
  operation_id : Ulid
  workspace : Workspace

/-- A call of a provider: it may change the host, also when it fails. -/
abbrev Call (Host α : Type) := Host → Except Error α × Host

/-- The lifecycle of a kind of resource. -/
structure Provider (Host : Type) where
  observe : Resource → Call Host ObservedState
  diff : Resource → ObservedState → Call Host Diff
  plan : Resource → Diff → Call Host (List Step)
  pre_apply : Resource → Step → ApplyContext → Call Host Value
  apply : Resource → Step → ApplyContext → Call Host StepResult
  verify : Resource → Call Host VerifyOutcome
  rollback : Resource → Checkpoint → Workspace → Call Host Unit

inductive ItemStatus where
  | NoChange
  | Succeeded
  | Failed
  | Skipped
  deriving DecidableEq, Repr

structure StepRecord where
  step : Step
  result : StepResult

structure ApplyItem where
  resource_id : ResourceId
  kind : String
  status : ItemStatus
  steps : List StepRecord
  verify : Option VerifySummary
  error : Option String

structure ApplyResult where
  operation : Operation
  items : List ApplyItem

structure AppliedState where
  spec : Value
  generation : Nat
  operation_id : Option Ulid
  applied_at : jiff.Timestamp

/-- `operations/<ulid>`: the workspaces under `checkpoints`, with what reading
`checkpoint.json` gives where there is one, and the other two files. -/
structure OperationDir where
  workspaces : AList fun _ : Workspace => Option (Except Error Checkpoint) := ∅
  operation : Option Operation := none
  apply_result : Option ApplyResult := none

/-- What the executor does, beside what it writes. -/
inductive Event where
  | observe (resource : Resource)
  | record (workspace : Workspace) (checkpoint : Checkpoint)
  | rollback (resource : Resource) (checkpoint : Checkpoint) (workspace : Workspace) (done : Bool)

/-- The host, the state directory of the executor, how many ids and times have
been drawn, and the events so far. -/
structure World (Host : Type) where
  host : Host
  applied : AList fun _ : String => AppliedState := ∅
  operations : AList fun _ : Ulid => OperationDir := ∅
  drawn : Nat := 0
  events : List Event := []

abbrev Exec (Host α : Type) := effect.Prog (World Host) Error α

/-- The executor, with what `Ulid::new()` and `Timestamp::now()` give it in turn. -/
structure Executor (Host : Type) where
  registry : String → Option (Provider Host)
  state_dir : String
  actor : String
  sha256_hex : List UInt8 → String
  ulid : Nat → Ulid
  now : Nat → jiff.Timestamp

end iac_core.executor

namespace iac_core

def sanitize (s : String) : String :=
  String.ofList (s.toList.map fun c => if c.isAlphanum || c = '-' || c = '.' then c else '_')

/-- The name of the resource in paths. -/
def ResourceId.fs_key (sha256_hex : List UInt8 → String) (id : ResourceId) : String :=
  let digest := sha256_hex (id.kind ++ "\x00" ++ id.environment ++ "\x00" ++ id.name).toUTF8.toList
  sanitize id.kind ++ "__" ++ sanitize id.environment ++ "__" ++ sanitize id.name ++ "__" ++
    String.ofList (digest.toList.take 12)

end iac_core

namespace iac_core.executor

variable {Host : Type} (exec : Executor Host)

/-- A call of a provider on the host of the world. -/
def call {α : Type} (f : Call Host α) : Exec Host α :=
  of_fun fun w => ((f w.host).1, { w with host := (f w.host).2 })

def emit (event : Event) : Exec Host Unit := modify fun w => { w with events := w.events ++ [event] }

def draw {α : Type} (source : Nat → α) : Exec Host α :=
  of_fun fun w => (.ok (source w.drawn), { w with drawn := w.drawn + 1 })

def require (kind : String) : Exec Host (Provider Host) :=
  match exec.registry kind with
  | some provider => pure provider
  | none => throw (.UnknownKind kind)

def secret_fields_annotation : String := "iac.dev/secret-fields"

/-- Every change of a resource with resolved secrets is sensitive. -/
def mark_secret_changes (resource : Resource) (diff : Diff) : Diff :=
  if (resource.annotations.lookup secret_fields_annotation).any fun v => !v.isEmpty then
    { diff with changes := diff.changes.map fun change => { change with sensitive := true } }
  else diff

/-- A write under the directory of the operation, which is created when it is missing. -/
def in_operation (id : Ulid) (change : OperationDir → OperationDir) : Exec Host Unit :=
  modify fun w => { w with operations := w.operations.insert id (change ((w.operations.lookup id).getD {})) }

def write_applied (resource : Resource) (op_id : Ulid) : Exec Host Unit := do
  let applied_at ← draw exec.now
  let value : AppliedState := { spec := resource.spec, generation := 1, operation_id := some op_id, applied_at }
  modify fun w => { w with applied := w.applied.insert (resource.id.fs_key exec.sha256_hex) value }

def Executor.workspace (op : Operation) (rid : ResourceId) (step : Step) : Workspace :=
  ⟨op.id, rid.fs_key exec.sha256_hex, step.id⟩

def ensure_workspace (workspace : Workspace) : Exec Host Unit :=
  in_operation workspace.operation_id fun dir =>
    if workspace ∈ dir.workspaces then dir else { dir with workspaces := dir.workspaces.insert workspace none }

def write_checkpoint (workspace : Workspace) (checkpoint : Checkpoint) : Exec Host Unit := do
  in_operation workspace.operation_id fun dir =>
    { dir with workspaces := dir.workspaces.insert workspace (some (.ok checkpoint)) }
  emit (.record workspace checkpoint)

def Checkpoint.with_spec (resource_id : ResourceId) (operation_id : Ulid) (data resource_spec : Value) :
    Exec Host Checkpoint := do
  let id ← draw exec.ulid
  let created_at ← draw exec.now
  return { id, resource_id, operation_id, created_at, data, resource_spec := some resource_spec }

def step_result : Except Error StepResult → StepResult
  | .ok r => r
  | .error e => .failed ("apply failed: " ++ e.to_string)

def StepResult.failure (result : StepResult) : Option String :=
  if result.status = .Failed then some (result.error.getD "") else none

/-- A step of the loop in `apply_one`: its record, and the error when it fails. -/
def run_step (provider : Provider Host) (resource : Resource) (op : Operation) (step : Step) :
    Exec Host (StepRecord × Option String) := do
  let workspace := exec.workspace op resource.id step
  ensure_workspace workspace
  let ctx : ApplyContext := ⟨op.id, workspace⟩
  let started_at ← draw exec.now
  let s := { step with started_at := some started_at, status := .Running }
  match ← attempt (call (provider.pre_apply resource s ctx)) with
  | .error e =>
    let msg := "pre_apply failed: " ++ e.to_string
    let finished_at ← draw exec.now
    return (⟨{ s with status := .Failed, finished_at := some finished_at }, .failed msg⟩, some msg)
  | .ok pre_data =>
    let checkpoint ← Checkpoint.with_spec exec resource.id op.id pre_data resource.spec
    write_checkpoint workspace checkpoint
    let result ← attempt (call (provider.apply resource s ctx))
    let finished_at ← draw exec.now
    return (⟨{ s with status := (step_result result).status, finished_at := some finished_at }, step_result result⟩,
      (step_result result).failure)

/-- The loop over the steps of a resource, up to the first that fails. -/
def run_steps (provider : Provider Host) (resource : Resource) (op : Operation) :
    List Step → List StepRecord → Exec Host (List StepRecord × Option String)
  | [], records => return (records, none)
  | step :: steps, records => do
    let (record, failure) ← run_step exec provider resource op step
    match failure with
    | some error => return (records ++ [record], some error)
    | none => run_steps provider resource op steps (records ++ [record])

/-- The end of `apply_one` after steps that have not failed. -/
def verify_one (provider : Provider Host) (resource : Resource) (op : Operation) (records : List StepRecord) :
    Exec Host ApplyItem := do
  let verify ← call (provider.verify resource)
  if (VerifySummary.of verify).is_matched then do
    write_applied exec resource op.id
    return { resource_id := resource.id, kind := resource.kind, status := .Succeeded, steps := records,
             verify := some (.of verify), error := none }
  else
    return { resource_id := resource.id, kind := resource.kind, status := .Failed, steps := records,
             verify := some (.of verify), error := none }

/-- The part of `apply_one` for a resource that has changes. -/
def apply_changes (provider : Provider Host) (resource : Resource) (op : Operation) (diff : Diff) : Exec Host ApplyItem := do
  let steps ← call (provider.plan resource diff)
  let outcome ← run_steps exec provider resource op steps []
  match outcome with
  | (records, some error) =>
    return { resource_id := resource.id, kind := resource.kind, status := .Failed, steps := records, verify := none,
             error := some error }
  | (records, none) => verify_one exec provider resource op records

def apply_one (resource : Resource) (op : Operation) : Exec Host ApplyItem := do
  let provider ← require exec resource.kind
  emit (.observe resource)
  let observed ← call (provider.observe resource)
  let diff ← call (provider.diff resource observed)
  if (mark_secret_changes resource diff).kind = .NoChange then do
    write_applied exec resource op.id
    return { resource_id := resource.id, kind := resource.kind, status := .NoChange, steps := [], verify := none,
             error := none }
  else
    apply_changes exec provider resource op (mark_secret_changes resource diff)

def Operation.new (kind : String) : Exec Host Operation := do
  let id ← draw exec.ulid
  let created_at ← draw exec.now
  return { id, kind, status := .Pending, source_commit := none, requested_by := exec.actor, created_at,
           started_at := none, finished_at := none }

/-- The loop of `apply` over the resources, with its accumulators. -/
def apply_all (op : Operation) : List Resource → List ApplyItem → Bool → Bool → Exec Host (List ApplyItem × Bool × Bool)
  | [], items, any_failed, any_changed => return (items, any_failed, any_changed)
  | resource :: resources, items, any_failed, any_changed => do
    let item ← apply_one exec resource op
    apply_all op resources (items ++ [item]) (any_failed || item.status = .Failed) (any_changed || item.status = .Succeeded)

def final_status : Bool → Bool → OperationStatus
  | true, true => .PartiallyApplied
  | true, false => .Failed
  | false, _ => .Succeeded

def executor_operations_keep : Nat := 200

/-- The oldest operations beyond the newest `keep`. -/
def expired_operations (keep : Nat) (operations : AList fun _ : Ulid => OperationDir) : List Ulid :=
  (operations.keys.insertionSort (· ≤ ·)).take (operations.keys.length - keep)

def gc_operation_dirs (keep : Nat) : Exec Host Unit :=
  modify fun w => { w with operations := (expired_operations keep w.operations).foldl (fun dirs id => dirs.erase id) w.operations }

/-- The end of `apply`, after its loop. -/
def finish_apply (op : Operation) (items : List ApplyItem) (any_failed any_changed : Bool) : Exec Host ApplyResult := do
  let finished_at ← draw exec.now
  let op := { op with finished_at := some finished_at, status := final_status any_failed any_changed }
  in_operation op.id fun dir => { dir with operation := some op }
  in_operation op.id fun dir => { dir with apply_result := some ⟨op, items⟩ }
  gc_operation_dirs executor_operations_keep
  return ⟨op, items⟩

def apply (resources : List Resource) : Exec Host ApplyResult := do
  let op ← Operation.new exec "apply"
  let started_at ← draw exec.now
  let op := { op with started_at := some started_at, status := .Running }
  in_operation op.id id
  let outcome ← apply_all exec op resources [] false false
  finish_apply exec op outcome.1 outcome.2.1 outcome.2.2

/-- The resource that a checkpoint was taken of, as far as it is known. -/
def synthesize_resource (cp : Checkpoint) : Resource where
  api_version := "iac.example/v1"
  kind := cp.resource_id.kind
  name := cp.resource_id.name
  environment := cp.resource_id.environment
  annotations := []
  spec := cp.resource_spec.getD .null

/-- The checkpoints of the workspaces that have one, up to the first that cannot be read. -/
def read_checkpoints : List (Workspace × Option (Except Error Checkpoint)) → Except Error (List (Workspace × Checkpoint))
  | [] => .ok []
  | (_, none) :: rest => read_checkpoints rest
  | (workspace, some content) :: rest => do
    let cp ← content
    let found ← read_checkpoints rest
    return (workspace, cp) :: found

/-- The loop of `rollback` over the checkpoints, with the failures so far. -/
def rollback_all : List (Workspace × Checkpoint) → List String → Exec Host (List String)
  | [], errors => return errors
  | (workspace, cp) :: rest, errors => do
    let resource := synthesize_resource cp
    match exec.registry resource.kind with
    | none => rollback_all rest (errors ++ [resource.id.to_string ++ ": " ++ (Error.UnknownKind resource.kind).to_string])
    | some provider =>
      let result ← attempt (call (provider.rollback resource cp workspace))
      emit (.rollback resource cp workspace result.toBool)
      match result with
      | .ok () => rollback_all rest errors
      | .error e => rollback_all rest (errors ++ [resource.id.to_string ++ ": " ++ e.to_string])

def rollback_failed (errors : List String) : Error :=
  .Command ("rollback completed with " ++ toString errors.length ++ " checkpoint failure(s): " ++ "; ".intercalate errors)

def missing_operation (state_dir : String) (operation_id : Ulid) : Error :=
  .Checkpoint ("operation " ++ ulid_text operation_id)
    ("operation directory " ++ state_dir ++ "/operations/" ++ ulid_text operation_id ++ " does not exist")

/-- The order in which the file system lists the workspaces of an operation. -/
abbrev Listing := List (Workspace × Option (Except Error Checkpoint)) → List (Workspace × Option (Except Error Checkpoint))

def OperationDir.entries (dir : OperationDir) : List (Workspace × Option (Except Error Checkpoint)) :=
  dir.workspaces.entries.map fun entry => (entry.1, entry.2)

/-- Newest checkpoint first, by id; the sort is stable. -/
def newest_checkpoints_first (checkpoints : List (Workspace × Checkpoint)) : List (Workspace × Checkpoint) :=
  undo.newest_first (fun entry => entry.2.id) checkpoints

def rollback (listing : Listing) (operation_id : Ulid) : Exec Host Unit := do
  let w ← get
  match w.operations.lookup operation_id with
  | none => throw (missing_operation exec.state_dir operation_id)
  | some dir =>
    match read_checkpoints (listing dir.entries) with
    | .error e => throw e
    | .ok checkpoints =>
      let errors ← rollback_all exec (newest_checkpoints_first checkpoints) []
      if errors.isEmpty then return () else throw (rollback_failed errors)

end iac_core.executor
