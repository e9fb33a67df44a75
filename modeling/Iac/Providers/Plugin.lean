import Iac.Core.Text
import Iac.Providers.Lifecycle

open iac_core iac_core.executor serde_json effect

namespace iac_core

def DiffKind.of_name : String → Option DiffKind
  | "no_change" => some .NoChange
  | "create" => some .Create
  | "update" => some .Update
  | "delete" => some .Delete
  | _ => none

/-- A flag that is missing has its default. -/
def bool_field (v : Value) (key : String) (default : Bool) : Option Bool :=
  match v.get key with
  | none => some default
  | some (.bool b) => some b
  | some _ => none

/-- A side of a change: missing or null is none. -/
def side (v : Value) (key : String) : Option Value :=
  match v.get key with
  | none | some .null => none
  | some w => some w

def FieldChange.of_value (v : Value) : Option FieldChange := do
  let field ← (v.get "field").bind Value.as_str
  let sensitive ← bool_field v "sensitive" false
  return { field, from_value := side v "from", to_value := side v "to", sensitive }

/-- The entries of an array, none when the field is missing. -/
def array_field (v : Value) (key : String) : Option (List Value) :=
  match v.get key with
  | none => some []
  | some w => w.as_array

/-- `serde_json::from_value::<Diff>`. -/
def Diff.of_value (v : Value) : Option Diff := do
  let kind ← (v.get "kind").bind fun kind => kind.as_str.bind DiffKind.of_name
  let changes ← (← array_field v "changes").mapM FieldChange.of_value
  let reasons ← (← array_field v "reasons").mapM Value.as_str
  let reversible ← bool_field v "reversible" true
  return { kind, changes, reasons, reversible }

/-- The field-level changes between two objects. -/
def collect_top_level_changes (want «have» : Value) : List FieldChange :=
  match want, «have» with
  | .object w, .object h =>
    (w.filterMap fun (k, wv) =>
      let hv := (Value.object h).get k
      if hv ≠ some wv then some ⟨"spec." ++ k, hv, some wv, false⟩ else none) ++
    h.filterMap fun (k, hv) =>
      if ((Value.object w).get k).isNone then some ⟨"spec." ++ k, some hv, none, false⟩ else none
  | _, _ => []

end iac_core

namespace iac_providers.plugin

/-- The transport of a plugin. -/
structure PluginRuntime (Host : Type) where
  kind : String
  call : String → Value → Prog Host Error Value
  supports : String → Bool

structure ObserveResp where
  present : Bool
  spec : Value

def ObserveResp.of_value (v : Value) : Option ObserveResp :=
  match v with
  | .object _ => (bool_field v "present" false).map fun present => ⟨present, (v.get "spec").getD .null⟩
  | _ => none

structure ApplyResp where
  status : String
  message : String

/-- A text that is missing is empty. -/
def text_field (v : Value) (key : String) : Option String :=
  match v.get key with
  | none => some ""
  | some w => w.as_str

def ApplyResp.of_value (v : Value) : Option ApplyResp :=
  match v with
  | .object _ => do return ⟨← text_field v "status", ← text_field v "message"⟩
  | _ => none

/-- Whether the spec says `state: absent`. -/
def desired_absent (spec : Value) : Bool := (spec.get "state").bind Value.as_str == some "absent"

/-- `diff` without the plugin: presence, then equality of the specs. -/
def fallback_diff (desired : Value) (observed : ObservedState) : Diff :=
  match observed.present, desired_absent desired with
  | false, true => .no_change
  | false, false => { kind := .Create, changes := [], reasons := ["resource absent on host"], reversible := true }
  | true, true =>
    { kind := .Delete, changes := [], reasons := ["state=absent and resource present"], reversible := true }
  | true, false =>
    if desired = observed.spec then .no_change
    else
      { kind := .Update, changes := collect_top_level_changes desired observed.spec
        reasons := ["spec differs from observed"], reversible := true }

def phase_of_action : String → Option String
  | "plugin-create" => some "create"
  | "plugin-update" => some "update"
  | "plugin-delete" => some "delete"
  | _ => none

def snapshot (prior_present : Bool) (prior_spec : Value) : Value :=
  json [("prior_present", .bool prior_present), ("prior_spec", prior_spec)]

section Operations

variable {Host : Type} (runtime : PluginRuntime Host) (metadata : Resource → Value)

def provider_error (message : String) : Error := .Provider runtime.kind message

def envelope (r : Resource) : Value :=
  json [("kind", .string runtime.kind), ("metadata", metadata r), ("spec", r.spec)]

def decode {α : Type} (method : String) (of_value : Value → Option α) (raw : Value) : Prog Host Error α :=
  match of_value raw with
  | some a => pure a
  | none => throw (provider_error runtime ("decode " ++ method))

def observe_inner (r : Resource) : Prog Host Error ObserveResp := do
  let raw ← runtime.call "observe" (envelope runtime metadata r)
  decode runtime "observe" ObserveResp.of_value raw

def observe (r : Resource) : Prog Host Error ObservedState := do
  let resp ← observe_inner runtime metadata r
  return if resp.present then ⟨true, resp.spec, []⟩ else ⟨false, .null, []⟩

def diff_params (r : Resource) (observed : ObservedState) : Value :=
  json [("metadata", metadata r), ("desired_spec", r.spec),
    ("observed", json [("present", .bool observed.present), ("spec", observed.spec)])]

def diff (r : Resource) (observed : ObservedState) : Prog Host Error Diff :=
  if runtime.supports "diff" then do
    let raw ← runtime.call "diff" (diff_params metadata r observed)
    decode runtime "diff" Diff.of_value raw
  else pure (fallback_diff r.spec observed)

def plan (id : Ulid) (diff : Diff) : List Step :=
  let step (action : String) := [Step.new id action (action ++ " via " ++ runtime.kind) .null]
  match diff.kind with
  | .NoChange => []
  | .Create => step "plugin-create"
  | .Update => step "plugin-update"
  | .Delete => step "plugin-delete"

def pre_apply (r : Resource) : Prog Host Error Value :=
  if runtime.supports "pre_apply" then runtime.call "pre_apply" (envelope runtime metadata r)
  else do
    let prior ← observe_inner runtime metadata r
    return snapshot prior.present prior.spec

def apply_params (r : Resource) (spec : Value) (phase : String) : Value :=
  json [("kind", .string runtime.kind), ("metadata", metadata r), ("spec", spec), ("phase", .string phase)]

def apply (r : Resource) (step : Step) : Prog Host Error StepResult :=
  match phase_of_action step.action with
  | none => throw (provider_error runtime ("unknown step action " ++ str.debug step.action))
  | some phase => do
    let raw ← runtime.call "apply" (apply_params runtime metadata r r.spec phase)
    let resp ← decode runtime "apply" ApplyResp.of_value raw
    if resp.status = "ok" then
      return .ok (if resp.message = "" then phase ++ " via " ++ runtime.kind else resp.message)
    else
      return .failed (if resp.message = "" then phase ++ " via " ++ runtime.kind ++ " reported failure" else resp.message)

def verify (r : Resource) : Prog Host Error VerifyOutcome :=
  if runtime.supports "verify" then do
    let raw ← runtime.call "verify" (envelope runtime metadata r)
    let resp ← decode runtime "verify" ObserveResp.of_value raw
    return if resp.present && r.spec = resp.spec then .Match else .Mismatch []
  else do
    let observed ← observe runtime metadata r
    let d ← diff runtime metadata r observed
    return if d.kind = .NoChange then .Match else .Mismatch d.changes

def rollback_params (r : Resource) (checkpoint : Value) : Value :=
  json [("kind", .string runtime.kind), ("metadata", metadata r), ("checkpoint", checkpoint)]

def rollback (r : Resource) (checkpoint : Value) : Prog Host Error Unit :=
  if runtime.supports "rollback" then do
    let _ ← runtime.call "rollback" (rollback_params runtime metadata r checkpoint)
  else do
    let prior_present := match checkpoint.get "prior_present" with
      | some (.bool b) => b
      | _ => false
    let prior_spec := (checkpoint.get "prior_spec").getD .null
    let phase := if prior_present then "update" else "delete"
    let raw ← runtime.call "apply" (apply_params runtime metadata r prior_spec phase)
    let resp ← decode runtime "rollback-apply" ApplyResp.of_value raw
    if resp.status ≠ "ok" then
      throw (provider_error runtime ("rollback failed: " ++ (if resp.message = "" then "no message" else resp.message)))

def provider (id : Ulid) : executor.Provider Host where
  observe r := perform (observe runtime metadata r)
  diff r observed := perform (diff runtime metadata r observed)
  plan _ d host := (.ok (plan runtime id d), host)
  pre_apply r _ _ := perform (pre_apply runtime metadata r)
  apply r step _ := perform (apply runtime metadata r step)
  verify r := perform (verify runtime metadata r)
  rollback r checkpoint _ := perform (rollback runtime metadata r checkpoint.data)

end Operations

end iac_providers.plugin
