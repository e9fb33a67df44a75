import Iac.Controlplane.Identity
import Iac.Core.Template

open iac_core.template serde_json

namespace iac_controlplane.modules

structure ModuleParameter where
  name : String
  required : Bool
  default : Option Value
  description : String

/-- A `[[modules]]` entry, without what the catalogue alone shows of it. -/
structure Module where
  name : String
  parameters : List ModuleParameter
  template : String

def RESERVED_VARS : List String := ["name", "environment"]

/-- The inner loop of `template_variables`: the index of the next closing from
`j` on, or one too far to the right for one. -/
def find_closing (bytes : List Char) : Nat → Nat → Nat
  | 0, j => j
  | fuel + 1, j =>
    if j + 1 < bytes.length then
      if bytes[j]? = some '\x7d' ∧ bytes[j + 1]? = some '\x7d' then j else find_closing bytes fuel (j + 1)
    else j

/-- The outer loop of `template_variables`. The braces are single bytes, so the
characters stand for the bytes. -/
def variables_from (bytes : List Char) : Nat → Nat → List String → List String
  | 0, _, out => out
  | fuel + 1, i, out =>
    if i + 1 < bytes.length then
      if bytes[i]? = some '\x7b' ∧ bytes[i + 1]? = some '\x7b' then
        let start := i + 2
        let j := find_closing bytes bytes.length start
        if bytes.length ≤ j + 1 then out
        else
          let var := str.trim ((bytes.drop start).take (j - start))
          variables_from bytes fuel (j + 2) (if var.isEmpty then out else out ++ [String.ofList var])
      else variables_from bytes fuel (i + 1) out
    else out

def template_variables (template : String) : List String :=
  variables_from template.toList template.toList.length 0 []

/-- The check of one parameter, after the names of those before it. -/
def validate_parameter (alphanumeric : Char → Bool) (seen : List String) (p : ModuleParameter) : Except String Unit :=
  if ¬ p.name.toList.all fun c => alphanumeric c || c == '_' then
    .error ("parameter " ++ str.debug p.name ++ " name must be alphanumeric/underscore")
  else if p.name ∈ RESERVED_VARS then
    .error ("parameter " ++ str.debug p.name ++ " collides with reserved metadata var")
  else if p.name ∈ seen then
    .error ("parameter " ++ str.debug p.name ++ " declared twice")
  else .ok ()

def validate_parameters (alphanumeric : Char → Bool) : List String → List ModuleParameter → Except String Unit
  | _, [] => .ok ()
  | seen, p :: parameters => do
    validate_parameter alphanumeric seen p
    validate_parameters alphanumeric (p.name :: seen) parameters

def undeclared (var : String) : String :=
  "template references undeclared variable \x7b\x7b " ++ var ++ " \x7d\x7d — declare it as a parameter or remove it"

/-- Every variable of the template is reserved or declared. -/
def validate_variables (parameters : List ModuleParameter) : List String → Except String Unit
  | [] => .ok ()
  | var :: vars =>
    if var ∈ RESERVED_VARS then validate_variables parameters vars
    else if ¬ parameters.any fun p => p.name == var then .error (undeclared var)
    else validate_variables parameters vars

/-- `alphanumeric` is Unicode's `char::is_alphanumeric`. -/
def Module.validate (alphanumeric : Char → Bool) (m : Module) : Except String Unit :=
  if (str.trim m.name.toList).isEmpty then .error "module name must not be empty"
  else if ¬ m.name.toList.all fun c => alphanumeric c || c == '-' || c == '_' then
    .error ("module name " ++ str.debug m.name ++ " must be alphanumeric with optional '-' or '_'")
  else if m.name ∈ ["service", "cron-job-bundle", "web-with-monitoring"] then
    .error ("module name " ++ str.debug m.name ++ " collides with a built-in composite")
  else do
    validate_parameters alphanumeric [] m.parameters
    validate_variables m.parameters (template_variables m.template)

/-- The value of a parameter: the one given, the default, or null. -/
def parameter_value (m : Module) (spec : List (String × Value)) (p : ModuleParameter) : Except ApiError Value :=
  match (Value.object spec).get p.name with
  | some v => .ok v
  | none =>
    match p.default with
    | some d => .ok d
    | none =>
      if p.required then
        .error (.BadRequest (m.name ++ ": spec." ++ p.name ++ " is required (" ++ p.description ++ ")"))
      else .ok .null

def insert_parameters (m : Module) (spec : List (String × Value)) :
    List ModuleParameter → List (String × Value) → Except ApiError (List (String × Value))
  | [], vars => .ok vars
  | p :: parameters, vars => do
    let v ← parameter_value m spec p
    insert_parameters m spec parameters (insert_field p.name v vars)

/-- A field of the manifest that is no parameter is refused. -/
def reject_unknown (m : Module) (spec : List (String × Value)) : Except ApiError Unit :=
  match (spec.map Prod.fst).find? fun got => ¬ m.parameters.any fun p => p.name == got with
  | some got => .error (.BadRequest (m.name ++ ": spec." ++ got ++ " is not a known parameter for module " ++ m.name))
  | none => .ok ()

def required_metadata (m : Module) (raw : Value) : Except ApiError Value :=
  match raw.get "metadata" with
  | some (.object metadata) => .ok (.object metadata)
  | _ => .error (.BadRequest (m.name ++ ": metadata required"))

def required_name (m : Module) (metadata : Value) : Except ApiError String :=
  match (metadata.get "name").bind Value.as_str with
  | some name => .ok name
  | none => .error (.BadRequest (m.name ++ ": metadata.name required"))

def spec_of (raw : Value) : List (String × Value) :=
  match raw.get "spec" with
  | some (.object spec) => spec
  | _ => []

/-- The first half of `expand_module`: the variables of a composite resource. -/
def module_vars (m : Module) (raw : Value) : Except ApiError (List (String × Value)) := do
  let metadata ← required_metadata m raw
  let name ← required_name m metadata
  let environment := ((metadata.get "environment").bind Value.as_str).getD "default"
  let vars := insert_field "environment" (.string environment) (insert_field "name" (.string name) [])
  let vars ← insert_parameters m (spec_of raw) m.parameters vars
  reject_unknown m (spec_of raw)
  return vars

def render_template (crates : Crates) (template : String) (vars : List (String × Value)) : Except String String :=
  match render_json_top_scalars crates template vars with
  | .ok out => .ok out
  | .error e => .error e.to_string

/-- What `serde_yaml_ng` reads: a sequence, each item with its JSON form where
it has one, or a value of another kind. -/
inductive Yaml where
  | sequence (items : List (Except String Value))
  | other (kind : String)

/-- The object under `key`, a new one where there is nothing, after a change. -/
def change_entry (key : String) (change : List (String × Value) → List (String × Value))
    (fields : List (String × Value)) : List (String × Value) :=
  match (Value.object fields).get key with
  | none => insert_field key (.object (change [])) fields
  | some (.object inner) => insert_field key (.object (change inner)) fields
  | some _ => fields

/-- Where the primitive came from. -/
def annotate (m : Module) (item : Value) : Value :=
  match item with
  | .object fields =>
    .object (change_entry "metadata"
      (change_entry "annotations" (insert_field "iac.example/composite-of" (.string m.name))) fields)
  | item => item

/-- The text of a failure, as a rejection of the submission. -/
def bad_request {α : Type} (context : String) : Except String α → Except ApiError α
  | .ok a => .ok a
  | .error e => .error (.BadRequest (context ++ e))

def annotate_items (m : Module) : Nat → List (Except String Value) → Except ApiError (List Value)
  | _, [] => .ok []
  | i, item :: items => do
    let value ← bad_request (m.name ++ ": template item " ++ toString i ++ " not JSON-compatible: ") item
    let rest ← annotate_items m (i + 1) items
    return annotate m value :: rest

def expand_module (crates : Crates) (from_yaml : String → Except String Yaml) (m : Module) (raw : Value) :
    Except ApiError (List Value) := do
  let vars ← module_vars m raw
  let rendered ← bad_request (m.name ++ ": template render: ") (render_template crates m.template vars)
  let parsed ← bad_request (m.name ++ ": template YAML: ") (from_yaml rendered)
  match parsed with
  | .other kind =>
    .error (.BadRequest (m.name ++ ": template must produce a YAML sequence (array of resources), got " ++ str.debug kind))
  | .sequence items => annotate_items m 0 items

end iac_controlplane.modules
