import Iac.Core.Json

open serde_json

namespace iac_core

structure ResourceId where
  kind : String
  environment : String
  name : String

def ResourceId.to_string (id : ResourceId) : String :=
  id.kind ++ "/" ++ id.environment ++ "/" ++ id.name

/-- `str::split_once`. -/
def split_once (separator : Char) : List Char → Option (List Char × List Char)
  | [] => none
  | c :: rest =>
    if c = separator then some ([], rest) else (split_once separator rest).map fun halves => (c :: halves.1, halves.2)

/-- The name is all that follows the second slash. -/
def ResourceId.parse (s : String) : Option ResourceId := do
  let (kind, rest) ← split_once '/' s.toList
  let (environment, name) ← split_once '/' rest
  if kind.isEmpty || environment.isEmpty || name.isEmpty then none
  else some ⟨String.ofList kind, String.ofList environment, String.ofList name⟩

/-- A manifest. The policy and the place in the source file are left out. -/
structure Resource where
  api_version : String
  kind : String
  name : String
  environment : String
  annotations : List (String × String)
  spec : Value

def Resource.id (r : Resource) : ResourceId := ⟨r.kind, r.environment, r.name⟩

/-- A map of texts, empty when the field is missing. -/
def text_map (v : Option Value) : Option (List (String × String)) :=
  match v with
  | none => some []
  | some (.object fields) => fields.mapM fun f => f.2.as_str.map fun text => (f.1, text)
  | some _ => none

/-- `serde_json::from_value::<Resource>`. -/
def Resource.of_value (v : Value) : Option Resource := do
  let api_version ← (v.get "apiVersion").bind Value.as_str
  let kind ← (v.get "kind").bind Value.as_str
  let metadata ← v.get "metadata"
  let name ← (metadata.get "name").bind Value.as_str
  let environment ← (metadata.get "environment").elim (some "default") Value.as_str
  let _ ← match metadata.get "owner" with
    | none | some .null | some (.string _) => some ()
    | some _ => none
  let _ ← text_map (metadata.get "labels")
  let annotations ← text_map (metadata.get "annotations")
  return { api_version, kind, name, environment, annotations, spec := (v.get "spec").getD .null }

inductive DiffKind where
  | NoChange
  | Create
  | Update
  | Delete
  deriving DecidableEq

structure FieldChange where
  field : String
  from_value : Option Value
  to_value : Option Value
  sensitive : Bool := false

structure Diff where
  kind : DiffKind
  changes : List FieldChange
  reasons : List String
  reversible : Bool

def Diff.no_change : Diff := ⟨.NoChange, [], [], true⟩

def Diff.is_change (d : Diff) : Bool := d.kind != .NoChange

structure ObservedState where
  present : Bool
  spec : Value
  facts : List (String × Value)

/-- A kind of resource on hosts of the type `Host`. `apply` is what the steps
planned for a resource do to the host. -/
structure Provider (Host : Type) where
  observe : Host → Resource → Except String ObservedState
  diff : Resource → ObservedState → Except String Diff
  apply : Resource → Host → Host

end iac_core
