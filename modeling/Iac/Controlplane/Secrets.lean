import Iac.Controlplane.Identity
import Iac.Core.Provider

open iac_core serde_json

namespace iac_controlplane.secrets

structure SecretRef where
  resolver : String
  path : String
  field : Option String
  deriving DecidableEq

/-- What the braces of a reference enclose, after its scheme. -/
def SecretRef.parse (inner : List Char) : Option SecretRef := do
  let (path_part, field) := match split_once '#' inner with
    | some (before, after) => if after.isEmpty then (inner, none) else (before, some (String.ofList after))
    | none => (inner, none)
  let (resolver, path) ← split_once '/' path_part
  if resolver.isEmpty || path.isEmpty then none else some ⟨String.ofList resolver, String.ofList path, field⟩

/-- A reference at the start of the text, and the text after it. -/
def ref_at (text : List Char) : Option (SecretRef × List Char) := do
  if "$\x7bsecret://".toList.isPrefixOf text then
    let (inner, rest) ← split_once '\x7d' (text.drop 11)
    let sref ← SecretRef.parse inner
    some (sref, rest)
  else none

/-- The text cut into its characters and the references between them. -/
def find_refs : Nat → List Char → List (Char ⊕ SecretRef)
  | 0, _ => []
  | _, [] => []
  | fuel + 1, c :: rest =>
    match ref_at (c :: rest) with
    | some (sref, after) => .inr sref :: find_refs fuel after
    | none => .inl c :: find_refs fuel rest

def find_refs_in_string (s : String) : List (Char ⊕ SecretRef) :=
  find_refs s.toList.length s.toList

/-- The backends of the registry, which look a reference up. -/
abbrev SecretRegistry := SecretRef → Except ApiError String

def splice (registry : SecretRegistry) : List (Char ⊕ SecretRef) → Except ApiError String
  | [] => .ok ""
  | .inl c :: pieces => do
    let rest ← splice registry pieces
    return c.toString ++ rest
  | .inr sref :: pieces => do
    let resolved ← registry sref
    let rest ← splice registry pieces
    return resolved ++ rest

/-- A key as a part of a JSON pointer. -/
def escape_key (key : String) : String :=
  String.ofList (key.toList.flatMap fun c => if c = '~' then ['~', '0'] else if c = '/' then ['~', '1'] else [c])

mutual

/-- The value with its references resolved, and the pointers to the texts that had one. -/
def substitute_with_pointers (registry : SecretRegistry) (pointer : String) :
    Value → Except ApiError (Value × List String)
  | .string s =>
    let pieces := find_refs_in_string s
    if pieces.any Sum.isRight then do
      let resolved ← splice registry pieces
      return (.string resolved, [pointer])
    else .ok (.string s, [])
  | .array items => do
    let (items, pointers) ← substitute_items registry pointer 0 items
    return (.array items, pointers)
  | .object fields => do
    let (fields, pointers) ← substitute_fields registry pointer fields
    return (.object fields, pointers)
  | v => .ok (v, [])

def substitute_items (registry : SecretRegistry) (pointer : String) (i : Nat) :
    List Value → Except ApiError (List Value × List String)
  | [] => .ok ([], [])
  | item :: items => do
    let (item, first) ← substitute_with_pointers registry (pointer ++ "/" ++ toString i) item
    let (items, rest) ← substitute_items registry pointer (i + 1) items
    return (item :: items, first ++ rest)

def substitute_fields (registry : SecretRegistry) (pointer : String) :
    List (String × Value) → Except ApiError (List (String × Value) × List String)
  | [] => .ok ([], [])
  | (key, value) :: fields => do
    let (value, first) ← substitute_with_pointers registry (pointer ++ "/" ++ escape_key key) value
    let (fields, rest) ← substitute_fields registry pointer fields
    return ((key, value) :: fields, first ++ rest)

end

def secret_fields_annotation : String := "iac.dev/secret-fields"

/-- The resource with the pointers under the annotation, when it has a metadata object. -/
def annotate (pointers : List String) (resource : Value) : Value :=
  match resource with
  | .object fields =>
    .object (fields.map fun f =>
      match f with
      | (key, .object metadata) =>
        if key = "metadata" then
          let annotations := match (Value.object metadata).get "annotations" with
            | some (.object annotations) => annotations
            | _ => []
          let annotations := insert_field secret_fields_annotation (.string (",".intercalate pointers)) annotations
          (key, .object (insert_field "annotations" (.object annotations) metadata))
        else f
      | f => f)
  | v => v

/-- A resource of a payload as `list_assignments` sends it. -/
def resolve_resource (registry : SecretRegistry) (resource : Value) : Except ApiError Value := do
  let (resource, secret_pointers) ← substitute_with_pointers registry "" resource
  return if secret_pointers.isEmpty then resource else annotate secret_pointers resource

end iac_controlplane.secrets
