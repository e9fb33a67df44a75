import Iac.Collections.Fallible
import Iac.Collections.Paths
import Iac.Core.Executor
import Iac.Core.Numeral
import Iac.Core.Protocol
import Iac.Core.Text

open iac_core iac_core.protocol serde_json

namespace iac_providers.file

inductive FileState where
  | Present
  | Absent
  deriving DecidableEq, Repr

structure FileSpec where
  path : String
  state : FileState := .Present
  mode : Option String := none
  owner : Option String := none
  group : Option String := none
  content : Option String := none

def strip_octal (s : List Char) : List Char :=
  match s with
  | '0' :: 'o' :: rest => rest
  | s => s

def parse_mode (s : List Char) : Except String Nat :=
  let digits := strip_octal (str.trim s)
  match num.from_str_radix 8 num.u32_bound digits with
  | some mode => .ok mode
  | none => .error (num.parse_int_error 8 num.u32_bound digits)

def check_mode : Option String → Except String Unit
  | none => .ok ()
  | some m =>
    match parse_mode m.toList with
    | .ok _ => .ok ()
    | .error e => .error ("invalid mode " ++ str.debug m ++ ": " ++ e)

def FileSpec.validate (spec : FileSpec) : Except String Unit :=
  if !path.is_absolute spec.path.toList then .error ("path must be absolute, got " ++ spec.path)
  else if spec.state = .Absent ∧ spec.content.isSome then .error "state=absent forbids content"
  else if spec.state = .Absent ∧ (spec.mode.isSome ∨ spec.owner.isSome ∨ spec.group.isSome) then
    .error "state=absent forbids mode/owner/group"
  else check_mode spec.mode

def FileSpec.parsed_mode (spec : FileSpec) : Option Nat :=
  spec.mode.bind fun m => (parse_mode m.toList).toOption

/-- A state that is missing is `present`. -/
def read_state (v : Value) : Except String FileState := state_field .Present .Absent v

def fields : List String := ["path", "state", "mode", "owner", "group", "content"]

/-- Unknown fields are refused. -/
def FileSpec.from_value (v : Value) : Except String FileSpec :=
  match v with
  | .object entries =>
    if entries.any fun f => !fields.contains f.1 then .error "unknown field"
    else do
      let path ← string_field v "path"
      let state ← read_state v
      let mode ← option_field v "mode"
      let owner ← option_field v "owner"
      let group ← option_field v "group"
      let content ← option_field v "content"
      let spec : FileSpec := { path, state, mode, owner, group, content }
      spec.validate
      return spec
  | _ => .error "invalid type, expected struct FileSpec"

def parse_spec (resource : Resource) : Except executor.Error FileSpec :=
  match FileSpec.from_value resource.spec with
  | .ok spec => .ok spec
  | .error e => .error (.Validation resource.id.to_string ("invalid file spec: " ++ e))

def capability_keys (resource : Resource) : Except executor.Error (List String) := do
  let spec ← parse_spec resource
  return [spec.path]

/-- An accepted spec has an absolute path and a mode that can be read. -/
theorem FileSpec.validate_ok {spec : FileSpec} (h : spec.validate = .ok ()) :
    path.is_absolute spec.path.toList = true ∧ ∀ m, spec.mode = some m → ∃ mode, parse_mode m.toList = .ok mode := by
  rw [validate] at h
  split_ifs at h with hpath hcontent hattributes
  · refine ⟨by simpa using hpath, fun m hm => ?_⟩
    rw [hm, check_mode] at h
    split at h
    · next mode hmode => exact ⟨mode, hmode⟩
    · cases h

theorem FileSpec.from_value_ok {v : Value} {spec : FileSpec} (h : from_value v = .ok spec) : spec.validate = .ok () := by
  rw [from_value.eq_def] at h
  split at h
  · split_ifs at h
    simp only [fallible.bind_eq_ok_iff] at h
    obtain ⟨path, -, state, -, mode, -, owner, -, group, -, content, -, ⟨⟩, hvalid, heq⟩ := h
    obtain rfl := Except.ok.inj heq
    exact hvalid
  · cases h

end iac_providers.file
