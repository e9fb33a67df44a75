import Iac.Core.Json

open serde_json

namespace iac_core.protocol

structure CanarySpec where
  pct : UInt8
  min_count : Option UInt32

inductive AssignmentResultStatus where
  | Succeeded
  | PartiallyApplied
  | Failed
  deriving DecidableEq, Repr

/-- The `snake_case` names serde gives the variants. -/
def AssignmentResultStatus.name : AssignmentResultStatus → String
  | .Succeeded => "succeeded"
  | .PartiallyApplied => "partially_applied"
  | .Failed => "failed"

structure AssignmentItemResult where
  resource_id : String
  status : String
  error : Option String

structure AssignmentResultRequest where
  status : AssignmentResultStatus
  summary : Option String
  items : List AssignmentItemResult

def AssignmentItemResult.to_value (item : AssignmentItemResult) : Value :=
  .object [("resource_id", .string item.resource_id), ("status", .string item.status),
    ("error", of_option item.error)]

def AssignmentResultRequest.to_value (r : AssignmentResultRequest) : Value :=
  .object [("status", .string r.status.name), ("summary", of_option r.summary),
    ("items", .array (r.items.map AssignmentItemResult.to_value))]

structure AssignmentPayload where
  resources : List Value
  deriving DecidableEq

def AssignmentPayload.to_value (p : AssignmentPayload) : Value :=
  .object [("resources", .array p.resources)]

/-- Deserialization needs the one field of the struct and ignores the others. -/
def AssignmentPayload.of_value (v : Value) : Except String AssignmentPayload :=
  match v.get "resources" with
  | some (.array resources) => .ok ⟨resources⟩
  | some _ => .error "invalid type for resources, expected a sequence"
  | none => .error "missing field resources"

structure AssignmentEnvelope where
  assignment_id : String
  operation_id : String
  kind : String
  created_at : String
  expires_at : Option String
  payload : AssignmentPayload
  key_id : String
  signature : String
  deriving DecidableEq

def AssignmentEnvelope.to_value (env : AssignmentEnvelope) : Value :=
  .object [("assignment_id", .string env.assignment_id), ("operation_id", .string env.operation_id),
    ("kind", .string env.kind), ("created_at", .string env.created_at), ("expires_at", of_option env.expires_at),
    ("payload", env.payload.to_value), ("key_id", .string env.key_id), ("signature", .string env.signature)]

def string_field (v : Value) (key : String) : Except String String :=
  match v.get key with
  | some (.string s) => .ok s
  | some _ => .error ("invalid type for " ++ key ++ ", expected a string")
  | none => .error ("missing field " ++ key)

/-- The field `state` of a resource that is there or is not: without it, the resource is. -/
def state_field {State : Type} (present absent : State) (v : Value) : Except String State :=
  match v.get "state" with
  | none => .ok present
  | some (.string "present") => .ok present
  | some (.string "absent") => .ok absent
  | some (.string other) => .error ("unknown variant `" ++ other ++ "`, expected `present` or `absent`")
  | some _ => .error "invalid type for state, expected a string"

/-- A field that is absent counts as null. -/
def option_field (v : Value) (key : String) : Except String (Option String) :=
  match v.get key with
  | none | some .null => .ok none
  | some (.string s) => .ok (some s)
  | some _ => .error ("invalid type for " ++ key ++ ", expected a string")

def AssignmentEnvelope.of_value (v : Value) : Except String AssignmentEnvelope := do
  let payload ← match v.get "payload" with
    | some payload => AssignmentPayload.of_value payload
    | none => .error "missing field payload"
  return { assignment_id := ← string_field v "assignment_id", operation_id := ← string_field v "operation_id",
           kind := ← string_field v "kind", created_at := ← string_field v "created_at",
           expires_at := ← option_field v "expires_at", payload, key_id := ← string_field v "key_id",
           signature := ← string_field v "signature" }

/-- The body of a response with assignments. -/
def list_to_value (items : List AssignmentEnvelope) : Value :=
  .object [("items", .array (items.map AssignmentEnvelope.to_value))]

def list_of_value (v : Value) : Except String (List AssignmentEnvelope) :=
  match v.get "items" with
  | some (.array items) => items.mapM AssignmentEnvelope.of_value
  | some _ => .error "invalid type for items, expected a sequence"
  | none => .error "missing field items"

theorem AssignmentEnvelope.of_value_to_value (env : AssignmentEnvelope) : of_value env.to_value = .ok env := by
  obtain ⟨assignment_id, operation_id, kind, created_at, expires_at, ⟨resources⟩, key_id, signature⟩ := env
  cases expires_at <;> rfl

/-- A list of assignments is read as it was written. -/
theorem list_of_value_to_value (items : List AssignmentEnvelope) : list_of_value (list_to_value items) = .ok items := by
  have hitems : (items.map AssignmentEnvelope.to_value).mapM AssignmentEnvelope.of_value = .ok items := by
    induction items with
    | nil => rfl
    | cons env items ih => simp [AssignmentEnvelope.of_value_to_value, ih, pure, Except.pure, bind, Except.bind]
  exact hitems

/-- The text whose bytes are signed for an assignment. -/
def canonical_assignment_message (crates : Crates) (agent_id assignment_id operation_id created_at expires_at payload_json : String) :
    String :=
  "iac-assignment-v2\n" ++ agent_id ++ "\n" ++ assignment_id ++ "\n" ++ operation_id ++ "\n" ++ created_at ++ "\n" ++
    expires_at ++ "\n" ++ crates.sha256_hex payload_json.toUTF8.data.toList ++ "\n"

/-- The message of an envelope for the agent. Both sides serialise its payload
and count no expiry as an empty one. -/
def AssignmentEnvelope.message (crates : Crates) (agent_id : String) (env : AssignmentEnvelope) : String :=
  canonical_assignment_message crates agent_id env.assignment_id env.operation_id env.created_at
    (env.expires_at.getD "") (crates.to_string env.payload.to_value)

end iac_core.protocol
