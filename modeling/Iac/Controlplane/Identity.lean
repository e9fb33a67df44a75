namespace iac_controlplane

/-- The variants of `ApiError` that the store and the handlers return. `Sqlx`
and `Json` carry the text of the wrapped error. -/
inductive ApiError where
  | Unauthorized
  | Forbidden
  | NotFound
  | Conflict (msg : String)
  | BadRequest (msg : String)
  | Internal (msg : String)
  | Sqlx (msg : String)
  | Json (msg : String)
  deriving DecidableEq, Repr

/-- `?` on a serde_json error. -/
def json_error {α : Type} : Except String α → Except ApiError α
  | .ok a => .ok a
  | .error e => .error (.Json e)

theorem json_error_ok_iff {α : Type} {result : Except String α} {a : α} : json_error result = .ok a ↔ result = .ok a := by
  cases result <;> simp [json_error]

end iac_controlplane

namespace iac_controlplane.identity

inductive Role where
  | Viewer
  | Operator
  | Approver
  | Admin
  deriving DecidableEq, Repr

def Role.rank : Role → Nat
  | .Viewer => 0
  | .Operator => 1
  | .Approver => 2
  | .Admin => 3

/-- A role grants every role below it. -/
def Role.includes (role required : Role) : Bool :=
  decide (required.rank ≤ role.rank)

inductive Identity where
  | LegacyAdmin
  | User (id username : String) (roles : List Role)
  | Agent (id name : String)

def Identity.audit_actor : Identity → String
  | .LegacyAdmin => "admin"
  | .User _ username _ => "user:" ++ username
  | .Agent id _ => "agent:" ++ id

def Identity.display_name : Identity → String
  | .LegacyAdmin => "admin"
  | .User _ username _ => username
  | .Agent _ name => name

def Identity.has_role (identity : Identity) (role : Role) : Bool :=
  match identity with
  | .LegacyAdmin => true
  | .User _ _ roles => roles.any fun r => r.includes role
  | .Agent _ _ => false

/-- The check of a handler on the identity that the bearer token resolved to. -/
def require_role (identity : Identity) (required : Role) : Except ApiError Identity :=
  if identity.has_role required then .ok identity else .error .Forbidden

theorem require_role_ok {identity caller : Identity} {required : Role} (h : require_role identity required = .ok caller) :
    caller = identity ∧ identity.has_role required = true := by
  rw [require_role] at h
  split at h
  · exact ⟨(Except.ok.inj h).symm, ‹_›⟩
  · cases h

end iac_controlplane.identity
