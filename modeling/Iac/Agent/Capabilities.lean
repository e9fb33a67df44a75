import Iac.Collections.Fallible
import Iac.Core.Executor
import Iac.Core.Protocol
import Iac.Core.Text

open effect iac_core iac_core.executor iac_core.protocol serde_json

namespace iac_agent.capabilities

inductive DefaultKindPolicy where
  | Allow
  | Deny
  deriving DecidableEq, Repr

/-- A compiled set of globs, as what it matches. -/
abbrev GlobSet := String → Bool

structure PathRules where
  allow : Option GlobSet := none
  deny : Option GlobSet := none

structure NameRules where
  allow : Option GlobSet := none

structure Capabilities where
  default_kind_policy : DefaultKindPolicy := .Deny
  files : PathRules := {}
  nginx_vhost : PathRules := {}
  systemd : NameRules := {}
  docker : NameRules := {}
  packages : NameRules := {}
  cron : NameRules := {}

structure DenyReason where
  resource_id : String
  kind : String
  identifier : String
  reason : String

def DenyReason.to_string (denial : DenyReason) : String :=
  "capability_denied[" ++ denial.kind ++ "]: " ++ denial.resource_id ++ " (" ++ denial.identifier ++ ": " ++
    denial.reason ++ ")"

/-- What each registered provider says of the identifiers of a resource. -/
abbrev Registry := String → Option (Resource → Except executor.Error (List String))

def PathRules.check (rules : PathRules) (resource_id kind path : String) : Except DenyReason Unit :=
  if rules.deny.any fun deny => deny path then .error ⟨resource_id, kind, path, "matched deny pattern"⟩
  else
    match rules.allow with
    | none => .ok ()
    | some allow => if allow path then .ok () else .error ⟨resource_id, kind, path, "no allow pattern matched"⟩

def NameRules.check (rules : NameRules) (resource_id kind name : String) : Except DenyReason Unit :=
  match rules.allow with
  | none => .ok ()
  | some allow => if allow name then .ok () else .error ⟨resource_id, kind, name, "no allow pattern matched"⟩

/-- The rules of the kind on one key. -/
def Capabilities.check_key (caps : Capabilities) (id kind key : String) : Except DenyReason Unit :=
  if kind = "file" then caps.files.check id "file" key
  else if kind = "nginx.vhost" then caps.nginx_vhost.check id "nginx.vhost" key
  else if kind = "systemd.unit" then caps.systemd.check id "systemd.unit" key
  else if kind = "docker.container" then caps.docker.check id "docker.container" key
  else if kind = "package" then caps.packages.check id "package" key
  else if kind = "cron.job" then caps.cron.check id "cron.job" key
  else
    match caps.default_kind_policy with
    | .Allow => .ok ()
    | .Deny => .error ⟨id, kind, key, "default_kind_policy=deny and no rules block declared for this kind"⟩

/-- A provider that gives no key has its resources unrestricted. -/
def Capabilities.check (caps : Capabilities) (registry : Registry) (resource : Resource) : Except DenyReason Unit :=
  let id := resource.id.to_string
  match registry resource.kind with
  | none =>
    match caps.default_kind_policy with
    | .Allow => .ok ()
    | .Deny =>
      .error ⟨id, resource.kind, "<unknown-kind>", "default_kind_policy=deny and no provider registered for this kind"⟩
  | some capability_keys =>
    match capability_keys resource with
    | .error e =>
      .error ⟨id, resource.kind, "<spec-error>", "could not extract capability key: " ++ e.to_string⟩
    | .ok keys => keys.forM (caps.check_key id resource.kind)

/-- The resources that pass the check, and the reasons against the others. -/
def sort_out (caps : Capabilities) (registry : Registry) : List Resource → List Resource × List DenyReason
  | [] => ([], [])
  | resource :: rest =>
    let (allowed, denied) := sort_out caps registry rest
    match caps.check registry resource with
    | .ok () => (resource :: allowed, denied)
    | .error reason => (allowed, reason :: denied)

/-- Without a capability file every resource is allowed. -/
def enforce_capabilities (caps : Option Capabilities) (registry : Registry) (resources : List Resource) :
    List Resource × List DenyReason :=
  match caps with
  | none => (resources, [])
  | some caps => sort_out caps registry resources

def denied_report (denied : List DenyReason) : AssignmentResultRequest where
  status := .Failed
  summary := some (toString denied.length ++ " resource(s) denied by agent capability policy")
  items := denied.map fun reason => ⟨reason.resource_id, "capability_denied", some reason.to_string⟩

def operation_result : OperationStatus → AssignmentResultStatus
  | .Succeeded => .Succeeded
  | .PartiallyApplied => .PartiallyApplied
  | _ => .Failed

def item_status : ItemStatus → String
  | .NoChange => "no_change"
  | .Succeeded => "succeeded"
  | .Failed => "failed"
  | .Skipped => "skipped"

def apply_report (result : ApplyResult) : AssignmentResultRequest where
  status := operation_result result.operation.status
  summary := some ("operation " ++ ulid_text result.operation.id)
  items := result.items.map fun item => ⟨item.resource_id.to_string, item_status item.status, item.error⟩

/-- What comes of an assignment before the executor. -/
inductive Admission where
  | bail (error : String)
  | denied (report : AssignmentResultRequest)
  | handed (resources : List Resource)

def admission (caps : Option Capabilities) (registry : Registry) (env : AssignmentEnvelope) : Admission :=
  if env.kind ≠ "apply" then .bail ("unsupported assignment kind " ++ str.debug env.kind)
  else
    match env.payload.resources.mapM Resource.of_value with
    | none => .bail "decoding assignment resources"
    | some resources =>
      let (resources, denied) := enforce_capabilities caps registry resources
      if denied.isEmpty then .handed resources else .denied (denied_report denied)

variable {Host : Type}

def execute_assignment (exec : Executor Host) (caps : Option Capabilities) (registry : Registry)
    (env : AssignmentEnvelope) : Exec Host (Except String AssignmentResultRequest) :=
  match admission caps registry env with
  | .bail error => return .error error
  | .denied report => return .ok report
  | .handed resources => do
    match ← attempt (apply exec resources) with
    | .error e => return .error e.to_string
    | .ok result => return .ok (apply_report result)

section Spec

variable {caps : Capabilities} {registry : Registry} {resource : Resource} {env : AssignmentEnvelope} {exec : Executor Host}

/-- With a provider registered a resource passes when its keys can be read and each of them passes. -/
theorem check_ok_iff {capability_keys : Resource → Except executor.Error (List String)}
    (hregistered : registry resource.kind = some capability_keys) :
    caps.check registry resource = .ok () ↔ ∃ keys, capability_keys resource = .ok keys ∧
      ∀ key ∈ keys, caps.check_key resource.id.to_string resource.kind key = .ok () := by
  rw [Capabilities.check]
  simp only [hregistered]
  cases capability_keys resource with
  | error e => simp
  | ok keys => simpa using fallible.forM_ok_iff

private theorem sort_out_denied_iff {resources : List Resource} :
    (sort_out caps registry resources).2 = [] ↔ ∀ r ∈ resources, caps.check registry r = .ok () := by
  induction resources with
  | nil => simp [sort_out]
  | cons r rest ih =>
    rw [sort_out, List.forall_mem_cons]
    cases hcheck : caps.check registry r with
    | ok _ => simp [ih]
    | error reason => simp

private theorem sort_out_allowed {resources : List Resource}
    (h : ∀ r ∈ resources, caps.check registry r = .ok ()) : (sort_out caps registry resources).1 = resources := by
  induction resources with
  | nil => rfl
  | cons r rest ih =>
    obtain ⟨hr, hrest⟩ := List.forall_mem_cons.mp h
    simp [sort_out, hr, ih hrest]

/-- The executor gets all the resources of the payload, and only when each of them passes. -/
theorem admit_handed_iff {resources : List Resource} :
    admission (some caps) registry env = .handed resources ↔ env.kind = "apply" ∧
      env.payload.resources.mapM Resource.of_value = some resources ∧
        ∀ r ∈ resources, caps.check registry r = .ok () := by
  rw [admission]
  by_cases hkind : env.kind = "apply"
  · cases env.payload.resources.mapM Resource.of_value with
    | none => simp [hkind]
    | some decoded =>
      have hsorted : enforce_capabilities (some caps) registry decoded = sort_out caps registry decoded := rfl
      simp only [hkind, ne_eq, not_true_eq_false, if_false, true_and, Option.some.injEq]
      rw [hsorted]
      by_cases hpass : ∀ r ∈ decoded, caps.check registry r = .ok ()
      · rw [if_pos (by simp [sort_out_denied_iff.mpr hpass]), sort_out_allowed hpass, Admission.handed.injEq]
        exact ⟨fun h => ⟨h, h ▸ hpass⟩, And.left⟩
      · rw [if_neg (by simpa using mt sort_out_denied_iff.mp hpass)]
        simp only [reduceCtorEq, false_iff, not_and]
        rintro rfl
        exact hpass
  · simp [hkind]

/-- An assignment that is not handed over changes nothing. -/
theorem execute_assignment_of_not_handed (h : ∀ resources, admission (some caps) registry env ≠ .handed resources)
    (w : World Host) : (perform (execute_assignment exec (some caps) registry env) w).2 = w := by
  rw [execute_assignment]
  cases hadmit : admission (some caps) registry env with
  | bail error => rfl
  | denied report => rfl
  | handed resources => exact absurd hadmit (h resources)

end Spec

end iac_agent.capabilities
