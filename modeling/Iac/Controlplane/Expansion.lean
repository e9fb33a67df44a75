import Iac.Collections.Rewriting
import Iac.Controlplane.Api.Extraction
import Iac.Controlplane.Modules
import Mathlib.Algebra.Group.Nat.Defs
import Mathlib.Data.List.Dedup

open iac_controlplane.modules rewriting serde_json

namespace iac_controlplane.expansion

/-- The functions of third-party crates that expansion calls: the reader of
YAML, and the text of serde's refusal to read a value as a struct. -/
structure ExpansionCrates extends Crates where
  from_yaml : String → Except String Yaml
  refusal : String → Value → String

section Serde

/-- How a derived `Deserialize` finds a field: by its name in an object, by its place in an array. -/
def entry (names : List String) (value : Value) (name : String) : Option Value :=
  match value with
  | .array items => items[names.idxOf name]?
  | value => value.get name

/-- `deny_unknown_fields` of an object, and no item left over of an array. -/
def all_known (names : List String) : Value → Bool
  | .object fields => fields.all fun field => names.contains field.1
  | .array items => decide (items.length ≤ names.length)
  | _ => false

def unsigned (bits : Nat) : Value → Option Nat
  | .number (.PosInt n) => if n < 2 ^ bits then some n else none
  | _ => none

def string_field : String × Value → Option (String × String)
  | (key, .string s) => some (key, s)
  | _ => none

def string_map : Value → Option (List (String × String))
  | .object fields => fields.mapM string_field
  | _ => none

def optional {α : Type} (read : Value → Option α) : Value → Option (Option α)
  | .null => some none
  | value => (read value).map some

/-- A field with a default. -/
def or_default {α : Type} (read : Value → Option α) (default : α) : Option Value → Option α
  | none => some default
  | some value => read value

/-- The `name` of a `HostSelector`. -/
def host_selector (value : Value) : Option String :=
  if all_known ["name"] value then (entry ["name"] value "name").bind Value.as_str else none

end Serde

structure ServiceSpec where
  image : String
  port : Nat
  domain : String
  internal_port : Nat
  env : List (String × String)
  restart_policy : String
  nginx_config_path : Option String
  host_selector : Option String

def service_fields : List String :=
  ["image", "port", "domain", "internal_port", "env", "restart_policy", "nginx_config_path", "hostSelector"]

def ServiceSpec.read (value : Value) : Option ServiceSpec :=
  if all_known service_fields value then do
    let field := entry service_fields value
    let image ← (field "image").bind Value.as_str
    let port ← (field "port").bind (unsigned 16)
    let domain ← (field "domain").bind Value.as_str
    let internal_port ← or_default (unsigned 16) 80 (field "internal_port")
    let env ← or_default string_map [] (field "env")
    let restart_policy ← or_default Value.as_str "unless-stopped" (field "restart_policy")
    let nginx_config_path ← or_default (optional Value.as_str) none (field "nginx_config_path")
    let host_selector ← or_default (optional expansion.host_selector) none (field "hostSelector")
    return { image, port, domain, internal_port, env, restart_policy, nginx_config_path, host_selector }
  else none

structure CronJobBundleSpec where
  schedule : String
  script : String
  script_path : Option String
  user : String
  mode : String
  env : List (String × String)
  host_selector : Option String

def cron_job_bundle_fields : List String :=
  ["schedule", "script", "scriptPath", "user", "mode", "env", "hostSelector"]

def CronJobBundleSpec.read (value : Value) : Option CronJobBundleSpec :=
  if all_known cron_job_bundle_fields value then do
    let field := entry cron_job_bundle_fields value
    let schedule ← (field "schedule").bind Value.as_str
    let script ← (field "script").bind Value.as_str
    let script_path ← or_default (optional Value.as_str) none (field "scriptPath")
    let user ← or_default Value.as_str "root" (field "user")
    let mode ← or_default Value.as_str "0755" (field "mode")
    let env ← or_default string_map [] (field "env")
    let host_selector ← or_default (optional expansion.host_selector) none (field "hostSelector")
    return { schedule, script, script_path, user, mode, env, host_selector }
  else none

structure WebWithMonitoringSpec where
  image : String
  port : Nat
  domain : String
  health_path : String
  check_interval_minutes : Nat
  internal_port : Nat
  env : List (String × String)
  restart_policy : String
  host_selector : Option String

def web_with_monitoring_fields : List String :=
  ["image", "port", "domain", "health_path", "check_interval_minutes", "internal_port", "env", "restart_policy",
    "hostSelector"]

def WebWithMonitoringSpec.read (value : Value) : Option WebWithMonitoringSpec :=
  if all_known web_with_monitoring_fields value then do
    let field := entry web_with_monitoring_fields value
    let image ← (field "image").bind Value.as_str
    let port ← (field "port").bind (unsigned 16)
    let domain ← (field "domain").bind Value.as_str
    let health_path ← or_default Value.as_str "/healthz" (field "health_path")
    let check_interval_minutes ← or_default (unsigned 32) 5 (field "check_interval_minutes")
    let internal_port ← or_default (unsigned 16) 80 (field "internal_port")
    let env ← or_default string_map [] (field "env")
    let restart_policy ← or_default Value.as_str "unless-stopped" (field "restart_policy")
    let host_selector ← or_default (optional expansion.host_selector) none (field "hostSelector")
    return { image, port, domain, health_path, check_interval_minutes, internal_port, env, restart_policy, host_selector }
  else none

/-- What the expanders read of the metadata: the name and the environment. -/
def composite_metadata (kind : String) (raw : Value) : Except ApiError (String × String) := do
  let metadata ← match raw.get "metadata" with
    | some (.object metadata) => .ok (Value.object metadata)
    | _ => .error (.BadRequest (kind ++ ": metadata required"))
  let name ← ((metadata.get "name").bind Value.as_str).elim (.error (.BadRequest (kind ++ ": metadata.name required"))) .ok
  return (name, ((metadata.get "environment").bind Value.as_str).getD "default")

def composite_spec {α : Type} (crates : ExpansionCrates) (kind : String) (read : Value → Option α) (raw : Value) :
    Except ApiError α := do
  let value ← (raw.get "spec").elim (.error (.BadRequest (kind ++ ": spec required"))) .ok
  (read value).elim (.error (.BadRequest (kind ++ " spec: " ++ crates.refusal kind value))) .ok

/-- A primitive that a composite of this kind expands into. -/
def primitive (composite kind name environment : String) (spec : List (String × Value)) : Value :=
  json [("apiVersion", .string "iac.example/v1"), ("kind", .string kind),
    ("metadata", json [("name", .string name), ("environment", .string environment),
      ("annotations", json [("iac.example/composite-of", .string composite)])]),
    ("spec", json spec)]

/-- The entries that an `env` and a host selector add to a spec. -/
def env_entry (env : List (String × String)) : List (String × Value) :=
  if env.isEmpty then [] else [("env", json (env.map fun pair => (pair.1, .string pair.2)))]

def host_entry (selector : Option String) : List (String × Value) :=
  selector.toList.map fun name => ("hostSelector", json [("name", .string name)])

def docker_spec (name image restart_policy : String) (port internal_port : Nat) (env : List (String × String))
    (selector : Option String) : List (String × Value) :=
  [("name", .string name), ("image", .string image), ("state", .string "present"),
    ("restart_policy", .string restart_policy),
    ("ports", .array [.string (toString port ++ ":" ++ toString internal_port)])] ++ env_entry env ++ host_entry selector

def nginx_spec (path domain : String) (port : Nat) (selector : Option String) : List (String × Value) :=
  [("config_path", .string path), ("server_names", .array [.string domain]),
    ("upstream", .string ("http://127.0.0.1:" ++ toString port))] ++ host_entry selector

def file_spec (path mode content : String) (selector : Option String) : List (String × Value) :=
  [("path", .string path), ("state", .string "present"), ("mode", .string mode), ("content", .string content)] ++
    host_entry selector

def cron_spec (name schedule command user : String) (env : List (String × String)) (selector : Option String) :
    List (String × Value) :=
  [("name", .string name), ("state", .string "present"), ("schedule", .string schedule), ("command", .string command),
    ("user", .string user)] ++ env_entry env ++ host_entry selector

def expand_service (crates : ExpansionCrates) (raw : Value) : Except ApiError (List Value) := do
  let (name, environment) ← composite_metadata "service" raw
  let spec ← composite_spec crates "service" ServiceSpec.read raw
  let nginx_path := spec.nginx_config_path.getD ("/etc/nginx/conf.d/" ++ name ++ ".conf")
  return [
    primitive "service" "docker.container" name environment
      (docker_spec name spec.image spec.restart_policy spec.port spec.internal_port spec.env spec.host_selector),
    primitive "service" "nginx.vhost" name environment (nginx_spec nginx_path spec.domain spec.port spec.host_selector)]

def expand_cron_job_bundle (crates : ExpansionCrates) (raw : Value) : Except ApiError (List Value) := do
  let (name, environment) ← composite_metadata "cron-job-bundle" raw
  let spec ← composite_spec crates "cron-job-bundle" CronJobBundleSpec.read raw
  let script_path := spec.script_path.getD ("/usr/local/bin/" ++ name)
  return [
    primitive "cron-job-bundle" "file" (name ++ "-script") environment
      (file_spec script_path spec.mode spec.script spec.host_selector),
    primitive "cron-job-bundle" "cron.job" name environment
      (cron_spec name spec.schedule script_path spec.user spec.env spec.host_selector)]

def healthcheck_script (name healthcheck_url : String) : String :=
  "#!/bin/sh\nset -e\ncurl --max-time 5 --silent --show-error --fail " ++ healthcheck_url ++
    " > /dev/null && logger -t " ++ name ++ "-healthcheck OK || logger -t " ++ name ++ "-healthcheck FAIL\n"

def cron_schedule (check_interval_minutes : Nat) : String :=
  if check_interval_minutes = 1 then "* * * * *" else "*/" ++ toString check_interval_minutes ++ " * * * *"

def expand_web_with_monitoring (crates : ExpansionCrates) (raw : Value) : Except ApiError (List Value) := do
  let (name, environment) ← composite_metadata "web-with-monitoring" raw
  let spec ← composite_spec crates "web-with-monitoring" WebWithMonitoringSpec.read raw
  let healthcheck_script_path := "/usr/local/bin/" ++ name ++ "-healthcheck"
  let healthcheck_url := "http://127.0.0.1:" ++ toString spec.port ++ spec.health_path
  if 1 ≤ spec.check_interval_minutes ∧ spec.check_interval_minutes ≤ 60 then
    return [
      primitive "web-with-monitoring" "docker.container" name environment
        (docker_spec name spec.image spec.restart_policy spec.port spec.internal_port spec.env spec.host_selector),
      primitive "web-with-monitoring" "nginx.vhost" name environment
        (nginx_spec ("/etc/nginx/conf.d/" ++ name ++ ".conf") spec.domain spec.port spec.host_selector),
      primitive "web-with-monitoring" "file" (name ++ "-healthcheck-script") environment
        (file_spec healthcheck_script_path "0755" (healthcheck_script name healthcheck_url) spec.host_selector),
      primitive "web-with-monitoring" "cron.job" (name ++ "-healthcheck") environment
        (cron_spec (name ++ "-healthcheck") (cron_schedule spec.check_interval_minutes) healthcheck_script_path "root" []
          spec.host_selector)]
  else .error (.BadRequest "web-with-monitoring: check_interval_minutes must be 1..=60")

def MAX_EXPANSION_DEPTH : Nat := 8

def is_composite_kind (kind : String) (modules : List Module) : Bool :=
  ["service", "cron-job-bundle", "web-with-monitoring"].contains kind || modules.any fun m => m.name == kind

def kind_of (raw : Value) : Option String :=
  (raw.get "kind").bind Value.as_str

/-- What the loop of `expand_resources_one_pass` makes of one resource: it
passes through, or it is expanded. -/
def expand_one (crates : ExpansionCrates) (modules : List Module) (raw : Value) : Except ApiError (Option (List Value)) :=
  match kind_of raw with
  | none => .error (.BadRequest "resource missing 'kind'")
  | some kind =>
    if kind = "service" then (expand_service crates raw).map some
    else if kind = "cron-job-bundle" then (expand_cron_job_bundle crates raw).map some
    else if kind = "web-with-monitoring" then (expand_web_with_monitoring crates raw).map some
    else
      match modules.find? fun m => m.name == kind with
      | some m => (expand_module crates.toCrates crates.from_yaml m raw).map some
      | none => .ok none

/-- The loop, with what it has put out so far. -/
def one_pass_from (crates : ExpansionCrates) (modules : List Module) :
    List Value → List Value → Bool → Except ApiError (List Value × Bool)
  | [], out, changed => .ok (out, changed)
  | raw :: resources, out, changed => do
    let expanded ← expand_one crates modules raw
    match expanded with
    | some children => one_pass_from crates modules resources (out ++ children) true
    | none => one_pass_from crates modules resources (out ++ [raw]) changed

def expand_resources_one_pass (crates : ExpansionCrates) (modules : List Module) (resources : List Value) :
    Except ApiError (List Value × Bool) :=
  one_pass_from crates modules resources [] false

/-- The rejection of what still changed in the last pass, with the composite kinds it left. -/
def depth_exceeded (modules : List Module) (current : List Value) : ApiError :=
  let cyclic := ((current.filterMap kind_of).filter fun kind => is_composite_kind kind modules).dedup
  .BadRequest ("expansion exceeded MAX_EXPANSION_DEPTH (" ++ toString MAX_EXPANSION_DEPTH ++
    "); likely a recursive module cycle. Composite kinds remaining after final pass: \x7b" ++
    ", ".intercalate ((cyclic.insertionSort (· ≤ ·)).map str.debug) ++ "\x7d")

/-- The loop of `expand_resources`, with so many passes left after this one. -/
def expand_from (crates : ExpansionCrates) (modules : List Module) : Nat → List Value → Except ApiError (List Value)
  | 0, current => do
    let (next, changed) ← expand_resources_one_pass crates modules current
    if changed then .error (depth_exceeded modules next) else .ok next
  | left + 1, current => do
    let (next, changed) ← expand_resources_one_pass crates modules current
    if changed then expand_from crates modules left next else .ok next

def expand_resources (crates : ExpansionCrates) (modules : List Module) (resources : List Value) :
    Except ApiError (List Value) :=
  expand_from crates modules MAX_EXPANSION_DEPTH resources

section Passes

variable {crates : ExpansionCrates} {modules : List Module} {resources out : List Value} {raw : Value}

theorem one_pass_from_eq {changed : Bool} : one_pass_from crates modules resources out changed =
    (rewrite_pass (expand_one crates modules) resources).map fun next => (out ++ next.1, changed || next.2) := by
  induction resources generalizing out changed with
  | nil => simp [one_pass_from, rewrite_pass, Except.map]
  | cons raw resources ih =>
    rw [one_pass_from, rewrite_pass]
    cases hone : expand_one crates modules raw with
    | error e => rfl
    | ok expanded =>
      cases expanded with
      | none | some children =>
        simp only [bind, Except.bind, ih]
        cases rewrite_pass (expand_one crates modules) resources with
        | error e => rfl
        | ok next => simp [Except.map, pure, Except.pure]

theorem expand_resources_one_pass_eq :
    expand_resources_one_pass crates modules resources = rewrite_pass (expand_one crates modules) resources := by
  rw [expand_resources_one_pass, one_pass_from_eq]
  cases rewrite_pass (expand_one crates modules) resources with
  | error e => rfl
  | ok next => simp [Except.map]

theorem expand_from_ok_iff {left : Nat} : expand_from crates modules left resources = .ok out ↔
    settle (expand_one crates modules) (left + 1) resources = .ok (some out) := by
  induction left generalizing resources with
  | zero =>
    rw [expand_from, settle, expand_resources_one_pass_eq]
    cases rewrite_pass (expand_one crates modules) resources with
    | error e => simp [bind, Except.bind]
    | ok next =>
      obtain ⟨next, changed⟩ := next
      cases changed <;> simp [bind, Except.bind, pure, Except.pure, settle]
  | succ left ih =>
    rw [expand_from, settle, expand_resources_one_pass_eq]
    cases rewrite_pass (expand_one crates modules) resources with
    | error e => simp [bind, Except.bind]
    | ok next =>
      obtain ⟨next, changed⟩ := next
      cases changed with
      | true => simpa [bind, Except.bind] using ih
      | false => simp [bind, Except.bind, pure, Except.pure]

/-- The resource has a kind, and it is no composite. -/
def is_primitive (modules : List Module) (raw : Value) : Bool :=
  (kind_of raw).any fun kind => !is_composite_kind kind modules

/-- Exactly what passes through is primitive. -/
theorem expand_one_none_iff : expand_one crates modules raw = .ok none ↔ is_primitive modules raw = true := by
  have hmap (x : Except ApiError (List Value)) : x.map some ≠ .ok none := by
    cases x <;> simp [Except.map]
  rw [expand_one, is_primitive]
  cases kind_of raw with
  | none => simp
  | some kind =>
    simp only [Option.any_some, Bool.not_eq_true', is_composite_kind]
    split_ifs with hservice hcron hweb
    · simp [hmap, hservice]
    · simp [hmap, hcron]
    · simp [hmap, hweb]
    · cases hfind : modules.find? fun m => m.name == kind with
      | none =>
        have hnone : (modules.any fun m => m.name == kind) = false := by
          simpa [List.find?_eq_none] using hfind
        simp [hservice, hcron, hweb, hnone]
      | some m =>
        have hname : (m.name == kind) = true := by simpa using List.find?_some hfind
        have hsome : (modules.any fun m => m.name == kind) = true :=
          List.any_eq_true.mpr ⟨m, List.mem_of_find?_eq_some hfind, hname⟩
        simp [hmap, hsome]

/-- What an expansion has done: each resource has become the primitives it
expands into, in its place, and a primitive has been left as it was. -/
structure Expanded (crates : ExpansionCrates) (modules : List Module) (resources out : List Value) : Prop where
  grown : GrowsAll (expand_one crates modules) MAX_EXPANSION_DEPTH resources out
  primitives : ∀ raw ∈ out, is_primitive modules raw = true
  kept : (resources.filter (is_primitive modules)).Sublist out
  again : expand_resources crates modules out = .ok out

/-- Expansion always ends. It succeeds with what the resources expand into, and
fails exactly when one of them, or a resource that it gives way to in at most
eight generations, is invalid, or still a composite in the eighth. -/
theorem expansion_is_complete (crates : ExpansionCrates) (modules : List Module) (resources : List Value) :
    (∀ out, expand_resources crates modules resources = .ok out ↔ Expanded crates modules resources out) ∧
      ((∃ e, expand_resources crates modules resources = .error e) ↔
        ∃ raw ∈ resources, Stuck (expand_one crates modules) MAX_EXPANSION_DEPTH raw) := by
  have hsettle (out : List Value) : expand_resources crates modules resources = .ok out ↔
      settle (expand_one crates modules) (MAX_EXPANSION_DEPTH + 1) resources = .ok (some out) := expand_from_ok_iff
  refine ⟨fun out => ⟨fun h => ?_, fun h => (hsettle out).mpr (settle_ok_iff.mpr h.grown)⟩, ?_⟩
  · have hsettled := (hsettle out).mp h
    have hgrown := settle_ok_iff.mp hsettled
    refine ⟨hgrown, fun raw hraw => expand_one_none_iff.mp (stays_of_growsAll hgrown raw hraw),
      sublist_of_growsAll (fun raw hraw => expand_one_none_iff.mpr hraw) hgrown, ?_⟩
    exact expand_from_ok_iff.mpr (settle_again hsettled MAX_EXPANSION_DEPTH)
  · rw [← not_settled_iff]
    simp only [ne_eq, ← hsettle]
    cases expand_resources crates modules resources <;> simp

end Passes

structure SpecField where
  name : String
  type : String
  required : Bool
  description : String

def f_req (name type description : String) : SpecField := ⟨name, type, true, description⟩

def f_opt (name type description : String) : SpecField := ⟨name, type, false, description⟩

/-- An entry of the catalogue, without the summary that it alone shows. -/
structure ExpanderDescriptor where
  kind : String
  emits : List String
  spec_fields : List SpecField

def service_expander : ExpanderDescriptor where
  kind := "service"
  emits := ["docker.container", "nginx.vhost"]
  spec_fields := [
    f_req "image" "string" "Container image reference (e.g. nginx:1.27-alpine)",
    f_req "port" "number" "Published host port (1..=65535)",
    f_req "domain" "string" "Public domain wired into the nginx vhost",
    f_opt "internal_port" "number" "Container's listen port; default 80",
    f_opt "env" "map<string,string>" "Container env vars (KEY=VALUE)",
    f_opt "restart_policy" "string" "Docker restart policy; default \"unless-stopped\"",
    f_opt "nginx_config_path" "string" "Override the nginx config path; default /etc/nginx/conf.d/<name>.conf",
    f_opt "hostSelector" "object" "\x7b name: <agent-name> \x7d pinning the resources to a specific agent"]

def cron_job_bundle_expander : ExpanderDescriptor where
  kind := "cron-job-bundle"
  emits := ["cron.job", "file"]
  spec_fields := [
    f_req "schedule" "string" "5-field crontab schedule (min hour dom mon dow)",
    f_req "script" "string" "Verbatim script body written to scriptPath",
    f_opt "scriptPath" "string" "Override script location; default /usr/local/bin/<name>",
    f_opt "user" "string" "Cron user; default root",
    f_opt "mode" "string" "File mode (octal string); default 0755",
    f_opt "env" "map<string,string>" "Cron env-var lines emitted at the top of the cron file",
    f_opt "hostSelector" "object" "\x7b name: <agent-name> \x7d pinning the resources to a specific agent"]

def web_with_monitoring_expander : ExpanderDescriptor where
  kind := "web-with-monitoring"
  emits := ["cron.job", "docker.container", "file", "nginx.vhost"]
  spec_fields := [
    f_req "image" "string" "Container image reference",
    f_req "port" "number" "Published host port",
    f_req "domain" "string" "Public domain",
    f_opt "health_path" "string" "Path probed by the healthcheck; default /healthz",
    f_opt "check_interval_minutes" "number" "Probe cadence in minutes (1..=60); default 5",
    f_opt "internal_port" "number" "Container's listen port; default 80",
    f_opt "env" "map<string,string>" "Container env vars",
    f_opt "restart_policy" "string" "Docker restart policy; default \"unless-stopped\"",
    f_opt "hostSelector" "object" "\x7b name: <agent-name> \x7d pinning the resources to a specific agent"]

def list_expanders : List ExpanderDescriptor :=
  [service_expander, cron_job_bundle_expander, web_with_monitoring_expander]

section Children

variable {composite kind name environment : String} {spec fields : List (String × Value)} {selector : Option String}

/-- A primitive that an expander emits: its host selector is the composite's. -/
def Emits (composite environment : String) (selector : Option String) (named : String × String) (child : Value) : Prop :=
  ∃ fields, (∀ field ∈ fields, field.1 ≠ "hostSelector") ∧
    child = primitive composite named.1 named.2 environment (fields ++ host_entry selector)

theorem kind_of_primitive : kind_of (primitive composite kind name environment spec) = some kind := by
  simp [kind_of, primitive, Value.get_json, Value.as_str]

theorem metadata_of_primitive : (primitive composite kind name environment spec).get "metadata" =
    some (json [("name", .string name), ("environment", .string environment),
      ("annotations", json [("iac.example/composite-of", .string composite)])]) := by
  simp [primitive, Value.get_json]

theorem host_selector_of_primitive (h : ∀ field ∈ fields, field.1 ≠ "hostSelector") :
    store.host_selector_of (primitive composite kind name environment (fields ++ host_entry selector)) = selector := by
  have hspec : (primitive composite kind name environment (fields ++ host_entry selector)).get "spec" =
      some (json (fields ++ host_entry selector)) := by
    simp [primitive, Value.get_json]
  have hnone : fields.reverse.find? (fun field => field.1 == "hostSelector") = none := by
    refine List.find?_eq_none.mpr fun field hfield => ?_
    simpa using h field (List.mem_reverse.mp hfield)
  rw [store.host_selector_of, hspec]
  cases selector with
  | none => simp [host_entry, Value.get_json, hnone]
  | some host => simp [host_entry, Value.get_json, Value.as_str]

private theorem env_entry_key {env : List (String × String)} : ∀ field ∈ env_entry env, field.1 = "env" := by
  intro field hfield
  rw [env_entry] at hfield
  split_ifs at hfield
  · cases hfield
  · rw [List.mem_singleton.mp hfield]

theorem emits_docker {image restart_policy : String} {port internal_port : Nat} {env : List (String × String)} :
    Emits composite environment selector ("docker.container", name) (primitive composite "docker.container" name environment
      (docker_spec name image restart_policy port internal_port env selector)) :=
  ⟨_, List.forall_mem_append.mpr ⟨by simp, fun field hfield => by simp [env_entry_key field hfield]⟩, rfl⟩

theorem emits_nginx {path domain : String} {port : Nat} :
    Emits composite environment selector ("nginx.vhost", name) (primitive composite "nginx.vhost" name environment
      (nginx_spec path domain port selector)) :=
  ⟨_, by simp, rfl⟩

theorem emits_file {path mode content : String} :
    Emits composite environment selector ("file", name) (primitive composite "file" name environment
      (file_spec path mode content selector)) :=
  ⟨_, by simp, rfl⟩

theorem emits_cron {job schedule command user : String} {env : List (String × String)} :
    Emits composite environment selector ("cron.job", name) (primitive composite "cron.job" name environment
      (cron_spec job schedule command user env selector)) :=
  ⟨_, List.forall_mem_append.mpr ⟨by simp, fun field hfield => by simp [env_entry_key field hfield]⟩, rfl⟩

end Children

section Builtin

variable {crates : ExpansionCrates} {modules : List Module} {raw : Value} {children : List Value}

/-- What an expander that succeeds has read, and the primitives it emits. -/
def ExpandsInto (kind : String) (raw : Value) (children : List Value) (kinds : List String) : Prop :=
  ∃ name environment selector names, composite_metadata kind raw = .ok (name, environment) ∧
    List.Forall₂ (Emits kind environment selector) (kinds.zip names) children ∧ names.length = kinds.length

theorem expand_service_ok (h : expand_service crates raw = .ok children) :
    ExpandsInto "service" raw children ["docker.container", "nginx.vhost"] := by
  obtain ⟨⟨name, environment⟩, hmetadata, h⟩ := fallible.bind_eq_ok_iff.mp h
  obtain ⟨spec, -, h⟩ := fallible.bind_eq_ok_iff.mp h
  obtain rfl := Except.ok.inj h
  exact ⟨name, environment, spec.host_selector, [name, name], hmetadata,
    .cons emits_docker (.cons emits_nginx .nil), rfl⟩

theorem expand_cron_job_bundle_ok (h : expand_cron_job_bundle crates raw = .ok children) :
    ExpandsInto "cron-job-bundle" raw children ["file", "cron.job"] := by
  obtain ⟨⟨name, environment⟩, hmetadata, h⟩ := fallible.bind_eq_ok_iff.mp h
  obtain ⟨spec, -, h⟩ := fallible.bind_eq_ok_iff.mp h
  obtain rfl := Except.ok.inj h
  exact ⟨name, environment, spec.host_selector, [name ++ "-script", name], hmetadata,
    .cons emits_file (.cons emits_cron .nil), rfl⟩

theorem expand_web_with_monitoring_ok (h : expand_web_with_monitoring crates raw = .ok children) :
    ExpandsInto "web-with-monitoring" raw children ["docker.container", "nginx.vhost", "file", "cron.job"] := by
  obtain ⟨⟨name, environment⟩, hmetadata, h⟩ := fallible.bind_eq_ok_iff.mp h
  obtain ⟨spec, -, h⟩ := fallible.bind_eq_ok_iff.mp h
  split_ifs at h
  obtain rfl := Except.ok.inj h
  exact ⟨name, environment, spec.host_selector, [name, name, name ++ "-healthcheck-script", name ++ "-healthcheck"],
    hmetadata, .cons emits_docker (.cons emits_nginx (.cons emits_file (.cons emits_cron .nil))), rfl⟩

theorem ok_of_map_some {x : Except ApiError (List Value)} (h : x.map some = .ok (some children)) :
    x = .ok children := by
  cases x with
  | error e => cases h
  | ok value => exact congrArg Except.ok (Option.some.inj (Except.ok.inj h))

/-- A built-in composite expands into one primitive of each kind that the catalogue lists for it. -/
theorem expand_builtin {d : ExpanderDescriptor} (hd : d ∈ list_expanders) (hkind : kind_of raw = some d.kind)
    (h : expand_one crates modules raw = .ok (some children)) :
    ∃ kinds, kinds.Perm d.emits ∧ ExpandsInto d.kind raw children kinds := by
  rw [expand_one, hkind] at h
  simp only [list_expanders, List.mem_cons, List.not_mem_nil, or_false] at hd
  obtain rfl | rfl | rfl := hd
  · exact ⟨_, by decide, expand_service_ok (ok_of_map_some h)⟩
  · exact ⟨_, by decide, expand_cron_job_bundle_ok (ok_of_map_some h)⟩
  · exact ⟨_, by decide, expand_web_with_monitoring_ok (ok_of_map_some h)⟩

end Builtin

section Routing

open api store

variable {crates : Crates} {composite kind name environment op_env : String} {spec : List (String × Value)}
  {selector : Option String} {named : String × String} {child : Value} {r : ResourceForRouting}

theorem name_of_primitive :
    (((primitive composite kind name environment spec).get "metadata").bind fun m => m.get "name").bind Value.as_str =
      some name := by
  rw [metadata_of_primitive]
  simp [Value.get_json, Value.as_str]

theorem environment_of_primitive :
    (((primitive composite kind name environment spec).get "metadata").bind fun m => m.get "environment").bind Value.as_str =
      some environment := by
  rw [metadata_of_primitive]
  simp [Value.get_json, Value.as_str]

theorem manifest_primitive : Manifest environment (primitive composite kind name environment spec) kind name :=
  ⟨kind_of_primitive, name_of_primitive, .inr environment_of_primitive⟩

/-- A primitive of a composite is admitted in the composite's environment only,
under its kind, its name and the composite's host selector. -/
theorem extract_emitted (h : Emits composite environment selector named child)
    (hextract : extract_routing crates op_env child = .ok r) :
    op_env = environment ∧ r.kind = named.1 ∧ r.resource_id = resource_id_of named.1 environment named.2 ∧
      r.host_selector = selector := by
  obtain ⟨fields, hfields, rfl⟩ := h
  obtain ⟨kind, name, hmanifest, hid, hkind, -, -, -, hselector⟩ := extract_routing_spec hextract
  obtain rfl : kind = named.1 := Option.some.inj (hmanifest.kind_eq.symm.trans kind_of_primitive)
  obtain rfl : name = named.2 := Option.some.inj (hmanifest.name_eq.symm.trans name_of_primitive)
  obtain rfl : op_env = environment := by
    obtain hnone | hsome := hmanifest.environment_eq
    · rw [environment_of_primitive] at hnone
      cases hnone
    · exact Option.some.inj (hsome.symm.trans environment_of_primitive)
  exact ⟨rfl, hkind, hid, hselector.trans (host_selector_of_primitive hfields)⟩

/-- The text before the first slash. -/
def id_kind (resource_id : String) : String :=
  String.ofList (resource_id.toList.takeWhile (· ≠ '/'))

theorem id_kind_of_resource_id (h : '/' ∉ kind.toList) : id_kind (resource_id_of kind environment name) = kind := by
  have hall : ∀ c ∈ kind.toList, decide (c ≠ '/') = true := by
    intro c hc
    rw [decide_eq_true_eq]
    rintro rfl
    exact h hc
  have htext : (resource_id_of kind environment name).toList =
      kind.toList ++ '/' :: (environment.toList ++ '/' :: name.toList) := by
    simp [resource_id_of]
  rw [id_kind, htext, List.takeWhile_append_of_pos hall, List.takeWhile_cons_of_neg (by simp), List.append_nil,
    String.ofList_toList]

theorem kinds_of_routed {nameds : List (String × String)} {children : List Value} {routing : List ResourceForRouting}
    (hchildren : List.Forall₂ (Emits composite environment selector) nameds children)
    (hrouting : List.Forall₂ (fun child r => extract_routing crates op_env child = .ok r) children routing)
    (hslash : ∀ named ∈ nameds, '/' ∉ named.1.toList) :
    (routing.map ResourceForRouting.resource_id).map id_kind = nameds.map Prod.fst := by
  induction hchildren generalizing routing with
  | nil =>
    obtain rfl := List.forall₂_nil_left_iff.mp hrouting
    rfl
  | cons hemitted _ ih =>
    obtain ⟨r, routing, hr, hrest, rfl⟩ := List.forall₂_cons_left_iff.mp hrouting
    obtain ⟨hself, hothers⟩ := List.forall_mem_cons.mp hslash
    simp only [List.map_cons, ih hrest hothers, (extract_emitted hemitted hr).2.2.1, id_kind_of_resource_id hself]

/-- What holds of the primitives of a built-in composite. -/
structure Together (crates : ExpansionCrates) (d : ExpanderDescriptor) (environment : String) (children : List Value) :
    Prop where
  emitted : (children.map kind_of).Perm (d.emits.map some)
  independent : ∀ child ∈ children, ((child.get "metadata").bind fun m => m.get "dependsOn") = none
  admitted : ∀ op_env, ∀ child ∈ children, (∃ r, extract_routing crates.toCrates op_env child = .ok r) ↔ op_env = environment
  distinct : ∀ op_env routing,
    List.Forall₂ (fun child r => extract_routing crates.toCrates op_env child = .ok r) children routing →
    (routing.map ResourceForRouting.resource_id).Nodup
  routed : ∀ op_env agents, ∀ child ∈ children, ∀ child' ∈ children, ∀ r r',
    extract_routing crates.toCrates op_env child = .ok r → extract_routing crates.toCrates op_env child' = .ok r' →
      route_resource r op_env agents = route_resource r' op_env agents

private theorem catalogue_kinds : ∀ d ∈ list_expanders, d.emits.Nodup ∧ ∀ kind ∈ d.emits, '/' ∉ kind.toList := by
  decide

/-- The primitives of a built-in composite are of the kinds that the catalogue
lists, have distinct ids, carry no dependency, are admitted in the composite's
environment only (`default` when it names none) and go to one agent. -/
theorem composite_stays_together {crates : ExpansionCrates} {modules : List Module} {raw : Value} {children : List Value}
    {d : ExpanderDescriptor} (hd : d ∈ list_expanders) (hkind : kind_of raw = some d.kind)
    (h : expand_one crates modules raw = .ok (some children)) :
    ∃ name environment, composite_metadata d.kind raw = .ok (name, environment) ∧
      Together crates d environment children := by
  obtain ⟨kinds, hperm, name, environment, selector, names, hmetadata, hchildren, hlength⟩ := expand_builtin hd hkind h
  obtain ⟨hnodup, hslash⟩ := catalogue_kinds d hd
  have hemits {child : Value} (hchild : child ∈ children) :
      ∃ named, Emits d.kind environment selector named child :=
    (fallible.exists_left hchildren hchild).imp fun _ h => h.2
  have hkinds : (kinds.zip names).map Prod.fst = kinds := List.map_fst_zip (Nat.le_of_eq hlength.symm)
  refine ⟨name, environment, hmetadata, ?_, ?_, ?_, ?_, ?_⟩
  · have hmap : children.map kind_of = ((kinds.zip names).map Prod.fst).map some := by
      rw [List.map_map, ← List.forall₂_eq_eq_eq, List.forall₂_map_left_iff, List.forall₂_map_right_iff]
      refine hchildren.flip.imp ?_
      rintro child named ⟨fields, -, rfl⟩
      exact kind_of_primitive
    rw [hmap, hkinds]
    exact hperm.map some
  · intro child hchild
    obtain ⟨named, fields, -, rfl⟩ := hemits hchild
    rw [metadata_of_primitive]
    simp [Value.get_json]
  · intro op_env child hchild
    obtain ⟨named, hemitted⟩ := hemits hchild
    refine ⟨fun ⟨r, hr⟩ => (extract_emitted hemitted hr).1, ?_⟩
    rintro rfl
    obtain ⟨fields, -, rfl⟩ := hemitted
    exact ⟨_, extract_routing_of_manifest manifest_primitive⟩
  · intro op_env routing hrouting
    have hids : (routing.map ResourceForRouting.resource_id).map id_kind = kinds := by
      refine (kinds_of_routed hchildren hrouting fun named hnamed => ?_).trans hkinds
      exact hslash _ (hperm.mem_iff.mp (hkinds ▸ List.mem_map_of_mem hnamed))
    exact List.Nodup.of_map id_kind (hids ▸ hperm.nodup_iff.mpr hnodup)
  · intro op_env agents child hchild child' hchild' r r' hr hr'
    obtain ⟨named, hemitted⟩ := hemits hchild
    obtain ⟨named', hemitted'⟩ := hemits hchild'
    have hselector := (extract_emitted hemitted hr).2.2.2
    have hselector' := (extract_emitted hemitted' hr').2.2.2
    exact route_resource_congr (hselector.trans hselector'.symm) agents

/-- The crates where no YAML is read and no spec is refused. -/
def expansion_crates : ExpansionCrates where
  toCrates := Crates.on []
  from_yaml _ := .ok (.sequence [])
  refusal _ _ := "missing field"

def shop_service : Value :=
  json [("kind", .string "service"), ("metadata", json [("name", .string "shop"), ("environment", .string "prod")]),
    ("spec", json [("image", .string "nginx:1.27-alpine"), ("port", of_nat 8080), ("domain", .string "shop.example.com"),
      ("hostSelector", json [("name", .string "web-1")])])]

theorem shop_service_stays_together : ∃ children, expand_one expansion_crates [] shop_service = .ok (some children) ∧
    ∃ name environment, composite_metadata service_expander.kind shop_service = .ok (name, environment) ∧
      Together expansion_crates service_expander environment children := by
  have hchildren : ∃ children, expand_one expansion_crates [] shop_service = .ok (some children) := ⟨_, rfl⟩
  obtain ⟨children, hchildren⟩ := hchildren
  exact ⟨children, hchildren, composite_stays_together List.mem_cons_self (by decide) hchildren⟩

end Routing

end iac_controlplane.expansion
