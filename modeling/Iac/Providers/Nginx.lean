import Iac.Core.Text
import Iac.Providers.Lifecycle

open iac_core iac_core.executor serde_json effect

namespace iac_providers.nginx

inductive NginxState where
  | Present
  | Absent
  deriving DecidableEq, Repr

structure ExtraLocation where
  path : String
  proxy_pass : Option String := none
  root : Option String := none

structure TlsConfig where
  certificate : String
  key : String
  redirect_http : Bool := true

structure NginxVhostSpec where
  config_path : String
  state : NginxState := .Present
  server_names : List String := []
  listen : List UInt16 := [80]
  upstream : Option String := none
  client_max_body_size : Option String := none
  proxy_read_timeout : Option String := none
  tls : Option TlsConfig := none
  extra_locations : List ExtraLocation := []

/-- 443 is added when there is TLS. -/
def NginxVhostSpec.effective_listen (spec : NginxVhostSpec) : List UInt16 :=
  if spec.tls.isSome && !spec.listen.contains 443 then spec.listen ++ [443] else spec.listen

def proxy_headers : List String :=
  ["        proxy_http_version 1.1;", "        proxy_set_header Host $host;",
    "        proxy_set_header X-Real-IP $remote_addr;",
    "        proxy_set_header X-Forwarded-For $proxy_add_x_forwarded_for;",
    "        proxy_set_header X-Forwarded-Proto $scheme;"]

/-- A directive that is written when it has a value. -/
def directive (indent name : String) (value : Option String) : List String :=
  (value.map fun v => indent ++ name ++ " " ++ v ++ ";").toList

/-- The lines of an extra location. -/
def location_lines (loc : ExtraLocation) : List String :=
  ["    location " ++ loc.path ++ " \x7b"] ++
    (match loc.proxy_pass with
      | some upstream => ("        proxy_pass " ++ upstream ++ ";") :: proxy_headers
      | none => []) ++
    directive "        " "root" loc.root ++ ["    \x7d"]

def listen_lines (tls : Bool) (port : UInt16) : List String :=
  let ssl := if tls && port == 443 then " ssl" else ""
  ["    listen " ++ toString port ++ ssl ++ ";", "    listen [::]:" ++ toString port ++ ssl ++ ";"]

def NginxVhostSpec.render_redirect (spec : NginxVhostSpec) : Bool :=
  spec.tls.any TlsConfig.redirect_http && spec.effective_listen.contains 80 && spec.effective_listen.contains 443

/-- The ports of the main block; a redirect takes 80 away. -/
def NginxVhostSpec.main_ports (spec : NginxVhostSpec) : List UInt16 :=
  spec.effective_listen.filter fun port => !(spec.tls.isSome && spec.render_redirect && port == 80)

def redirect_lines (names : String) : List String :=
  ["server \x7b", "    listen 80;", "    listen [::]:80;", "    server_name " ++ names ++ ";",
    "    return 301 https://$host$request_uri;", "\x7d"]

def tls_lines (tls : TlsConfig) : List String :=
  ["    ssl_certificate " ++ tls.certificate ++ ";", "    ssl_certificate_key " ++ tls.key ++ ";",
    "    ssl_protocols TLSv1.2 TLSv1.3;", "    ssl_prefer_server_ciphers on;"]

def rendered_lines (spec : NginxVhostSpec) : List String :=
  let names := " ".intercalate spec.server_names
  ["# Managed by iac. Do not edit by hand."] ++
    (if spec.render_redirect then redirect_lines names else []) ++
    ["server \x7b"] ++ spec.main_ports.flatMap (listen_lines spec.tls.isSome) ++
    ["    server_name " ++ names ++ ";"] ++ spec.tls.elim [] tls_lines ++
    directive "    " "client_max_body_size" spec.client_max_body_size ++ ["    location / \x7b"] ++
    directive "        " "proxy_pass" spec.upstream ++ proxy_headers ++
    directive "        " "proxy_read_timeout" spec.proxy_read_timeout ++ ["    \x7d"] ++
    spec.extra_locations.flatMap location_lines ++ ["\x7d"]

def render (spec : NginxVhostSpec) : String := String.join ((rendered_lines spec).map fun line => line ++ "\n")

inductive NginxAction where
  | Write
  | Remove

def NginxAction.as_str : NginxAction → String
  | .Write => "nginx.write"
  | .Remove => "nginx.remove"

def NginxAction.parse : String → Except Error NginxAction
  | "nginx.write" => .ok .Write
  | "nginx.remove" => .ok .Remove
  | other => .error (.Provider "NginxAction" ("unknown step action " ++ str.debug other))

structure NginxBackend (Host : Type) where
  read_config : String → Host → Except Error (Option String)
  write_config : String → String → Prog Host Error Unit
  remove_config : String → Prog Host Error Unit
  validate : Prog Host Error Unit
  reload : Prog Host Error Unit

section Operations

variable {Host : Type} (sha256_hex : List UInt8 → String) (backend : NginxBackend Host)

def sha256_text (text : String) : String := sha256_hex text.toByteArray.data.toList

def observe (spec : NginxVhostSpec) (host : Host) : Except Error ObservedState := do
  match ← backend.read_config spec.config_path host with
  | some text =>
    let sha := sha256_text sha256_hex text
    return {
      present := true
      spec := .object [("config_path", .string spec.config_path), ("content_sha256", .string sha)]
      facts := [("present", .bool true), ("content_sha256", .string sha), ("size", of_nat text.utf8ByteSize)] }
  | none => return { present := false, spec := .null, facts := [("present", .bool false)] }

def diff (spec : NginxVhostSpec) (observed : ObservedState) : Diff :=
  match spec.state, observed.present with
  | .Absent, false => .no_change
  | .Absent, true =>
    { kind := .Update, changes := [⟨"state", some (.string "present"), some (.string "absent"), false⟩]
      reasons := ["remove " ++ spec.config_path], reversible := true }
  | .Present, false =>
    { kind := .Create, changes := [⟨"state", some (.string "absent"), some (.string "present"), false⟩]
      reasons := ["create " ++ spec.config_path], reversible := true }
  | .Present, true =>
    let desired_sha := sha256_text sha256_hex (render spec)
    let observed_sha := ((observed.facts.lookup "content_sha256").bind Value.as_str).getD ""
    if desired_sha = observed_sha then .no_change
    else
      { kind := .Update, changes := [⟨"content_sha256", some (.string observed_sha), some (.string desired_sha), false⟩]
        reasons := ["rendered config differs"], reversible := true }

def plan (id : Ulid) (spec : NginxVhostSpec) (diff : Diff) : List Step :=
  if !diff.is_change then []
  else
    let payload := json [("path", .string spec.config_path)]
    match spec.state with
    | .Present => [Step.new id NginxAction.Write.as_str ("write " ++ spec.config_path) payload]
    | .Absent => [Step.new id NginxAction.Remove.as_str ("remove " ++ spec.config_path) payload]

def checkpoint (path : String) : Option String → Value
  | some text => json [("path", .string path), ("existed", .bool true), ("content", .string text)]
  | none => json [("path", .string path), ("existed", .bool false)]

def pre_apply (spec : NginxVhostSpec) (host : Host) : Except Error Value := do
  return checkpoint spec.config_path (← backend.read_config spec.config_path host)

def existed (checkpoint : Value) : Bool :=
  match checkpoint.get "existed" with
  | some (.bool b) => b
  | _ => false

def restore (path : String) (checkpoint : Value) : Prog Host Error Unit :=
  if existed checkpoint then
    match (checkpoint.get "content").bind Value.as_str with
    | some content => backend.write_config path content
    | none => pure ()
  else backend.remove_config path

/-- The file is changed, checked and loaded; what fails the check is taken back. -/
def change_and_reload (spec : NginxVhostSpec) (change : Prog Host Error Unit) (checkpoint : Value) (rejected : String) :
    Prog Host Error Unit := do
  change
  match ← attempt backend.validate with
  | .error e =>
    restore backend spec.config_path checkpoint
    throw (.Provider "nginx" (rejected ++ e.to_string))
  | .ok () => backend.reload

def apply (spec : NginxVhostSpec) (step : Step) (checkpoint : Value) : Prog Host Error StepResult := do
  match NginxAction.parse step.action with
  | .error e => throw e
  | .ok .Write =>
    let content := render spec
    change_and_reload backend spec (backend.write_config spec.config_path content) checkpoint
      "nginx -t rejected the rendered config; restored: "
    return {
      status := .Succeeded
      message := "wrote and reloaded " ++ spec.config_path
      data := json [("path", .string spec.config_path), ("bytes", of_nat content.utf8ByteSize),
        ("content_sha256", .string (sha256_text sha256_hex content))]
      error := none }
  | .ok .Remove =>
    change_and_reload backend spec (backend.remove_config spec.config_path) checkpoint
      "nginx -t rejected the post-removal state; restored: "
    return .ok ("removed and reloaded " ++ spec.config_path)

def rollback (spec : NginxVhostSpec) (checkpoint : Value) : Prog Host Error Unit := do
  restore backend spec.config_path checkpoint
  backend.validate
  backend.reload

def ops : Ops Host NginxVhostSpec where
  observe := observe sha256_hex backend
  diff spec observed := .ok (diff sha256_hex spec observed)
  plan := plan
  pre_apply := pre_apply backend
  apply := apply sha256_hex backend
  rollback := rollback backend

end Operations

end iac_providers.nginx
