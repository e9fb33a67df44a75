import Iac.Collections.Paths
import Iac.Core.Dalek
import Iac.Core.Numeral
import Iac.Core.Protocol
import Iac.Core.Text
import Iac.Providers.Lifecycle

open iac_core iac_core.executor iac_core.protocol serde_json effect

namespace iac_providers.acme

inductive AcmeState where
  | Present
  | Absent
  deriving DecidableEq, Repr

inductive ChallengeKind where
  | Http01
  | Dns01Cloudflare
  deriving DecidableEq, Repr

structure AcmeCertSpec where
  domains : List String
  email : String
  cert_dir : List Char
  state : AcmeState := .Present
  renew_window_days : Nat := 30
  staging : Bool := false
  challenge : ChallengeKind
  webroot : Option (List Char) := none
  cloudflare_api_token : Option String := none
  server_url : Option String := none

/-- The first domain, without the star of a wildcard. -/
def AcmeCertSpec.primary_domain (spec : AcmeCertSpec) : List Char :=
  ((spec.domains.headD "").toList.dropWhile (· == '*')).dropWhile (· == '.')

/-- The files of a certificate directory. The last holds an expiry that is read
before the certificate's own. -/
inductive Part where
  | Cert
  | Key
  | Expiry
  deriving DecidableEq, Repr

def Part.extension : Part → List Char
  | .Cert => ".crt".toList
  | .Key => ".key".toList
  | .Expiry => ".expiry".toList

def Part.file (cert_dir domain : List Char) (part : Part) : List Char := path.join cert_dir (domain ++ part.extension)

def AcmeCertSpec.file (spec : AcmeCertSpec) (part : Part) : List Char := part.file spec.cert_dir spec.primary_domain

def AcmeCertSpec.cert_file (spec : AcmeCertSpec) : List Char := spec.file .Cert

def AcmeCertSpec.key_file (spec : AcmeCertSpec) : List Char := spec.file .Key

def check_domain (d : String) : Except String Unit :=
  if d = "" then .error "domain entries must not be empty"
  else if ' ' ∈ d.toList then .error ("domain " ++ str.debug d ++ " contains whitespace")
  else .ok ()

def check_challenge (spec : AcmeCertSpec) : Except String Unit :=
  match spec.challenge with
  | .Http01 =>
    match spec.webroot with
    | none => .error "challenge=http-01 requires webroot"
    | some webroot =>
      if !path.is_absolute webroot then .error ("webroot " ++ String.ofList webroot ++ " must be absolute")
      else spec.domains.forM fun d =>
        if d.toList.head? = some '*' then .error ("wildcard domain " ++ str.debug d ++ " requires challenge=dns-01-*")
        else .ok ()
  | .Dns01Cloudflare =>
    if spec.cloudflare_api_token.getD "" = "" then .error "challenge=dns-01-cloudflare requires cloudflare_api_token"
    else .ok ()

/-- The shapes of loopback hosts. -/
def is_loopback_host (host : List Char) : Bool :=
  host = "localhost".toList || host = "::1".toList || host = "[::1]".toList || "127.".toList.isPrefixOf host

def check_server_url (spec : AcmeCertSpec) : Except String Unit :=
  match spec.server_url with
  | none => .ok ()
  | some url =>
    if spec.staging then .error "server_url and staging=true are mutually exclusive"
    else
      match "https://".toList.isPrefixOf? url.toList, "http://".toList.isPrefixOf? url.toList with
      | some rest, _ => if rest = [] then .error ("server_url " ++ str.debug url ++ " has no host") else .ok ()
      | none, some rest =>
        if !is_loopback_host (rest.takeWhile fun c => c ≠ '/' && c ≠ ':') then
          .error ("server_url " ++ str.debug url ++ " uses plain http on non-loopback host; refuse")
        else .ok ()
      | none, none => .error ("server_url " ++ str.debug url ++ " must start with https:// or http://localhost")

def check_domains (spec : AcmeCertSpec) : Except String Unit :=
  if spec.domains = [] then .error "domains must not be empty" else spec.domains.forM check_domain

def check_email (spec : AcmeCertSpec) : Except String Unit :=
  if spec.email = "" ∨ '@' ∉ spec.email.toList then .error ("email " ++ str.debug spec.email ++ " is not a valid address")
  else .ok ()

def check_cert_dir (spec : AcmeCertSpec) : Except String Unit :=
  if !path.is_absolute spec.cert_dir then .error ("cert_dir " ++ String.ofList spec.cert_dir ++ " must be absolute")
  else .ok ()

def check_window (spec : AcmeCertSpec) : Except String Unit :=
  if spec.renew_window_days = 0 ∨ spec.renew_window_days > 89 then
    .error ("renew_window_days " ++ toString spec.renew_window_days ++
      " out of sane range (1..=89; Let's Encrypt certs last 90d)")
  else .ok ()

def AcmeCertSpec.validate (spec : AcmeCertSpec) : Except String Unit := do
  check_domains spec
  check_email spec
  check_cert_dir spec
  check_window spec
  check_challenge spec
  check_server_url spec

inductive AcmeAction where
  | Issue
  | Renew
  | Revoke
  deriving DecidableEq, Repr

def AcmeAction.as_str : AcmeAction → String
  | .Issue => "acme-issue"
  | .Renew => "acme-renew"
  | .Revoke => "acme-revoke"

def AcmeAction.parse : String → Except Error AcmeAction
  | "acme-issue" => .ok .Issue
  | "acme-renew" => .ok .Renew
  | "acme-revoke" => .ok .Revoke
  | other => .error (.Provider "AcmeAction" ("unknown step action " ++ str.debug other))

structure AcmeBackend (Host : Type) where
  issue : AcmeCertSpec → Prog Host Error Unit
  renew : AcmeCertSpec → Prog Host Error Unit
  revoke : AcmeCertSpec → Prog Host Error Unit

/-- The calls of `std::fs` and of `openssl` on certificates, with the clock. A
removal that fails is not looked at, so its program is what it leaves. -/
structure FileSystem (Host : Type) where
  path_exists : List Char → Host → Bool
  read : List Char → Host → Option ByteArray
  create_dir_all : List Char → Prog Host String Unit
  write : List Char → ByteArray → Prog Host String Unit
  remove_file : List Char → Host → Host
  read_cert_expiry_unix : List Char → Host → Option Int
  now : Host → Int

section Lego

variable {Host : Type} (lego : List String → Option String → Prog Host Error Unit) (fs : FileSystem Host)

/-- The arguments of `lego`, and the secret that goes in a file. -/
def build_command (spec : AcmeCertSpec) (action : String) : List String × Option String :=
  let server := match spec.server_url with
    | some url => ["--server", url]
    | none => if spec.staging then ["--server", "https://acme-staging-v02.api.letsencrypt.org/directory"] else []
  let (challenge, secret) := match spec.challenge with
    | .Http01 => (["--http", "--http.webroot", String.ofList (spec.webroot.getD [])], none)
    | .Dns01Cloudflare => (["--dns", "cloudflare"], some (spec.cloudflare_api_token.getD ""))
  (["--accept-tos", "--email", spec.email, "--path", String.ofList spec.cert_dir] ++
    spec.domains.flatMap (fun d => ["--domains", d]) ++ server ++ challenge ++ [action], secret)

def run_lego (spec : AcmeCertSpec) (action : String) (options : List String) : Prog Host Error Unit :=
  let (argv, secret) := build_command spec action
  lego (argv ++ options) secret

def issue (spec : AcmeCertSpec) : Prog Host Error Unit := run_lego lego spec "run" []

def renew (spec : AcmeCertSpec) : Prog Host Error Unit :=
  run_lego lego spec "renew" ["--days", toString spec.renew_window_days]

/-- Both files are removed, whatever comes of it. -/
def remove_pair (spec : AcmeCertSpec) (host : Host) : Host := fs.remove_file spec.key_file (fs.remove_file spec.cert_file host)

/-- What `lego revoke` says is only logged. -/
def revoke (spec : AcmeCertSpec) : Prog Host Error Unit := do
  let _ ← attempt (run_lego lego spec "revoke" [])
  modify (remove_pair fs spec)

def LegoCli : AcmeBackend Host where
  issue := issue lego
  renew := renew lego
  revoke := revoke lego fs

end Lego

def of_i64 (n : Int) : Value := .number (if 0 ≤ n then .PosInt n.toNat else .NegInt n)

def as_i64 : Value → Option Int
  | .number (.PosInt n) => if n < 2 ^ 63 then some n else none
  | .number (.NegInt n) => some n
  | _ => none

theorem as_i64_of_i64 {n m : Int} (h : as_i64 (of_i64 n) = some m) : m = n := by
  unfold of_i64 at h
  split_ifs at h with hn
  · simp only [as_i64] at h
    split_ifs at h
    have hm := Option.some.inj h
    omega
  · exact (Option.some.inj h).symm

section Operations

variable {Host : Type} (backend : AcmeBackend Host) (fs : FileSystem Host)

/-- The sidecar file, else the certificate. -/
def read_expiry_with_fallback (spec : AcmeCertSpec) (host : Host) : Option Int :=
  match ((fs.read (spec.file .Expiry) host).bind String.fromUTF8?).bind fun s => num.parse_i64 (str.trim s.toList) with
  | some n => some n.toInt
  | none => fs.read_cert_expiry_unix spec.cert_file host

def observe (spec : AcmeCertSpec) (host : Host) : ObservedState :=
  let cert_present := fs.path_exists spec.cert_file host
  let key_present := fs.path_exists spec.key_file host
  let expiry_unix := read_expiry_with_fallback fs spec host
  let days_left := expiry_unix.map fun e => (e - fs.now host).tdiv 86400
  { present := cert_present && key_present
    spec := .object [("primary_domain", .string (String.ofList spec.primary_domain)),
      ("cert_path", .string (String.ofList spec.cert_file))]
    facts := [("cert_present", .bool cert_present), ("key_present", .bool key_present),
      ("expiry_unix", (expiry_unix.map of_i64).getD .null), ("days_left", (days_left.map of_i64).getD .null)] }

def diff (spec : AcmeCertSpec) (observed : ObservedState) : Diff :=
  let cert_present := match observed.facts.lookup "cert_present" with
    | some (.bool b) => b
    | _ => false
  let days_left := (observed.facts.lookup "days_left").bind as_i64
  match spec.state with
  | .Absent =>
    if !cert_present then .no_change
    else
      { kind := .Delete, changes := [⟨"state", some (.string "present"), some (.string "absent"), false⟩]
        reasons := ["revoke + delete certificate for " ++ String.ofList spec.primary_domain], reversible := false }
  | .Present =>
    if !cert_present then
      { kind := .Create
        changes := [⟨"cert", none, some (.string ("issue " ++ toString spec.domains.length ++ " domains")), false⟩]
        reasons := ["issue certificate for " ++ String.ofList spec.primary_domain], reversible := true }
    else
      match days_left with
      | some d =>
        if d < spec.renew_window_days then
          { kind := .Update
            changes := [⟨"expiry", some (of_i64 d), some (of_nat (spec.renew_window_days + 60)), false⟩]
            reasons := ["renew " ++ String.ofList spec.primary_domain ++ " (expires in " ++ toString d ++
              " days; window=" ++ toString spec.renew_window_days ++ ")"], reversible := true }
        else .no_change
      | none =>
        { kind := .Update, changes := [⟨"expiry", some (.string "unreadable"), some (.string "re-issued"), false⟩]
          reasons := ["cert for " ++ String.ofList spec.primary_domain ++ " exists but expiry unreadable; re-issuing"]
          reversible := true }

def plan (id : Ulid) (spec : AcmeCertSpec) (diff : Diff) : List Step :=
  let step (action : AcmeAction) :=
    [Step.new id action.as_str (action.as_str ++ " " ++ String.ofList spec.primary_domain) .null]
  match diff.kind with
  | .NoChange => []
  | .Create => step .Issue
  | .Update => step .Renew
  | .Delete => step .Revoke

/-- The checkpoint of the two files. -/
def checkpoint (prior_cert prior_key : Option ByteArray) : Value :=
  json [("prior_cert_present", .bool prior_cert.isSome),
    ("prior_cert_b64", of_option (prior_cert.map fun b => base64.encode b.data.toList)),
    ("prior_key_b64", of_option (prior_key.map fun b => base64.encode b.data.toList))]

def pre_apply (spec : AcmeCertSpec) (host : Host) : Value :=
  checkpoint (fs.read spec.cert_file host) (fs.read spec.key_file host)

def apply (spec : AcmeCertSpec) (step : Step) : Prog Host Error StepResult := do
  match AcmeAction.parse step.action with
  | .error e => throw e
  | .ok .Issue =>
    backend.issue spec
    return .ok ("issued certificate for " ++ String.ofList spec.primary_domain)
  | .ok .Renew =>
    backend.renew spec
    return .ok ("renewed certificate for " ++ String.ofList spec.primary_domain)
  | .ok .Revoke =>
    backend.revoke spec
    return .ok ("revoked certificate for " ++ String.ofList spec.primary_domain)

def provider_error (message : String) : Error := .Provider "acme.certificate" message

/-- A file of the checkpoint is written back, when it is there. -/
def restore (checkpoint : Value) (key what : String) (file : List Char) : Prog Host Error Unit :=
  match (checkpoint.get key).bind Value.as_str with
  | none => pure ()
  | some b64 =>
    match base64.decode b64 with
    | none => throw (provider_error "base64 decode")
    | some bytes =>
      map_error (fun e => provider_error ("rollback write " ++ what ++ ": " ++ e)) (fs.write file bytes.toByteArray)

def prior_present (checkpoint : Value) : Bool :=
  match checkpoint.get "prior_cert_present" with
  | some (.bool b) => b
  | _ => false

def rollback (spec : AcmeCertSpec) (checkpoint : Value) : Prog Host Error Unit :=
  if prior_present checkpoint then do
    map_error (fun e => provider_error ("rollback create_dir_all: " ++ e)) (fs.create_dir_all spec.cert_dir)
    restore fs checkpoint "prior_cert_b64" "cert" spec.cert_file
    restore fs checkpoint "prior_key_b64" "key" spec.key_file
  else modify (remove_pair fs spec)

def ops : Ops Host AcmeCertSpec where
  observe spec host := .ok (observe fs spec host)
  diff spec observed := .ok (diff spec observed)
  plan := plan
  pre_apply spec host := .ok (pre_apply fs spec host)
  apply spec step _ := apply backend spec step
  rollback := rollback fs

end Operations

end iac_providers.acme
