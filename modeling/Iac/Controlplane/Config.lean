import Iac.Collections.Fallible
import Iac.Controlplane.Api.ClientIp
import Iac.Controlplane.Maintenance
import Iac.Controlplane.Modules
import Iac.Controlplane.RateLimit
import Iac.Controlplane.Webhook.Egress

open iac_controlplane.maintenance iac_controlplane.modules iac_controlplane.rate_limit

namespace iac_controlplane.config

inductive SshHostKeyPolicy where
  | Strict
  | AcceptNew
  deriving DecidableEq, Repr

/-- The fields that the loader checks. -/
structure SshTargetConfig where
  name : String
  environment : String
  host : String
  user : String := "root"
  port : UInt16 := 22
  identity_file : Option String := none
  connect_timeout_secs : UInt32 := 10
  host_key_policy : SshHostKeyPolicy := .Strict
  known_hosts_file : Option String := none

structure TlsConfig where
  mode : String := ""
  cert_file : Option String := none
  key_file : Option String := none
  client_ca_file : Option String := none
  deriving DecidableEq, Repr

structure VaultConfig where
  addr : String
  token : Option String := none
  token_env : Option String := none
  deriving DecidableEq, Repr

structure SopsConfig where
  base_dir : String
  binary : Option String := none
  deriving DecidableEq, Repr

structure SecretsConfig where
  vault : Option VaultConfig := none
  sops : Option SopsConfig := none
  deriving DecidableEq, Repr

structure WebhookConfig where
  name : String
  url : String
  min_severity : String := "warning"
  kinds : List String := []
  hmac_secret : Option String := none
  backfill : Bool := false
  max_concurrent_requests : Option UInt32 := none
  signing_versions : List String := ["v1"]
  deriving DecidableEq, Repr

structure WebhooksConfig where
  webhooks : List WebhookConfig := []
  poll_interval_secs : UInt64 := 5
  max_concurrent_requests : UInt32 := 16
  backfill_batch_size : UInt32 := 200
  allow_private_urls : Bool := false
  allow_insecure_urls : Bool := false
  deriving DecidableEq, Repr

/-- What the running server takes from its configuration. -/
structure Config where
  bind : net.SocketAddr
  database_url : String
  state_dir : String
  max_body_bytes : UInt64
  admin_token : Option String
  rate_limit : RateLimitConfig
  maintenance_windows : List MaintenanceWindow
  recurring_maintenance_windows : List RecurringMaintenanceWindow
  webhooks : WebhooksConfig
  tls : TlsConfig
  secrets : SecretsConfig

/-- The config file; the defaults are those of a file that does not exist. -/
structure RawConfig where
  bind : Option String := none
  database_url : Option String := none
  state_dir : Option String := none
  max_body_bytes : Option UInt64 := none
  admin_token : Option String := none
  rate_limit : RateLimitConfig := ⟨none, none, none, none, none⟩
  maintenance_windows : List MaintenanceWindow := []
  recurring_maintenance_windows : List RecurringMaintenanceWindow := []
  webhooks : WebhooksConfig := {}
  tls : TlsConfig := {}
  secrets : SecretsConfig := {}
  modules : List Module := []
  agent_token_ttl_secs : Option Nat := none
  ssh_targets : List SshTargetConfig := []

structure Overrides where
  bind : Option String := none
  database_url : Option String := none
  state_dir : Option String := none
  admin_token : Option String := none

/-- The readers of TOML and of socket addresses, and Unicode's `char::is_alphanumeric`. -/
structure Libraries where
  from_str : String → Except String RawConfig
  parse : String → Option net.SocketAddr
  alphanumeric : Char → Bool

/-- The variables of the process and the files of its host, none where there is no file. -/
structure Host where
  var : String → Option String
  read_to_string : String → Option (Except String String)

def Host.exists_ (host : Host) (path : String) : Bool := (host.read_to_string path).isSome

def is_control (c : Char) : Bool := c.toNat < 32 || (127 ≤ c.toNat && c.toNat < 160)

def unsafe_text (value : String) : Bool :=
  value.toList.any fun c => is_control c || c == ' ' || c == '\'' || c == '"'

def SshTargetConfig.validate (host : Host) (t : SshTargetConfig) : Except String Unit :=
  if t.name = "" then .error "ssh_targets[].name must not be empty"
  else if ¬ t.name.toList.all fun c => c.isAlphanum || c == '-' || c == '_' || c == '.' then
    .error ("ssh_targets[].name " ++ str.debug t.name ++ " must be alphanumeric with -_.")
  else if t.environment = "" then .error ("ssh_targets[" ++ t.name ++ "].environment must not be empty")
  else if t.host = "" then .error ("ssh_targets[" ++ t.name ++ "].host must not be empty")
  else if unsafe_text t.host then
    .error ("ssh_targets[" ++ t.name ++ "].host contains unsafe characters: " ++ str.debug t.host)
  else if unsafe_text t.user then
    .error ("ssh_targets[" ++ t.name ++ "].user contains unsafe characters: " ++ str.debug t.user)
  else if t.port = 0 then .error ("ssh_targets[" ++ t.name ++ "].port must be 1..=65535")
  else if t.identity_file.any fun p => !host.exists_ p then
    .error ("ssh_targets[" ++ t.name ++ "].identity_file " ++ t.identity_file.getD "" ++ " does not exist")
  else if t.connect_timeout_secs = 0 ∨ 300 < t.connect_timeout_secs then
    .error ("ssh_targets[" ++ t.name ++ "].connect_timeout_secs " ++ toString t.connect_timeout_secs ++
      " out of range 1..=300")
  else if t.host_key_policy = .Strict ∧ t.known_hosts_file = none then
    .error ("ssh_targets[" ++ t.name ++ "]: host_key_policy=strict requires known_hosts_file to be set " ++
      "(otherwise ssh uses ~/.ssh/known_hosts of the server process, which may not " ++
      "contain a pinned entry for " ++ str.debug t.host ++ ")")
  else if t.known_hosts_file.any fun p => !host.exists_ p then
    .error ("ssh_targets[" ++ t.name ++ "].known_hosts_file " ++ t.known_hosts_file.getD "" ++ " does not exist")
  else .ok ()

def WebhooksConfig.validate (config : WebhooksConfig) : Except String Unit :=
  config.webhooks.forM fun w =>
    if w.name = "" then .error "webhook name must not be empty"
    else
      match webhook.validate_webhook_url w.url config.allow_insecure_urls config.allow_private_urls with
      | .error e => .error ("webhook " ++ str.debug w.name ++ ": " ++ e)
      | .ok () => .ok ()

/-- The check of each entry of a list whose names must differ. -/
def check_entries {A : Type} (name : A → String) (check : A → Except String Unit) (twice : String → String) :
    List String → List A → Except String Unit
  | _, [] => .ok ()
  | seen, entry :: entries => do
    check entry
    if name entry ∈ seen then .error (twice (name entry))
    else check_entries name check twice (name entry :: seen) entries

def validate_modules (libraries : Libraries) (modules : List Module) : Except String Unit :=
  check_entries Module.name
    (fun m => (m.validate libraries.alphanumeric).mapError fun e => "module " ++ str.debug m.name ++ ": " ++ e)
    (fun name => "module name " ++ str.debug name ++ " declared twice") [] modules

def validate_ssh_targets (host : Host) (ssh_targets : List SshTargetConfig) : Except String Unit :=
  check_entries SshTargetConfig.name
    (fun t => (t.validate host).mapError fun e => "ssh_targets[" ++ t.name ++ "]: " ++ e)
    (fun name => "ssh_targets name " ++ str.debug name ++ " declared twice") [] ssh_targets

/-- 10 years. -/
def TTL_UPPER_BOUND_SECS : Nat := 10 * 365 * 24 * 60 * 60

/-- What `Config::load` checks of `agent_token_ttl_secs`. -/
def check_agent_token_ttl_secs (agent_token_ttl_secs : Option Nat) : Except String Unit :=
  match agent_token_ttl_secs with
  | none => .ok ()
  | some ttl =>
    if ttl < 60 then
      .error ("agent_token_ttl_secs " ++ toString ttl ++ " too short (minimum 60); below this, " ++
        "rotation can't keep up with normal agent poll intervals")
    else if ttl > TTL_UPPER_BOUND_SECS then
      .error ("agent_token_ttl_secs " ++ toString ttl ++ " exceeds 10-year upper bound (" ++
        toString TTL_UPPER_BOUND_SECS ++ "); larger values overflow the expiry-timestamp arithmetic and silently " ++
        "produce immediately-expired tokens")
    else .ok ()

theorem check_agent_token_ttl_secs_ok_iff {agent_token_ttl_secs : Option Nat} :
    check_agent_token_ttl_secs agent_token_ttl_secs = .ok () ↔
      ∀ ttl, agent_token_ttl_secs = some ttl → 60 ≤ ttl ∧ ttl ≤ 315360000 := by
  unfold check_agent_token_ttl_secs
  cases agent_token_ttl_secs with
  | none => simp
  | some ttl =>
    simp only [Option.some.injEq, forall_eq', show TTL_UPPER_BOUND_SECS = 315360000 from rfl]
    split_ifs with hshort hlong
    · simp; omega
    · simp; omega
    · simp; omega

/-- `Path::join` with a relative path. -/
def join (path file : String) : String :=
  if path = "" ∨ path.toList.getLast? = some '/' then path ++ file else path ++ "/" ++ file

def default_state_dir (host : Host) : String :=
  if host.var "USER" = some "root" then "/var/lib/iac-controlplane"
  else
    match host.var "HOME" with
    | some home => join (join home ".iac-controlplane") "state"
    | none => "/tmp/iac-controlplane"

/-- The config file at the path; without a path, or without a file there, all defaults. -/
def read_raw (libraries : Libraries) (host : Host) (path : Option String) : Except String RawConfig :=
  match path with
  | none => .ok {}
  | some p =>
    match host.read_to_string p with
    | none => .ok {}
    | some (.error _) => .error ("reading config " ++ p)
    | some (.ok text) => (libraries.from_str text).mapError fun _ => "parsing config " ++ p

def bind_str (overrides : Overrides) (raw : RawConfig) : String :=
  (overrides.bind.or raw.bind).getD "127.0.0.1:8443"

/-- The command line before the config file before the environment. -/
def resolve_admin_token (host : Host) (overrides : Overrides) (raw : RawConfig) : Option String :=
  ((overrides.admin_token.or raw.admin_token).or (host.var "IAC_ADMIN_TOKEN")).filter fun s => s != ""

/-- The configuration of a file whose checks have passed. -/
def RawConfig.resolve (raw : RawConfig) (host : Host) (overrides : Overrides) (bind : net.SocketAddr) : Config :=
  let state_dir := (overrides.state_dir.or raw.state_dir).getD (default_state_dir host)
  let database_url := (overrides.database_url.or raw.database_url).getD
    ("sqlite://" ++ join state_dir "controlplane.db" ++ "?mode=rwc")
  { bind, database_url, state_dir
    max_body_bytes := raw.max_body_bytes.getD (8 * 1024 * 1024)
    admin_token := resolve_admin_token host overrides raw
    rate_limit := raw.rate_limit
    maintenance_windows := raw.maintenance_windows
    recurring_maintenance_windows := raw.recurring_maintenance_windows
    webhooks := raw.webhooks
    tls := raw.tls
    secrets := raw.secrets }

def load (libraries : Libraries) (host : Host) (path : Option String) (overrides : Overrides) :
    Except String Config := do
  let raw ← read_raw libraries host path
  match libraries.parse (bind_str overrides raw) with
  | none => .error ("invalid bind address " ++ bind_str overrides raw)
  | some bind =>
    raw.webhooks.validate.mapError fun e => "[webhooks] " ++ e
    validate_modules libraries raw.modules
    check_agent_token_ttl_secs raw.agent_token_ttl_secs
    validate_ssh_targets host raw.ssh_targets
    return raw.resolve host overrides bind

/-- The config file that the loader accepts. -/
structure Accepts (libraries : Libraries) (host : Host) (overrides : Overrides) (raw : RawConfig) : Prop where
  bind : (libraries.parse (bind_str overrides raw)).isSome = true
  webhooks : raw.webhooks.validate = .ok ()
  modules : validate_modules libraries raw.modules = .ok ()
  token_ttl : check_agent_token_ttl_secs raw.agent_token_ttl_secs = .ok ()
  ssh_targets : validate_ssh_targets host raw.ssh_targets = .ok ()

/-- The loader resolves the files that pass its checks, and no others. -/
theorem load_ok_iff {libraries : Libraries} {host : Host} {path : Option String} {overrides : Overrides}
    {config : Config} :
    load libraries host path overrides = .ok config ↔ ∃ raw bind, read_raw libraries host path = .ok raw ∧
      Accepts libraries host overrides raw ∧ libraries.parse (bind_str overrides raw) = some bind ∧
      config = raw.resolve host overrides bind := by
  constructor
  · intro h
    obtain ⟨raw, hraw, h⟩ := fallible.bind_eq_ok_iff.mp h
    cases hbind : libraries.parse (bind_str overrides raw) with
    | none =>
      rw [hbind] at h
      cases h
    | some bind =>
      rw [hbind] at h
      obtain ⟨_, hwebhooks, h⟩ := fallible.bind_eq_ok_iff.mp h
      obtain ⟨_, hmodules, h⟩ := fallible.bind_eq_ok_iff.mp h
      obtain ⟨_, httl, h⟩ := fallible.bind_eq_ok_iff.mp h
      obtain ⟨_, hssh, h⟩ := fallible.bind_eq_ok_iff.mp h
      have haccepts : Accepts libraries host overrides raw :=
        ⟨by rw [hbind]; rfl, fallible.mapError_eq_ok_iff.mp hwebhooks, hmodules, httl, hssh⟩
      exact ⟨raw, bind, hraw, haccepts, hbind, (Except.ok.inj h).symm⟩
  · rintro ⟨raw, bind, hraw, haccepts, hbind, rfl⟩
    refine fallible.bind_eq_ok_iff.mpr ⟨raw, hraw, ?_⟩
    rw [hbind]
    refine fallible.bind_eq_ok_iff.mpr ⟨(), fallible.mapError_eq_ok_iff.mpr haccepts.webhooks, ?_⟩
    refine fallible.bind_eq_ok_iff.mpr ⟨(), haccepts.modules, ?_⟩
    refine fallible.bind_eq_ok_iff.mpr ⟨(), haccepts.token_ttl, ?_⟩
    exact fallible.bind_eq_ok_iff.mpr ⟨(), haccepts.ssh_targets, rfl⟩

end iac_controlplane.config
