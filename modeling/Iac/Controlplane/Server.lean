import Iac.Controlplane.Config
import Iac.Controlplane.Store.Agents

open iac_controlplane.config iac_controlplane.maintenance iac_controlplane.rate_limit iac_controlplane.store

namespace iac_controlplane.server

/-- What a reload swaps as a whole. -/
structure ReloadableState where
  config : Config
  config_issues : List ConfigIssue

def ReloadableState.new (windows : maintenance.Libraries) (config : Config) : ReloadableState where
  config := config
  config_issues := collect_config_issues windows config.maintenance_windows config.recurring_maintenance_windows

/-- The running server: the live state, the caps of the limiter, whose queues a
reload leaves, and what the listener, the store, the signer, the body limit, the
dispatcher and the secret registry were made from when it started. -/
structure AppState where
  live : ReloadableState
  config_path : Option String
  rate_limiter : Limits
  listener : net.SocketAddr
  store : String
  signer : String
  body_limit : UInt64
  webhook_dispatcher : WebhooksConfig
  tls : TlsConfig
  secret_registry : SecretsConfig

structure Cli extends Overrides where
  config : Option String := none

variable (libraries : config.Libraries) (windows : maintenance.Libraries)

/-- The start of the server, up to its listener. -/
def run (host : Host) (cli : Cli) : Except String AppState := do
  let config ← load libraries host cli.config cli.toOverrides
  return {
    live := ReloadableState.new windows config
    config_path := cli.config
    rate_limiter := Limits.from_config config.rate_limit
    listener := config.bind
    store := config.database_url
    signer := config.state_dir
    body_limit := config.max_body_bytes
    webhook_dispatcher := config.webhooks
    tls := config.tls
    secret_registry := config.secrets }

structure ReloadOutcome where
  path : String
  config_issues : Nat

def AppState.reload_config (host : Host) (state : AppState) : Except String ReloadOutcome × AppState :=
  match state.config_path with
  | none => (.error "reload_config: no config_path set; running from programmatic config", state)
  | some path =>
    match load libraries host (some path) {} with
    | .error e => (.error e, state)
    | .ok new_config =>
      let new_state := ReloadableState.new windows new_config
      (.ok ⟨path, new_state.config_issues.length⟩,
        { state with rate_limiter := Limits.from_config new_config.rate_limit, live := new_state })

/-- The fields that a reload is not to change, each as its readers see it. -/
structure HardFields where
  bind : net.SocketAddr
  database_url : String
  state_dir : String
  max_body_bytes : UInt64
  admin_token : Option String
  tls : TlsConfig
  secrets : SecretsConfig
  webhooks : WebhooksConfig

/-- Every reader has what the server started with, except `resolve`, which has
the admin token of the live configuration. -/
def AppState.hard_fields (state : AppState) : HardFields where
  bind := state.listener
  database_url := state.store
  state_dir := state.signer
  max_body_bytes := state.body_limit
  admin_token := state.live.config.admin_token
  tls := state.tls
  secrets := state.secret_registry
  webhooks := state.webhook_dispatcher

/-- The files that a reload meets; the variables of the process stay. -/
abbrev Files := String → Option (Except String String)

def AppState.reloads (host : Host) (state : AppState) : List Files → AppState
  | [] => state
  | files :: rest => AppState.reloads host (state.reload_config libraries windows { host with read_to_string := files }).2 rest

/-- The reload leaves the hard fields as they were at the start, and when it
fails the configuration and the caps as they were before it. -/
structure Keeps (start before : AppState) (reload : Except String ReloadOutcome × AppState) : Prop where
  hard : reload.2.hard_fields = start.hard_fields
  failed : ∀ e, reload.1 = .error e → reload.2.live = before.live ∧ reload.2.rate_limiter = before.rate_limiter

/-- Every one of the reloads keeps the hard fields. -/
def KeepsThroughout (host : Host) (start state : AppState) (reloads : List Files) : Prop :=
  ∀ earlier files later, reloads = earlier ++ files :: later →
    Keeps start (state.reloads libraries windows host earlier)
      ((state.reloads libraries windows host earlier).reload_config libraries windows { host with read_to_string := files })

/-- The file that the reload meets is not accepted, or it gives the token with
which the server started, without the command line. -/
def SameToken (host : Host) (path : Option String) (token : Option String) (files : Files) : Prop :=
  ∀ p raw, path = some p → read_raw libraries { host with read_to_string := files } (some p) = .ok raw →
    Accepts libraries { host with read_to_string := files } {} raw → resolve_admin_token host {} raw = token

variable {libraries : config.Libraries} {windows : maintenance.Libraries} {host : Host} {state start : AppState}

/-- A reload changes nothing, or it has accepted a file and gives its admin token. -/
theorem reload_config_cases (host : Host) (state : AppState) :
    (∃ e, state.reload_config libraries windows host = (.error e, state) ∧
      ∀ p raw, state.config_path = some p → read_raw libraries host (some p) = .ok raw →
        ¬ Accepts libraries host {} raw) ∨
    ∃ p raw outcome after, state.config_path = some p ∧ read_raw libraries host (some p) = .ok raw ∧
      Accepts libraries host {} raw ∧ state.reload_config libraries windows host = (.ok outcome, after) ∧
      after.config_path = state.config_path ∧
      after.hard_fields = { state.hard_fields with admin_token := resolve_admin_token host {} raw } := by
  rcases hpath : state.config_path with - | path
  · refine .inl ⟨"reload_config: no config_path set; running from programmatic config", ?_, fun p raw h => nomatch h⟩
    rw [AppState.reload_config, hpath]
  cases hload : load libraries host (some path) {} with
  | error e =>
    refine .inl ⟨e, ?_, fun p raw hp hraw haccepts => ?_⟩
    · simp only [AppState.reload_config, hpath, hload]
    · obtain rfl := Option.some.inj hp
      obtain ⟨bind, hbind⟩ := Option.isSome_iff_exists.mp haccepts.bind
      rw [load_ok_iff.mpr ⟨raw, bind, hraw, haccepts, hbind, rfl⟩] at hload
      cases hload
  | ok config =>
    obtain ⟨raw, bind, hraw, haccepts, hbind, hconfig⟩ := load_ok_iff.mp hload
    refine .inr ⟨path, raw, ⟨path, (ReloadableState.new windows config).config_issues.length⟩,
      { state with rate_limiter := Limits.from_config config.rate_limit, live := .new windows config },
      rfl, hraw, haccepts, ?_, hpath, ?_⟩
    · simp only [AppState.reload_config, hpath, hload]
    · rw [hconfig]
      rfl

/-- From a state with the hard fields of the start, a reload keeps them when the file gives their token. -/
theorem keeps_iff {path : Option String} (hpath : state.config_path = path) (hstate : state.hard_fields = start.hard_fields)
    (files : Files) :
    Keeps start state (state.reload_config libraries windows { host with read_to_string := files }) ↔
      SameToken libraries host path start.hard_fields.admin_token files := by
  rcases @reload_config_cases libraries windows { host with read_to_string := files } state with
    ⟨e, hreload, hnone⟩ | ⟨p, raw, outcome, after, hp, hraw, haccepts, hreload, -, hafter⟩
  · rw [hreload]
    refine ⟨fun _ p raw hp hraw haccepts => absurd haccepts (hnone p raw (hpath.trans hp) hraw), fun _ => ?_⟩
    exact ⟨hstate, fun _ _ => ⟨rfl, rfl⟩⟩
  · rw [hreload]
    constructor
    · intro hkeeps p' raw' hp' hraw' _
      obtain rfl := Option.some.inj ((hp.symm.trans hpath).trans hp')
      obtain rfl := Except.ok.inj (hraw.symm.trans hraw')
      have hhard := hkeeps.hard
      rw [hafter] at hhard
      exact congrArg HardFields.admin_token hhard
    · intro hsame
      have htoken : resolve_admin_token host {} raw = start.hard_fields.admin_token :=
        hsame p raw (hpath.symm.trans hp) hraw haccepts
      refine ⟨?_, fun e he => nomatch he⟩
      calc after.hard_fields
          = { state.hard_fields with admin_token := resolve_admin_token host {} raw } := hafter
        _ = { start.hard_fields with admin_token := start.hard_fields.admin_token } := by rw [hstate, htoken]
        _ = start.hard_fields := rfl

theorem reload_config_path (host : Host) (state : AppState) :
    (state.reload_config libraries windows host).2.config_path = state.config_path := by
  obtain ⟨e, hreload, -⟩ | ⟨p, raw, _, after, -, -, -, hreload, hpath, -⟩ := @reload_config_cases libraries windows host state
  · rw [hreload]
  · rw [hreload]
    exact hpath

/-- The first reload keeps the hard fields and so do the others after it. -/
theorem keepsThroughout_cons (files : Files) (rest : List Files) :
    KeepsThroughout libraries windows host start state (files :: rest) ↔
      Keeps start state (state.reload_config libraries windows { host with read_to_string := files }) ∧
      KeepsThroughout libraries windows host start
        (state.reload_config libraries windows { host with read_to_string := files }).2 rest := by
  constructor
  · intro h
    exact ⟨h [] files rest rfl, fun earlier now later heq => h (files :: earlier) now later (by rw [heq]; rfl)⟩
  · rintro ⟨hfirst, hrest⟩ earlier now later heq
    cases earlier with
    | nil =>
      obtain ⟨rfl, rfl⟩ := List.cons.inj heq
      exact hfirst
    | cons first earlier =>
      obtain ⟨rfl, htail⟩ := List.cons.inj heq
      exact hrest earlier now later htail

theorem keepsThroughout_iff {path : Option String} (reloads : List Files) :
    ∀ state : AppState, state.config_path = path → state.hard_fields = start.hard_fields →
      (KeepsThroughout libraries windows host start state reloads ↔
        ∀ files ∈ reloads, SameToken libraries host path start.hard_fields.admin_token files) := by
  induction reloads with
  | nil =>
    intro state _ _
    refine ⟨fun _ files hmem => absurd hmem List.not_mem_nil, fun _ earlier files later heq => ?_⟩
    exact absurd heq.symm (List.append_ne_nil_of_right_ne_nil _ (List.cons_ne_nil _ _))
  | cons files rest ih =>
    intro state hpath hstate
    rw [keepsThroughout_cons, List.forall_mem_cons]
    have hnext := (@reload_config_path libraries windows { host with read_to_string := files } state).trans hpath
    constructor
    · rintro ⟨hfirst, hrest⟩
      exact ⟨(keeps_iff hpath hstate files).mp hfirst, (ih _ hnext hfirst.hard).mp hrest⟩
    · rintro ⟨hfirst, hrest⟩
      have hkeeps := (@keeps_iff libraries windows host state start path hpath hstate files).mpr hfirst
      exact ⟨hkeeps, (ih _ hnext hkeeps.hard).mpr hrest⟩

/-- What the server starts with: the file it met, and the admin token of that file and the command line. -/
theorem run_ok {cli : Cli} (h : run libraries windows host cli = .ok state) :
    ∃ raw, read_raw libraries host cli.config = .ok raw ∧ state.config_path = cli.config ∧
      state.hard_fields.admin_token = resolve_admin_token host cli.toOverrides raw := by
  obtain ⟨config, hload, h⟩ := fallible.bind_eq_ok_iff.mp h
  obtain rfl := Except.ok.inj h
  obtain ⟨raw, bind, hraw, -, -, rfl⟩ := load_ok_iff.mp hload
  exact ⟨raw, hraw, rfl, rfl⟩

/-- All reloads of a server keep the fields that are not soft-reloadable, and
the failed ones all the rest, exactly when each accepted file gives by itself
the admin token that the first file and the command line gave. -/
theorem reloads_keep_hard_fields_iff {cli : Cli} {raw : RawConfig} (hrun : run libraries windows host cli = .ok start)
    (hraw : read_raw libraries host cli.config = .ok raw) (reloads : List Files) :
    KeepsThroughout libraries windows host start start reloads ↔
      ∀ files ∈ reloads, SameToken libraries host cli.config (resolve_admin_token host cli.toOverrides raw) files := by
  obtain ⟨raw', hraw', hpath, htoken⟩ := run_ok hrun
  obtain rfl := Except.ok.inj (hraw.symm.trans hraw')
  rw [keepsThroughout_iff reloads start hpath rfl, htoken]

section Samples

def defaults_only : config.Libraries where
  from_str _ := .error "expected a table"
  parse text := if text = "127.0.0.1:8443" then some ⟨.V4 ⟨127, 0, 0, 1⟩, 8443, 0⟩ else none
  alphanumeric := Char.isAlphanum

def no_windows : maintenance.Libraries := ⟨fun _ => .error "", fun _ => .error ""⟩

/-- A host without variables and without a config file. -/
def bare_host : Host := ⟨fun _ => none, fun _ => none⟩

/-- A start with the admin token on the command line. -/
def with_token : Cli := { config := some "iac.toml", admin_token := some "s3cret" }

/-- A start without it. -/
def without_token : Cli := { config := some "iac.toml" }

/-- The state that a start of the host leads to. -/
def started (cli : Cli) : AppState where
  live := .new no_windows (RawConfig.resolve {} bare_host cli.toOverrides ⟨.V4 ⟨127, 0, 0, 1⟩, 8443, 0⟩)
  config_path := cli.config
  rate_limiter := ⟨0, 0, 0, 0, 0⟩
  listener := ⟨.V4 ⟨127, 0, 0, 1⟩, 8443, 0⟩
  store := "sqlite:///tmp/iac-controlplane/controlplane.db?mode=rwc"
  signer := "/tmp/iac-controlplane"
  body_limit := 8388608
  webhook_dispatcher := {}
  tls := {}
  secret_registry := {}

theorem run_without_token : run defaults_only no_windows bare_host without_token = .ok (started without_token) := by rfl

/-- Without a token on the command line a reload keeps what there is. -/
theorem reload_keeps_no_token : KeepsThroughout defaults_only no_windows bare_host (started without_token)
    (started without_token) [fun _ => none] := by
  refine (reloads_keep_hard_fields_iff run_without_token rfl _).mpr fun files hmem => ?_
  obtain rfl := List.mem_singleton.mp hmem
  intro p raw _ hraw _
  obtain rfl := Except.ok.inj hraw
  rfl

/-- A reload loses the admin token of the command line. -/
theorem reload_loses_token : run defaults_only no_windows bare_host with_token = .ok (started with_token) ∧
    ¬ KeepsThroughout defaults_only no_windows bare_host (started with_token) (started with_token) [fun _ => none] := by
  refine ⟨rfl, fun h => ?_⟩
  have hhard := (h [] (fun _ => none) [] rfl).hard
  have htoken : (none : Option String) = some "s3cret" := congrArg HardFields.admin_token hhard
  cases htoken

end Samples

end iac_controlplane.server
