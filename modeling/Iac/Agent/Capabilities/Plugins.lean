import Iac.Agent.Capabilities
import Iac.Providers.Process

open iac_core iac_core.protocol iac_providers.process serde_json

namespace iac_agent.capabilities

/-- The registry, with an external process behind its kind. -/
def with_plugin (others : Registry) (spec : ExternalProviderSpec) (number : Number → String) (state : State) :
    Registry := fun kind =>
  if kind = spec.kind then some (capability_keys spec number state) else others kind

/-- A plugin that greets with `hello` whenever it greets. -/
def Greets (hello : Hello) (c : PluginCall) : Prop :=
  (∀ other, c.first.spawn = .hello other → other = hello) ∧ ∀ other, c.second.spawn = .hello other → other = hello

section Cached

variable {spec : ExternalProviderSpec} {hello : Hello}

def Accepted (spec : ExternalProviderSpec) (hello : Hello) : Prop :=
  hello.protocol_version = PROTOCOL_VERSION ∧ hello.kind = spec.kind

/-- The cached hello, if any, is the plugin's, and has been accepted. -/
def Cached (spec : ExternalProviderSpec) (hello : Hello) (state : State) : Prop :=
  ∀ cached, state.hello = some cached → cached = hello ∧ Accepted spec hello

private theorem cached_handshake {attempt : Attempt} {state : State} (h : Cached spec hello state)
    (hgreets : ∀ other, attempt.spawn = .hello other → other = hello) :
    Cached spec hello (handshake spec attempt state).2 := by
  rw [handshake]
  cases hspawn : attempt.spawn with
  | no_process message => exact h
  | no_line message => exact h
  | no_hello message => exact h
  | hello other =>
    obtain rfl := hgreets other hspawn
    by_cases hversion : other.protocol_version = PROTOCOL_VERSION
    · by_cases hkind : other.kind = spec.kind
      · simp only [hversion, hkind, ne_eq, not_true_eq_false, if_false]
        intro cached hcached
        exact ⟨(Option.some.inj hcached).symm, hversion, hkind⟩
      · simpa [hversion, hkind] using h
    · simpa [hversion] using h

private theorem cached_spawn_locked {attempt : Attempt} {state : State} (h : Cached spec hello state)
    (hgreets : ∀ other, attempt.spawn = .hello other → other = hello) :
    Cached spec hello (spawn_locked spec attempt state).2 := by
  rw [spawn_locked]
  cases state.spawn_blocked_until with
  | none => exact cached_handshake h hgreets
  | some blocked_until =>
    simp only
    split
    · exact h
    · have hunblocked : Cached spec hello { state with spawn_blocked_until := none } := h
      exact cached_handshake hunblocked hgreets

private theorem exchange_hello (attempt : Attempt) (state : State) :
    (exchange spec attempt state).2.hello = state.hello := by
  rw [exchange]
  cases attempt.exchange with
  | write_failed message => rfl
  | read_failed message => rfl
  | response answered error result =>
    simp only
    split
    · rfl
    · cases error <;> rfl

private theorem cached_call_once {attempt : Attempt} {state : State} (h : Cached spec hello state)
    (hgreets : ∀ other, attempt.spawn = .hello other → other = hello) :
    Cached spec hello (call_once spec attempt state).2 := by
  rw [call_once]
  split
  · rwa [Cached, exchange_hello]
  · have hspawned := cached_spawn_locked h hgreets
    rcases hspawn : spawn_locked spec attempt state with ⟨e | _, spawned⟩
    · rwa [hspawn] at hspawned
    · rw [hspawn] at hspawned
      simp only
      rwa [Cached, exchange_hello]

private theorem cached_call_tries {attempts : List Attempt} {state : State} (h : Cached spec hello state)
    (hgreets : ∀ attempt ∈ attempts, ∀ other, attempt.spawn = .hello other → other = hello) :
    Cached spec hello (call_tries spec state attempts).2 := by
  induction attempts generalizing state with
  | nil => exact h
  | cons attempt attempts ih =>
    obtain ⟨hfirst, hrest⟩ := List.forall_mem_cons.mp hgreets
    have honce := cached_call_once h hfirst
    rw [call_tries]
    rcases hcall : call_once spec attempt state with ⟨e | v, tried⟩
    all_goals rw [hcall] at honce
    · simp only
      split_ifs
      · have hcrashed : Cached spec hello (record_crash attempt tried) := honce
        exact ih hcrashed hrest
      · exact honce
      · exact honce
    · exact honce

/-- Whatever calls were made, no other hello is cached. -/
theorem cached_run {calls : List PluginCall} (hgreets : ∀ c ∈ calls, Greets hello c) :
    Cached spec hello (run spec calls) := by
  have hfold : ∀ state, Cached spec hello state →
      Cached spec hello (calls.foldl (fun state c => (call spec c state).2) state) := by
    induction calls with
    | nil => exact fun _ h => h
    | cons c calls ih =>
      obtain ⟨⟨hfirst, hsecond⟩, hrest⟩ := List.forall_mem_cons.mp hgreets
      exact fun state h => ih hrest _ (cached_call_tries h (by simpa using ⟨hfirst, hsecond⟩))
  exact hfold {} (by simp [Cached])

/-- A call that connects. -/
def connect (hello : Hello) : PluginCall where
  first := { now := 0, spawn := .hello hello, exchange := .response 1 none none, failed_at := 0 }
  second := { now := 0, spawn := .no_process "", exchange := .read_failed "", failed_at := 0 }

theorem run_connect (h : Accepted spec hello) : (run spec [connect hello]).hello = some hello := by
  simp [run, call, call_tries, connect, call_once, spawn_locked, handshake, exchange, h.1, h.2]

end Cached

section Verdict

variable (caps : Capabilities) (others : Registry) (number : Number → String) (spec : ExternalProviderSpec)
  (hello : Hello) (resource : Resource)

/-- The verdict on a resource in a state of the plugin. -/
def verdict (state : State) : Except DenyReason Unit := caps.check (with_plugin others spec number state) resource

/-- The rules allow every key that the plugin's templates give for the resource. -/
def KeysAllowed : Prop :=
  ∀ tmpl ∈ hello.capability_keys, ∃ key, template_key spec number resource tmpl = .ok key ∧
    caps.check_key resource.id.to_string resource.kind key = .ok ()

/-- The verdict is the same before the plugin is started and after any calls, and what is
handed to the executor at one time would pass at any other. -/
structure Steady : Prop where
  same : ∀ calls, (∀ c ∈ calls, Greets hello c) →
    verdict caps others number spec resource (run spec calls) = verdict caps others number spec resource {}
  handed_passes : ∀ calls later env resources, (∀ c ∈ calls, Greets hello c) → (∀ c ∈ later, Greets hello c) →
    admission (some caps) (with_plugin others spec number (run spec calls)) env = .handed resources →
      resource ∈ resources → verdict caps others number spec resource (run spec later) = .ok ()

variable {caps others number spec hello resource}

theorem verdict_ok_iff (hkind : resource.kind = spec.kind) (state : State) :
    verdict caps others number spec resource state = .ok () ↔
      ∀ tmpl ∈ capability_templates state, ∃ key, template_key spec number resource tmpl = .ok key ∧
        caps.check_key resource.id.to_string resource.kind key = .ok () := by
  have hregistered : with_plugin others spec number state resource.kind = some (capability_keys spec number state) := by
    simp [with_plugin, hkind]
  rw [verdict, check_ok_iff hregistered]
  exact fallible.exists_mapM_ok_iff

/-- Before the first handshake there are no templates, and every resource passes. -/
theorem verdict_at_start (hkind : resource.kind = spec.kind) : verdict caps others number spec resource {} = .ok () :=
  (verdict_ok_iff hkind {}).mpr (by simp [capability_templates])

/-- The verdict depends on when the plugin is started, unless it cannot connect or the
rules allow every key it advertises. -/
theorem plugin_verdict_is_steady_iff (hkind : resource.kind = spec.kind) :
    Steady caps others number spec hello resource ↔
      ¬ Accepted spec hello ∨ KeysAllowed caps number spec hello resource := by
  constructor
  · intro h
    by_cases haccepted : Accepted spec hello
    · right
      have hgreets : ∀ c ∈ [connect hello], Greets hello c := by simp [Greets, connect, eq_comm]
      have hconnected := h.same [connect hello] hgreets
      rw [verdict_at_start hkind, verdict_ok_iff hkind, capability_templates, run_connect haccepted] at hconnected
      exact hconnected
    · exact .inl haccepted
  · intro h
    have hpass : ∀ calls, (∀ c ∈ calls, Greets hello c) →
        verdict caps others number spec resource (run spec calls) = .ok () := by
      intro calls hgreets
      rw [verdict_ok_iff hkind, capability_templates]
      cases hcached : (run spec calls).hello with
      | none => simp
      | some cached =>
        obtain ⟨rfl, haccepted⟩ := cached_run hgreets cached hcached
        exact h.resolve_left (not_not.mpr haccepted)
    refine ⟨fun calls hgreets => ?_, fun calls later env resources _ hlater _ _ => hpass later hlater⟩
    rw [hpass calls hgreets, verdict_at_start hkind]

private def deployment_spec : ExternalProviderSpec := ⟨"k8s.deployment", true⟩

private def deployment_hello : Hello := ⟨PROTOCOL_VERSION, "k8s.deployment", ["\x7b\x7b name \x7d\x7d"], ["observe", "apply"]⟩

private def deployment : Resource where
  api_version := "iac.example/v1"
  kind := "k8s.deployment"
  name := "web"
  environment := "prod"
  annotations := []
  spec := .object [("name", .string "web")]

private theorem deployment_key (number : Number → String) :
    template_key deployment_spec number deployment "\x7b\x7b name \x7d\x7d" = .ok "web" := by
  rfl

/-- With `default_kind_policy: allow` the plugin's resource passes at any time. -/
theorem allowed_deployment_is_steady :
    KeysAllowed { default_kind_policy := .Allow } (fun _ => "") deployment_spec deployment_hello deployment ∧
      Steady { default_kind_policy := .Allow } (fun _ => none) (fun _ => "") deployment_spec deployment_hello deployment := by
  have hkeys : KeysAllowed { default_kind_policy := .Allow } (fun _ => "") deployment_spec deployment_hello
      deployment := by
    intro tmpl htmpl
    obtain rfl := List.mem_singleton.mp htmpl
    exact ⟨"web", deployment_key _, rfl⟩
  exact ⟨hkeys, (plugin_verdict_is_steady_iff rfl).mpr (.inr hkeys)⟩

/-- Under the default policy the resource passes before the plugin has been started
and is denied once it is. -/
theorem unstarted_plugin_is_unrestricted :
    ¬ ∀ (caps : Capabilities) (others : Registry) (number : Number → String) (spec : ExternalProviderSpec)
      (hello : Hello) (resource : Resource), resource.kind = spec.kind →
        Steady caps others number spec hello resource := by
  intro h
  have hgreets : ∀ c ∈ [connect deployment_hello], Greets deployment_hello c := by simp [Greets, connect, eq_comm]
  have hsteady := h {} (fun _ => none) (fun _ => "") deployment_spec deployment_hello deployment rfl
  have hconnected := hsteady.same [connect deployment_hello] hgreets
  rw [verdict_at_start rfl, verdict_ok_iff rfl, capability_templates, run_connect ⟨rfl, rfl⟩] at hconnected
  obtain ⟨key, -, hdenied⟩ := hconnected _ List.mem_cons_self
  cases hdenied

end Verdict

end iac_agent.capabilities
