import Iac.Collections.Substring
import Iac.Core.Executor
import Iac.Core.Template
import Iac.Core.Text

open iac_core iac_core.executor iac_core.template serde_json substring

namespace iac_providers.process

def PROTOCOL_VERSION : Nat := 1

/-- The first message of a plugin. -/
structure Hello where
  protocol_version : Nat
  kind : String
  capability_keys : List String
  methods : List String

structure ExternalProviderSpec where
  kind : String
  restart_on_crash : Bool

/-- What comes of a spawn up to the first line: no child process, no line, a line
that is no hello, or a hello. -/
inductive Spawn where
  | no_process (message : String)
  | no_line (message : String)
  | no_hello (message : String)
  | hello (hello : Hello)

/-- What comes of a request. -/
inductive Exchange where
  | write_failed (message : String)
  | read_failed (message : String)
  | response (id : Nat) (error : Option String) (result : Option Value)

/-- What the surroundings do in one `call_once`: the instant of the spawn, what comes
of it and of the request, and the instant of a failure. Instants count seconds. -/
structure Attempt where
  now : Nat
  spawn : Spawn
  exchange : Exchange
  failed_at : Nat

/-- The state behind the mutex. -/
structure State where
  running : Bool := false
  next_id : Nat := 1
  hello : Option Hello := none
  consecutive_crashes : Nat := 0
  spawn_blocked_until : Option Nat := none

variable (spec : ExternalProviderSpec)

def provider_error (message : String) : executor.Error := .Provider spec.kind message

/-- The end of `spawn_locked`: the hello is cached when its version and kind are right. -/
def handshake (attempt : Attempt) (state : State) : Except executor.Error Unit × State :=
  match attempt.spawn with
  | .no_process message => (.error (provider_error spec message), state)
  | .no_line message => (.error (provider_error spec ("handshake read: " ++ message)), state)
  | .no_hello message => (.error (provider_error spec message), state)
  | .hello hello =>
    if hello.protocol_version ≠ PROTOCOL_VERSION then
      (.error (provider_error spec ("plugin protocol_version=" ++ toString hello.protocol_version ++
        " != agent protocol_version=" ++ toString PROTOCOL_VERSION)), state)
    else if hello.kind ≠ spec.kind then
      (.error (provider_error spec ("plugin announces kind=" ++ str.debug hello.kind ++ " but config expects " ++
        str.debug spec.kind)), state)
    else (.ok (), { state with hello := some hello, running := true })

def spawn_locked (attempt : Attempt) (state : State) : Except executor.Error Unit × State :=
  match state.spawn_blocked_until with
  | none => handshake spec attempt state
  | some blocked_until =>
    if attempt.now < blocked_until then
      (.error (provider_error spec ("plugin in restart cool-off after " ++ toString state.consecutive_crashes ++
        " consecutive crashes; retry in " ++ toString (blocked_until - attempt.now + 1) ++ "s")), state)
    else handshake spec attempt { state with spawn_blocked_until := none }

/-- `n.wrapping_add(1).max(1)`. -/
def following_id (n : Nat) : Nat := max ((n + 1) % 2 ^ 64) 1

def exchange (attempt : Attempt) (state : State) : Except executor.Error Value × State :=
  let id := state.next_id
  let state := { state with next_id := following_id id }
  match attempt.exchange with
  | .write_failed message => (.error (provider_error spec ("write: " ++ message)), state)
  | .read_failed message => (.error (provider_error spec ("read: " ++ message)), state)
  | .response answered error result =>
    if answered ≠ id then
      (.error (provider_error spec ("response id mismatch: expected " ++ toString id ++ ", got " ++ toString answered)),
        state)
    else
      match error with
      | some message => (.error (provider_error spec message), state)
      | none => (.ok (result.getD .null), state)

def call_once (attempt : Attempt) (state : State) : Except executor.Error Value × State :=
  if state.running then exchange spec attempt state
  else
    match spawn_locked spec attempt state with
    | (.error e, state) => (.error e, state)
    | (.ok (), state) => exchange spec attempt state

def transport_marks : List String := ["EOF", "write:", "read:", "not running", "ndjson line exceeded"]

/-- A failure of the transport, after which the child is taken for dead. -/
def is_transport : executor.Error → Bool
  | .Provider _ message => transport_marks.any fun mark => (cut mark.toList message.toList).isSome
  | _ => false

/-- The seconds of the cool-off after so many crashes in a row. -/
def cool_off (consecutive_crashes : Nat) : Nat := min (2 ^ min (consecutive_crashes - 3) 8) 300

def record_crash (attempt : Attempt) (state : State) : State :=
  let consecutive_crashes := min (state.consecutive_crashes + 1) (2 ^ 32 - 1)
  { state with
    consecutive_crashes
    spawn_blocked_until :=
      if 3 ≤ consecutive_crashes then some (attempt.failed_at + cool_off consecutive_crashes)
      else state.spawn_blocked_until
    running := false }

/-- The loop of `call`, with the attempts that are left. -/
def call_tries (state : State) : List Attempt → Except executor.Error Value × State
  | [] => (.error (provider_error spec "plugin not running"), state)
  | attempt :: attempts =>
    match call_once spec attempt state with
    | (.ok v, state) => (.ok v, { state with consecutive_crashes := 0, spawn_blocked_until := none })
    | (.error e, state) =>
      if is_transport e then
        if attempts ≠ [] ∧ spec.restart_on_crash then call_tries (record_crash attempt state) attempts
        else (.error e, record_crash attempt state)
      else (.error e, state)

/-- A call is tried once more when the plugin may be started again. -/
structure PluginCall where
  first : Attempt
  second : Attempt

def call (c : PluginCall) (state : State) : Except executor.Error Value × State :=
  call_tries spec state [c.first, c.second]

/-- The templates of the cached hello; none before there is one. -/
def capability_templates (state : State) : List String :=
  (state.hello.map Hello.capability_keys).getD []

def template_key (number : Number → String) (resource : Resource) (tmpl : String) : Except executor.Error String :=
  match render_yaml_top_scalars number tmpl resource.spec with
  | .ok key => .ok key
  | .error e => .error (provider_error spec ("capability_keys[" ++ str.debug tmpl ++ "]: " ++ e.to_string))

def capability_keys (number : Number → String) (state : State) (resource : Resource) :
    Except executor.Error (List String) :=
  (capability_templates state).mapM (template_key spec number resource)

/-- The state after a run of calls. -/
def run (calls : List PluginCall) : State :=
  calls.foldl (fun state c => (call spec c state).2) {}

end iac_providers.process
