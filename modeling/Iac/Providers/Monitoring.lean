import Iac.Collections.Logged
import Iac.Collections.Words
import Iac.Core.Net
import Iac.Core.Protocol
import Iac.Core.Text
import Iac.Core.Utf8
import Iac.Providers.Lifecycle

open iac_core iac_core.executor iac_core.protocol serde_json net logged tokens

namespace iac_providers.monitoring

inductive CheckState where
  | Present
  | Absent
  deriving DecidableEq

inductive CheckType where
  | Http
  | Tcp
  deriving DecidableEq

structure MonitoringCheckSpec where
  name : String
  check_type : CheckType
  target : String
  expected_status : Option Nat := none
  timeout_secs : Nat := 5
  state : CheckState := .Present
  retries : Nat := 0
  retry_interval_secs : Nat := 1

section Validate

def strip_http (url : List Char) : Option (List Char) := "http://".toList.isPrefixOf? url

def validate_name (name : String) : Except String Unit :=
  if name.toList.isEmpty then .error "name must not be empty"
  else if !name.toList.all fun c => c.isAlphanum || c == '-' || c == '_' || c == '.' then
    .error ("name " ++ str.debug name ++ " must be alphanumeric with optional '-', '_', '.'")
  else .ok ()

def validate_http (target : String) (expected_status : Option Nat) : Except String Unit :=
  match strip_http target.toList with
  | none => .error ("http target " ++ str.debug target ++ " must start with http:// (https is not supported in v1)")
  | some after =>
    if (after.takeWhile (· != '/')).isEmpty then .error ("http target " ++ str.debug target ++ " has no host")
    else
      match expected_status with
      | some code => if 100 ≤ code ∧ code ≤ 599 then .ok ()
        else .error ("expected_status " ++ toString code ++ " not a valid HTTP status (100..=599)")
      | none => .ok ()

def validate_tcp (target : String) (expected_status : Option Nat) : Except String Unit :=
  if expected_status.isSome then .error "expected_status forbidden for tcp checks (no HTTP-style status)"
  else
    match str.rsplit_once ':' target.toList with
    | none => .error ("tcp target " ++ str.debug target ++ " must be host:port")
    | some (host, port) =>
      if host.isEmpty then .error ("tcp target " ++ str.debug target ++ " has no host")
      else
        match parse_u16 port with
        | none => .error ("tcp target " ++ str.debug target ++ " port " ++ str.debug (String.ofList port) ++ " not a number")
        | some port =>
          if port = 0 then .error ("tcp target " ++ str.debug target ++ " port must be 1..=65535")
          else if host.contains ' ' then .error ("tcp target " ++ str.debug target ++ " host contains whitespace")
          else .ok ()

def control_chars : List Char := ['\n', '\r', '\x00', '\t']

def MonitoringCheckSpec.validate (spec : MonitoringCheckSpec) : Except String Unit := do
  validate_name spec.name
  if ¬ (1 ≤ spec.timeout_secs ∧ spec.timeout_secs ≤ 60) then
    .error ("timeout_secs " ++ toString spec.timeout_secs ++ " out of range 1..=60")
  else if 30 < spec.retries then .error ("retries " ++ toString spec.retries ++ " exceeds cap (30)")
  else if 60 < spec.retry_interval_secs then
    .error ("retry_interval_secs " ++ toString spec.retry_interval_secs ++ " out of range 0..=60")
  else if spec.target.toList.isEmpty then .error "target must not be empty"
  else if spec.target.toList.any control_chars.contains then .error "target must not contain control characters"
  else
    match spec.check_type with
    | .Http => validate_http spec.target spec.expected_status
    | .Tcp => validate_tcp spec.target spec.expected_status

/-- A field of an unsigned type whose values are below `bound`. -/
def uint_field (v : Value) (key : String) (bound : Nat) (default : Nat) : Except String Nat :=
  match v.get key with
  | none => .ok default
  | some (.number (.PosInt n)) => if n < bound then .ok n else .error ("invalid value for " ++ key)
  | some _ => .error ("invalid type for " ++ key)

def read_type (v : Value) : Except String CheckType :=
  match v.get "type" with
  | some (.string "http") => .ok .Http
  | some (.string "tcp") => .ok .Tcp
  | some _ => .error "unknown variant, expected `http` or `tcp`"
  | none => .error "missing field `type`"

def read_state (v : Value) : Except String CheckState := state_field .Present .Absent v

def read_expected_status (v : Value) : Except String (Option Nat) :=
  match v.get "expected_status" with
  | none | some .null => .ok none
  | some _ => (uint_field v "expected_status" 65536 0).map some

def fields : List String :=
  ["name", "type", "target", "expected_status", "timeout_secs", "state", "retries", "retry_interval_secs"]

/-- Unknown fields are refused. -/
def MonitoringCheckSpec.from_value (v : Value) : Except String MonitoringCheckSpec :=
  match v with
  | .object entries =>
    if entries.any fun f => !fields.contains f.1 then .error "unknown field"
    else do
      let name ← string_field v "name"
      let check_type ← read_type v
      let target ← string_field v "target"
      let expected_status ← read_expected_status v
      let timeout_secs ← uint_field v "timeout_secs" (2 ^ 64) 5
      let state ← read_state v
      let retries ← uint_field v "retries" num.u32_bound 0
      let retry_interval_secs ← uint_field v "retry_interval_secs" (2 ^ 64) 1
      let spec : MonitoringCheckSpec :=
        { name, check_type, target, expected_status, timeout_secs, state, retries, retry_interval_secs }
      spec.validate
      return spec
  | _ => .error "invalid type, expected struct MonitoringCheckSpec"

end Validate

/-- `Duration::from_secs`, in nanoseconds. -/
def from_secs (secs : Nat) : Nat := secs * 1000000000

/-- What a call answers, and how long it takes. -/
structure Reply (α : Type) where
  elapsed : Nat
  result : Except String α

/-- The peers of a probe: what they do to each call, by its place among the
calls of its kind. No call takes longer than the timeout that is set for it. -/
structure Peers (timeout : Nat) where
  connect : Nat → SocketAddr → Reply Unit
  set_read_timeout : Except String Unit := .ok ()
  set_write_timeout : Except String Unit := .ok ()
  write : Nat → List UInt8 → Reply Nat
  read : Nat → Reply (List UInt8)
  connect_within : ∀ i addr, (connect i addr).elapsed ≤ timeout
  write_within : ∀ i bytes, (write i bytes).elapsed ≤ timeout
  read_within : ∀ i, (read i).elapsed ≤ timeout

/-- What `getaddrinfo` answers for a name. -/
abbrev Resolver := List Char → Except String (List IpAddr)

inductive Event where
  | connect (addr : SocketAddr) (elapsed : Nat)
  | write (addr : SocketAddr) (bytes : List UInt8) (elapsed : Nat)
  | read (elapsed : Nat)
  | sleep (elapsed : Nat)

def Event.elapsed : Event → Nat
  | .connect _ elapsed | .write _ _ elapsed | .read elapsed | .sleep elapsed => elapsed

/-- A check, with the reason when the target is not healthy. -/
abbrev Probe (α : Type) := Logged Event String α

def unhealthy {α : Type} (reason : String) : Probe α := of_outcome (.error reason)

def is_metadata_addr : IpAddr → Bool
  | .V4 ip => ip == ⟨169, 254, 169, 254⟩
  | .V6 ip => ip == ⟨0xfd00, 0xec2, 0, 0, 0, 0, 0, 0x254⟩

section Backend

variable {timeout : Nat} (resolver : Resolver) (peers : Peers timeout)

def connect_timeout (i : Nat) (addr : SocketAddr) : Probe Unit :=
  let reply := peers.connect i addr
  emit (.connect addr reply.elapsed) (reply.result.mapError fun e => "connect " ++ addr.to_string ++ ": " ++ e)

/-- The addresses one after the other: the first success wins, and the last
error is reported. -/
def try_each : Nat → List SocketAddr → String → Probe Unit
  | _, [], last_err => unhealthy last_err
  | i, addr :: rest, _ => do
    match ← attempt (connect_timeout peers i addr) with
    | .ok () => return ()
    | .error e => try_each (i + 1) rest e

def refusal (target : List Char) : String :=
  "refusing to probe cloud-metadata endpoint via " ++ String.ofList target ++ " (SSRF guard)"

/-- The addresses of a target that may be tried. -/
def resolve (dns : String) (target : List Char) : Probe (List SocketAddr) :=
  match to_socket_addrs resolver target with
  | .error e => unhealthy (dns ++ String.ofList target ++ ": " ++ e)
  | .ok addrs =>
    if addrs.isEmpty then unhealthy (dns ++ String.ofList target ++ ": no addresses")
    else if addrs.any fun addr => is_metadata_addr addr.ip then unhealthy (refusal target)
    else return addrs

def check_tcp (target : List Char) : Probe Unit := do
  let addrs ← resolve resolver "DNS resolve " target
  try_each peers 0 addrs ""

structure ParsedUrl where
  host : List Char
  port : UInt16
  path : List Char

def parse_http_url (url : List Char) : Except String ParsedUrl :=
  let shown := str.debug (String.ofList url)
  match strip_http url with
  | none => .error ("not an http:// URL: " ++ shown)
  | some after =>
    let authority := after.takeWhile (· != '/')
    let rest := after.dropWhile (· != '/')
    let path := if rest.isEmpty then ['/'] else rest
    match str.rsplit_once ':' authority with
    | some (host, port) =>
      match parse_u16 port with
      | none => .error ("invalid port " ++ str.debug (String.ofList port) ++ " in URL " ++ shown)
      | some port => if host.isEmpty then .error ("empty host in URL " ++ shown) else .ok ⟨host, port, path⟩
    | none => if authority.isEmpty then .error ("empty host in URL " ++ shown) else .ok ⟨authority, 80, path⟩

def ParsedUrl.target (parsed : ParsedUrl) : List Char :=
  parsed.host ++ ':' :: Nat.toDigits 10 parsed.port.toNat

def ParsedUrl.request (parsed : ParsedUrl) : List Char :=
  "GET ".toList ++ parsed.path ++ " HTTP/1.0\r\nHost: ".toList ++ parsed.host ++
    "\r\nUser-Agent: iac-monitoring-check/1.0\r\nConnection: close\r\n\r\n".toList

def write_call (addr : SocketAddr) (i : Nat) (left : List UInt8) : Probe Nat :=
  let reply := peers.write i left
  emit (.write addr (left.take (reply.result.toOption.getD 0)) reply.elapsed) reply.result

/-- The stream gives no more bytes than its limit. -/
def read_call (i limit : Nat) : Probe (List UInt8) :=
  let reply := peers.read i
  emit (.read reply.elapsed) (reply.result.map fun bytes => bytes.take limit)

/-- `write_all`: no more calls are made than there are bytes. -/
def write_all (addr : SocketAddr) : Nat → Nat → List UInt8 → Probe Unit
  | 0, _, _ => return ()
  | fuel + 1, i, left =>
    if left = [] then return ()
    else do
      let n ← write_call peers addr i left
      if n = 0 then unhealthy "failed to write whole buffer"
      else write_all addr fuel (i + 1) (left.drop n)

/-- `read_to_end` on the stream with a limit: past it the end is reported
without a call. -/
def read_to_end : Nat → Nat → Nat → Probe (List UInt8)
  | 0, _, _ => return []
  | fuel + 1, i, limit =>
    if limit = 0 then return []
    else do
      let chunk ← read_call peers i limit
      if chunk = [] then return []
      else
        let rest ← read_to_end fuel (i + 1) (limit - chunk.length)
        return chunk ++ rest

def response_limit : Nat := 64 * 1024

def is_cr (c : Char) : Bool := c == '\r'

/-- The text before the first line break, empty when it is not UTF-8. -/
def status_line (buf : List UInt8) : List Char :=
  let first := buf.takeWhile (· != 10)
  let text := (String.fromUTF8? ⟨first.toArray⟩).getD ""
  (text.toList.reverse.dropWhile is_cr).reverse

def status_code (line : List Char) : Option Nat :=
  ((words str.is_whitespace line)[1]?).bind fun word => num.from_str_radix 10 65536 word

def check_status (expected_status : Nat) (buf : List UInt8) : Except String Unit :=
  let line := status_line buf
  if line = [] then .error "empty response"
  else
    match status_code line with
    | some code =>
      if code = expected_status then .ok ()
      else .error ("status " ++ toString code ++ " (expected " ++ toString expected_status ++ ")")
    | none => .error ("malformed status line: " ++ str.debug (String.ofList line))

/-- The request and the response on a connection. -/
def exchange (addr : SocketAddr) (request : List UInt8) (expected_status : Nat) : Probe Unit := do
  map_error (fun e => "set_read_timeout: " ++ e) (of_outcome peers.set_read_timeout)
  map_error (fun e => "set_write_timeout: " ++ e) (of_outcome peers.set_write_timeout)
  map_error (fun e => "write: " ++ e) (write_all peers addr request.length 0 request)
  let buf ← map_error (fun e => "read: " ++ e) (read_to_end peers response_limit 0 response_limit)
  of_outcome (check_status expected_status buf)

/-- Only the first address is tried. -/
def check_http (url : List Char) (expected_status : Nat) : Probe Unit := do
  let parsed ← of_outcome (parse_http_url url)
  let addrs ← resolve resolver "DNS " parsed.target
  match addrs with
  | [] => return ()
  | addr :: _ =>
    connect_timeout peers 0 addr
    exchange peers addr (utf8 parsed.request) expected_status

end Backend

/-- The timeout of the calls of a check. -/
def MonitoringCheckSpec.timeout (spec : MonitoringCheckSpec) : Nat := from_secs spec.timeout_secs

/-- One probe. Its failure is the reason why the target is unhealthy. -/
def run (spec : MonitoringCheckSpec) (resolver : Resolver) (peers : Peers spec.timeout) : Probe Unit :=
  match spec.check_type with
  | .Tcp => check_tcp resolver peers spec.target.toList
  | .Http => check_http resolver peers spec.target.toList (spec.expected_status.getD 200)

/-- What the resolver and the peers do at each of the attempts. -/
structure World (timeout : Nat) where
  resolver : Nat → Resolver
  peers : Nat → Peers timeout

inductive MonitoringAction where
  | Verify

def MonitoringAction.as_str : MonitoringAction → String
  | .Verify => "monitoring.verify"

def MonitoringAction.parse : String → Except Error MonitoringAction
  | "monitoring.verify" => .ok .Verify
  | other => .error (.Provider "MonitoringAction" ("unknown step action " ++ str.debug other))

/-- `1 + retries` in the range of `u32`. -/
def MonitoringCheckSpec.total_attempts (spec : MonitoringCheckSpec) : Nat := min (1 + spec.retries) (num.u32_bound - 1)

def passed (spec : MonitoringCheckSpec) (attempt : Nat) : String :=
  if attempt = 0 then "check " ++ spec.name ++ " passed"
  else "check " ++ spec.name ++ " passed on attempt " ++ toString (attempt + 1) ++ "/" ++ toString spec.total_attempts

def failed (spec : MonitoringCheckSpec) (last_reason : Option String) : Error :=
  .Provider "monitoring.check" ("check " ++ spec.name ++ " failed after " ++ toString spec.total_attempts ++
    " attempt(s): " ++ last_reason.getD "unknown")

/-- The sleep between two attempts: there is none after the last. -/
def pause (spec : MonitoringCheckSpec) (remaining : Nat) : Logged Event Error Unit :=
  if 0 < remaining then emit (.sleep (from_secs spec.retry_interval_secs)) (.ok ()) else return ()

/-- The attempts from one on: how many remain, and the reason the last one failed. -/
def attempts (spec : MonitoringCheckSpec) (world : World spec.timeout) :
    Nat → Nat → Option String → Logged Event Error StepResult
  | 0, _, last_reason => of_outcome (.error (failed spec last_reason))
  | remaining + 1, i, _ => do
    match ← attempt (run spec (world.resolver i) (world.peers i)) with
    | .ok () => return .ok (passed spec i)
    | .error reason =>
      pause spec remaining
      attempts spec world remaining (i + 1) (some reason)

def apply (spec : MonitoringCheckSpec) (step : Step) (world : World spec.timeout) : Logged Event Error StepResult := do
  let _ ← of_outcome (MonitoringAction.parse step.action)
  attempts spec world spec.total_attempts 0 none

end iac_providers.monitoring
