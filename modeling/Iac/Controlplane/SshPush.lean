import Iac.Collections.Run
import Iac.Controlplane.Store.Audit
import Iac.Core.Pipe
import Iac.Core.Protocol
import Iac.Core.Text
import Iac.Core.Utf8

open iac_core.protocol serde_json

namespace iac_controlplane.ssh_push

structure SshTargetConfig where
  name : String
  capabilities : List String

/-- What a worker does with an assignment before it waits for the target: it
reports a failure, or starts `iac apply --assignment-stdin` there with a text to read. -/
inductive Push where
  | reported (msg : String)
  | piped (stdin : String)
  deriving DecidableEq

/-- The first kind of a payload that the target is not allowed to get. -/
def rejected_kind (target : SshTargetConfig) (payload : AssignmentPayload) : Option String :=
  (payload.resources.map fun resource => ((resource.get "kind").bind Value.as_str).getD "<missing>").find? fun kind =>
    !target.capabilities.contains kind

/-- `process_assignment` up to the end of the writing. -/
def process_assignment (crates : Crates) (target : SshTargetConfig) (payload_json : String) : Except String Push :=
  match crates.from_str payload_json >>= AssignmentPayload.of_value with
  | .error e => .error ("decoding assignment payload: " ++ e)
  | .ok payload =>
    if target.capabilities.isEmpty then .ok (.piped payload_json)
    else
      match rejected_kind target payload with
      | some kind => .ok (.reported ("ssh target " ++ target.name ++ " capabilities allowlist rejects kind " ++ str.debug kind))
      | none => .ok (.piped payload_json)

/-- The payload that `cmd_apply_assignment_stdin` reads at the target. -/
def assignment_of_stdin (crates : Crates) (stdin : String) : Except String AssignmentPayload :=
  (crates.from_str stdin >>= AssignmentPayload.of_value).mapError fun _ => "decoding assignment payload (expected JSON)"

/-- What is written is the payload as it is stored. -/
theorem process_assignment_piped {crates : Crates} {target : SshTargetConfig} {payload_json stdin : String}
    (h : process_assignment crates target payload_json = .ok (.piped stdin)) : stdin = payload_json := by
  unfold process_assignment at h
  split at h
  · cases h
  · split at h
    · exact (Push.piped.inj (Except.ok.inj h)).symm
    · split at h
      · cases h
      · exact (Push.piped.inj (Except.ok.inj h)).symm

end iac_controlplane.ssh_push

open iac_controlplane.store os

namespace iac_core.protocol

def status_of_name : String → Option AssignmentResultStatus
  | "succeeded" => some .Succeeded
  | "partially_applied" => some .PartiallyApplied
  | "failed" => some .Failed
  | _ => none

def AssignmentResultStatus.of_value : Value → Except String AssignmentResultStatus
  | .string name | .object [(name, .null)] => (status_of_name name).elim (.error ("unknown variant " ++ name)) .ok
  | _ => .error "invalid type, expected a variant"

def AssignmentItemResult.of_value (v : Value) : Except String AssignmentItemResult := do
  return { resource_id := ← string_field v "resource_id", status := ← string_field v "status"
           error := ← option_field v "error" }

def AssignmentResultRequest.of_value (v : Value) : Except String AssignmentResultRequest := do
  let status ← match v.get "status" with
    | some status => AssignmentResultStatus.of_value status
    | none => .error "missing field status"
  let summary ← option_field v "summary"
  let items ← match v.get "items" with
    | some (.array items) => items.mapM AssignmentItemResult.of_value
    | some _ => .error "invalid type for items, expected a sequence"
    | none => .error "missing field items"
  return { status, summary, items }

end iac_core.protocol

namespace iac_controlplane.ssh_push

/-- In nanoseconds, as the clock. -/
def MAX_PUSH_DURATION : Nat := 300 * 1000000000

/-- An assignment that a worker has claimed for its target. -/
structure Job where
  target : SshTargetConfig
  host : String
  agent_id : String
  assignment_id : String
  payload_json : String

inductive Stream where
  | stdout
  | stderr
  deriving DecidableEq, Repr

/-- The ssh process; `killed` by the drop of its handle. -/
inductive Child where
  | absent
  | running
  | killed
  | exited (status : ExitStatus)
  deriving DecidableEq

/-- Where `process_assignment` is: in `write_all`, in the wait that ends at the deadline, or at its end. -/
inductive Phase where
  | writing
  | waiting (deadline : Nat)
  | ended (result : Except String Unit)

/-- The result of an assignment with the audit record that is committed beside it. -/
structure Recorded where
  result : AssignmentResultRequest
  audit : AuditRecord

/-- `started` is when the ssh process was started, and `recorded` what
`complete_assignment_with_extra_audit` was called with. -/
structure World where
  now : Nat
  started : Nat
  phase : Phase
  child : Child
  stdin : Input
  outputs : Stream → Output := fun _ => { writers := [0] }
  recorded : List Recorded := []

/-- What the ssh process does, and the worker when it can go on; `fail` is an error
of `wait_with_output` before the process has come to its end. -/
inductive Act where
  | consume (n : Nat)
  | close_stdin
  | write (s : Stream) (bytes : List UInt8)
  | close (s : Stream)
  | exit (status : ExitStatus)
  | read (s : Stream)
  | fail (e : String)
  | resume

def push_kind : AssignmentResultStatus → String
  | .Succeeded => "ssh.push_succeeded"
  | .PartiallyApplied => "ssh.push_partial"
  | .Failed => "ssh.push_failed"

def push_severity : AssignmentResultStatus → String
  | .Succeeded => "info"
  | _ => "warning"

def build_push_audit (job : Job) (status : AssignmentResultStatus) : AuditRecord :=
  { actor := "ssh-push:" ++ job.target.name, kind := push_kind status, agent_id := some job.agent_id
    severity := push_severity status
    payload := json [("assignment_id", .string job.assignment_id), ("target", .string job.target.name),
      ("host", .string job.host)] }

/-- `complete_assignment_with_extra_audit` with the result and its audit record. -/
def World.complete (w : World) (job : Job) (result : AssignmentResultRequest) : World :=
  { w with recorded := { result, audit := build_push_audit job result.status } :: w.recorded, phase := .ended (.ok ())
           child := if w.child = .running then .killed else w.child }

def World.report_result (w : World) (job : Job) (status : AssignmentResultStatus) (summary : String) : World :=
  w.complete job { status, summary := some summary, items := [] }

/-- The last 500 characters. -/
def tail (text : String) : String := String.ofList (text.toList.drop (text.toList.length - 500))

def debug_code : Option Nat → String
  | some n => "Some(" ++ toString n ++ ")"
  | none => "None"

/-- What the ssh process printed on its standard output, as a result. -/
def printed_result (crates : Crates) (stdout : List UInt8) : Except String AssignmentResultRequest :=
  crates.from_str (String.ofList (str.trim (str.from_utf8_lossy stdout).toList)) >>= AssignmentResultRequest.of_value

/-- `process_assignment` from the output of the ssh process on. -/
def World.conclude (crates : Crates) (job : Job) (w : World) (status : ExitStatus) (stdout stderr : List UInt8) : World :=
  if !status.success then
    w.report_result job .Failed
      ("ssh exit=" ++ debug_code status.exit_code ++ " stderr_tail=" ++ tail (str.from_utf8_lossy stderr))
  else
    match printed_result crates stdout with
    | .ok result => w.complete job result
    | .error e =>
      w.report_result job .PartiallyApplied
        ("ssh exited 0 but result JSON malformed: " ++ e ++ "; stdout_tail=" ++ tail (str.from_utf8_lossy stdout))

/-- `?` returns before anything is recorded; the handle is dropped and the process killed. -/
def World.bail (w : World) (e : String) : World :=
  { w with phase := .ended (.error e), child := if w.child = .running then .killed else w.child }

/-- `process_assignment` up to the first write, with what starting ssh comes to. -/
def start (crates : Crates) (job : Job) (now : Nat) (spawn : Except String Unit) : World :=
  let w : World := { now, started := now, phase := .writing, child := .absent
                     stdin := { readers := [0], unsent := as_bytes job.payload_json } }
  match process_assignment crates job.target job.payload_json with
  | .error e => w.bail e
  | .ok (.reported msg) => w.report_result job .Failed msg
  | .ok (.piped _) =>
    match spawn with
    | .error e => w.bail ("spawning ssh: " ++ e)
    | .ok () => { w with child := .running }

/-- One turn of `write_all`; the end of it starts the wait. -/
def World.write_turn (capacity : Nat) (w : World) : Option World :=
  if w.stdin.unsent.isEmpty then
    some { w with stdin := { w.stdin with closed := true }, phase := .waiting (w.now + MAX_PUSH_DURATION) }
  else if w.stdin.readers.isEmpty then some (w.bail "writing payload to ssh stdin: Broken pipe (os error 32)")
  else if w.stdin.buffered.length < capacity then some { w with stdin := w.stdin.push capacity }
  else none

/-- The wait ends when the process has exited and both its outputs have ended, or
at the deadline; `timeout` looks at the process before it looks at its timer. -/
def World.wait_turn (crates : Crates) (job : Job) (w : World) (deadline : Nat) : Option World :=
  match w.child with
  | .exited status =>
    if (w.outputs .stdout).ended && (w.outputs .stderr).ended then
      some (w.conclude crates job status (w.outputs .stdout).buf (w.outputs .stderr).buf)
    else none
  | _ => if deadline ≤ w.now then some (w.report_result job .Failed "ssh push exceeded 300s; killed") else none

/-- The worker goes on from where it waits, if it can. -/
def World.resume (crates : Crates) (job : Job) (capacity : Nat) (w : World) : Option World :=
  match w.phase with
  | .writing => w.write_turn capacity
  | .waiting deadline => w.wait_turn crates job deadline
  | .ended _ => none

def World.set_output (w : World) (s : Stream) (o : Output) : World :=
  { w with outputs := Function.update w.outputs s o }

/-- The outputs are read while the worker waits. -/
def World.reading (w : World) : Bool :=
  match w.phase with
  | .waiting _ => true
  | _ => false

def act (crates : Crates) (job : Job) (capacity : Nat) (w : World) : Act → Option World
  | .consume n => if w.child = .running then (w.stdin.consume 0 n).map fun stdin => { w with stdin } else none
  | .close_stdin => if w.child = .running then some { w with stdin := w.stdin.close 0 } else none
  | .write s bytes => if w.child = .running then ((w.outputs s).write capacity 0 bytes).map (w.set_output s) else none
  | .close s => if w.child = .running then some (w.set_output s ((w.outputs s).close 0)) else none
  | .exit status =>
    if w.child = .running then
      some { w with child := .exited status, stdin := w.stdin.close 0, outputs := fun s => (w.outputs s).close 0 }
    else none
  | .read s => if w.reading then (w.outputs s).read.map (w.set_output s) else none
  | .fail e =>
    if w.reading && w.child == .running then some (w.report_result job .Failed ("ssh wait_with_output: " ++ e)) else none
  | .resume => w.resume crates job capacity

/-- The worker and the ssh process under the clock. -/
def system (crates : Crates) (job : Job) (capacity : Nat) : timed.System World Act where
  act := act crates job capacity
  now := World.now
  wait w d := { w with now := w.now + d }
  urgent w := (w.resume crates job capacity).isSome ||
    w.reading && [Stream.stdout, Stream.stderr].any fun s => (w.outputs s).readable
  wake w := match w.phase with
    | .waiting deadline => some deadline
    | _ => none

/-- The status of an assignment by the end of the process and what it printed. -/
def verdict (crates : Crates) (child : Child) (stdout : List UInt8) : AssignmentResultStatus :=
  match child with
  | .exited (.code 0) =>
    match printed_result crates stdout with
    | .ok result => result.status
    | .error _ => .PartiallyApplied
  | _ => .Failed

def World.running (w : World) : Bool :=
  match w.phase with
  | .ended _ => false
  | _ => true

/-- The push is not running past its time, and at its end one result is recorded, with the right status. -/
structure Settles (crates : Crates) (w : World) : Prop where
  bounded : w.running = true → w.now ≤ w.started + MAX_PUSH_DURATION
  recorded : w.running = false → ∃ r, w.recorded = [r] ∧
    r.result.status = verdict crates w.child (w.outputs .stdout).written

end iac_controlplane.ssh_push
