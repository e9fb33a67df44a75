import Iac.Collections.Run
import Iac.Core.Pipe

open os

namespace iac_core.subprocess

/-- Durations and the clock are in nanoseconds. -/
def POLL_INTERVAL : Nat := 25000000

def POST_KILL_REAP_WINDOW : Nat := 1000000000

/-- Captured output from one subprocess invocation. -/
structure Output where
  status : ExitStatus
  stdout : List UInt8
  stderr : List UInt8
  deriving DecidableEq

/-- Why a call failed before producing an output. -/
inductive SubprocessError where
  | Spawn (e : String)
  | Timeout (elapsed : Nat) (partial_stdout partial_stderr : List UInt8)
  | Wait (e : String)
  deriving DecidableEq

inductive Stream where
  | stdout
  | stderr
  deriving DecidableEq, Repr

/-- A killed child holds its pipes until the kernel is through with it. -/
inductive Child where
  | absent
  | running
  | killed
  | exited (status : ExitStatus)
  deriving DecidableEq

/-- Where the calling thread is. `polling` and `reaping` sleep until `wake`;
`collecting` waits for a reader, `receiving` until a deadline. The output of
the first reader is there when the second one is waited for. -/
inductive Phase where
  | polling (wake : Nat)
  | collecting (status : ExitStatus) (stdout : Option (List UInt8))
  | reaping (deadline wake : Nat)
  | receiving (deadline : Nat) (partial_stdout : Option (List UInt8))
  | returned (result : Except SubprocessError Output)

/-- How the child came to its end without being killed: when, and whether nobody else had an output pipe then. -/
structure Exit where
  status : ExitStatus
  time : Nat
  alone : Bool

/-- The child has number 0, and whatever it starts another one. `wait_error` is
what `try_wait` fails with, `before_kill` what had been written when the child was killed. -/
structure World where
  now : Nat
  started : Nat
  timeout : Nat
  phase : Phase
  child : Child
  stdin : Input
  outputs : Stream → os.Output := fun _ => { writers := [0] }
  wait_error : Option String := none
  exit : Option Exit := none
  before_kill : Stream → List UInt8 := fun _ => []

/-- What a process, a reader thread, the thread that feeds the input or the calling thread does. -/
inductive Act where
  | fork (p q : Pid)
  | write (p : Pid) (s : Stream) (bytes : List UInt8)
  | close (p : Pid) (s : Stream)
  | close_stdin (p : Pid)
  | consume (p : Pid) (n : Nat)
  | exit (p : Pid) (status : ExitStatus)
  | read (s : Stream)
  | feed
  | poll

/-- The call, with what `spawn` comes to. -/
def run_with_timeout (now timeout : Nat) (stdin : List UInt8) (wait_error : Option String) (spawn : Except String Unit) : World :=
  { now, started := now, timeout, wait_error, stdin := { readers := [0], unsent := stdin }
    child := match spawn with
      | .ok () => .running
      | .error _ => .absent
    phase := match spawn with
      | .ok () => .polling now
      | .error e => .returned (.error (.Spawn e)) }

/-- The stream whose reader is waited for. -/
def awaited : Option (List UInt8) → Stream
  | none => .stdout
  | some _ => .stderr

def World.set_output (w : World) (s : Stream) (o : os.Output) : World :=
  { w with outputs := Function.update w.outputs s o }

/-- A process is gone with its ends of the pipes. -/
def World.drop (w : World) (p : Pid) : World :=
  { w with stdin := w.stdin.close p, outputs := fun s => (w.outputs s).close p }

/-- The child can do nothing once it was killed. -/
def World.can_act (w : World) (p : Pid) : Bool := p != 0 || w.child == .running

def World.alone (w : World) : Bool :=
  [Stream.stdout, Stream.stderr].all fun s => (w.outputs s).writers.all (· == 0)

def World.exits (w : World) (p : Pid) (status : ExitStatus) : Option World :=
  if p ≠ 0 then some (w.drop p)
  else
    match w.child with
    | .running => some { w.drop 0 with child := .exited status, exit := some ⟨status, w.now, w.alone⟩ }
    | .killed => some { w.drop 0 with child := .exited status }
    | .absent | .exited _ => none

/-- One turn of the loop. -/
def World.poll (w : World) : World :=
  match w.wait_error with
  | some e => { w with phase := .returned (.error (.Wait e)) }
  | none =>
    match w.child with
    | .exited status => { w with phase := .collecting status none }
    | _ =>
      if w.timeout ≤ w.now - w.started then
        { w with child := .killed, before_kill := fun s => (w.outputs s).written
                 phase := .reaping (w.now + POST_KILL_REAP_WINDOW) w.now }
      else { w with phase := .polling (w.now + POLL_INTERVAL) }

/-- One turn of the loop that reaps the killed child. -/
def World.reap (w : World) (deadline : Nat) : World :=
  if w.now < deadline then
    match w.wait_error, w.child with
    | none, .exited _ => { w with phase := .receiving (w.now + POST_KILL_REAP_WINDOW) none }
    | _, _ => { w with phase := .reaping deadline (w.now + POLL_INTERVAL) }
  else { w with phase := .receiving (w.now + POST_KILL_REAP_WINDOW) none }

/-- `recv` has returned. -/
def World.collect (w : World) (status : ExitStatus) (stdout : Option (List UInt8)) (bytes : List UInt8) : World :=
  match stdout with
  | none => { w with phase := .collecting status (some bytes) }
  | some stdout => { w with phase := .returned (.ok { status, stdout, stderr := bytes }) }

/-- `recv_timeout` has returned. -/
def World.receive (w : World) (partial_stdout : Option (List UInt8)) (bytes : List UInt8) : World :=
  match partial_stdout with
  | none => { w with phase := .receiving (w.now + POST_KILL_REAP_WINDOW) (some bytes) }
  | some stdout => { w with phase := .returned (.error (.Timeout (w.now - w.started) stdout bytes)) }

/-- The calling thread goes on from where it waits, if it can. -/
def World.resume (w : World) : Option World :=
  match w.phase with
  | .polling wake => if wake ≤ w.now then some w.poll else none
  | .collecting status stdout =>
    let o := w.outputs (awaited stdout)
    if o.ended then some (w.collect status stdout o.buf) else none
  | .reaping deadline wake => if wake ≤ w.now then some (w.reap deadline) else none
  | .receiving deadline partial_stdout =>
    let o := w.outputs (awaited partial_stdout)
    if o.ended then some (w.receive partial_stdout o.buf)
    else if deadline ≤ w.now then some (w.receive partial_stdout [])
    else none
  | .returned _ => none

/-- When the calling thread wakes up by itself. -/
def World.wake (w : World) : Option Nat :=
  match w.phase with
  | .polling wake | .reaping _ wake => some wake
  | .receiving deadline _ => some deadline
  | .collecting _ _ | .returned _ => none

/-- `write_all` and the drop of the handle; a broken pipe is benign. -/
def feed (capacity : Nat) (i : Input) : Input :=
  if i.unsent.isEmpty || i.readers.isEmpty then { i with closed := true } else i.push capacity

def act (capacity : Nat) (w : World) : Act → Option World
  | .fork p q =>
    if w.can_act p && q != 0 then
      some { w with stdin := w.stdin.fork p q, outputs := fun s => (w.outputs s).fork p q }
    else none
  | .write p s bytes => if w.can_act p then ((w.outputs s).write capacity p bytes).map (w.set_output s) else none
  | .close p s => if w.can_act p then some (w.set_output s ((w.outputs s).close p)) else none
  | .close_stdin p => if w.can_act p then some { w with stdin := w.stdin.close p } else none
  | .consume p n => if w.can_act p then (w.stdin.consume p n).map fun stdin => { w with stdin } else none
  | .exit p status => w.exits p status
  | .read s => (w.outputs s).read.map (w.set_output s)
  | .feed => if w.stdin.writable capacity then some { w with stdin := feed capacity w.stdin } else none
  | .poll => w.resume

/-- The call and the processes it started, under the clock. -/
def system (capacity : Nat) : timed.System World Act where
  act := act capacity
  now := World.now
  wait w d := { w with now := w.now + d }
  urgent w := w.resume.isSome || w.stdin.writable capacity || [Stream.stdout, Stream.stderr].any fun s => (w.outputs s).readable
  wake := World.wake

/-- What the call has returned. -/
def World.result (w : World) : Option (Except SubprocessError Output) :=
  match w.phase with
  | .returned result => some result
  | _ => none

/-- The timeout, the three windows after a kill and one polling tick. -/
def World.bound (w : World) : Nat := w.started + w.timeout + 3 * POST_KILL_REAP_WINDOW + POLL_INTERVAL

/-- The call does not wait past the bound; a child that exits in time and leaves
its pipes to nobody gives an output with all it wrote; a timeout comes with all
that was written before the kill. -/
structure MeetsDeadline (w : World) : Prop where
  bounded : w.result = none → w.now ≤ w.bound
  exited : ∀ e result, w.exit = some e → e.time < w.started + w.timeout → e.alone = true → w.wait_error = none →
    w.result = some result →
      result = .ok { status := e.status, stdout := (w.outputs .stdout).written, stderr := (w.outputs .stderr).written }
  killed : ∀ elapsed stdout stderr, w.result = some (.error (.Timeout elapsed stdout stderr)) →
    w.before_kill .stdout <+: stdout ∧ w.before_kill .stderr <+: stderr

end iac_core.subprocess
