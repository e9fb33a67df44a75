import Iac.Cli.SshDispatch
import Iac.Collections.Run
import Mathlib.Algebra.GroupWithZero.Nat

open iac_cli.ssh_dispatch iac_core.protocol

namespace iac_cli

/-- `cmd_apply_fanout`, with the payload of its manifests, and `cmd_run`. -/
inductive Command where
  | apply (payload : AssignmentPayload) (auto_bootstrap : Bool)
  | run (command : List String)

structure Fanout where
  crates : Crates
  command : Command
  targets : List SshTarget
  max_parallel : Nat
  fail_fast : Bool

namespace fanout

/-- What the blocking task of a dispatch comes to. -/
inductive Reply where
  | panicked (join_err : String)
  | ran (ssh : Ssh)

def dispatch (f : Fanout) (target : SshTarget) : Reply → Except String DispatchOutcome
  | .panicked join_err => .error ("worker panicked: " ++ join_err)
  | .ran ssh =>
    match f.command with
    | .apply payload auto_bootstrap => dispatch_apply f.crates ssh target payload auto_bootstrap
    | .run command => dispatch_run ssh target (" ".intercalate command)

def outcome (f : Fanout) (target : SshTarget) (reply : Reply) : DispatchOutcome :=
  match dispatch f target reply with
  | .ok o => o
  | .error e => { label := target.label, status := .Failed, summary := e, stdout := "", stderr := "" }

/-- Where the task of a target is: before its look at the flag, before its permit, before its dispatch, in it, after
it, and after it has set the flag when it had to. It ends without a dispatch, or with its outcome recorded. -/
inductive Phase where
  | spawned
  | waiting
  | permitted
  | dispatching
  | returned (outcome : DispatchOutcome)
  | reported (outcome : DispatchOutcome)
  | recorded (outcome : DispatchOutcome)
  | skipped

/-- What the tasks do that others can tell, each with its number. -/
inductive Event where
  | started (i : Nat)
  | ended (i : Nat) (outcome : DispatchOutcome)
  | aborted (i : Nat)
  | recorded (i : Nat) (outcome : DispatchOutcome)

/-- `tasks` are those that have been spawned, in the order of their targets; `trace` is what has happened so far. -/
structure World where
  permits : Nat
  tasks : List Phase := []
  abort_flag : Bool := false
  outcomes : List DispatchOutcome := []
  trace : List Event := []

/-- The loop over the targets spawns the next task, or a task takes its next step. -/
inductive Action where
  | spawn
  | task (i : Nat) (reply : Reply)

def no_hosts : Command → String
  | .apply _ _ => "inventory resolved to zero hosts"
  | .run _ => "resolved to zero hosts"

/-- A command that is refused has no tasks. -/
def start (f : Fanout) : Except String World :=
  match f.command with
  | .run [] => .error "no command supplied; pass after `--`: iac run --ssh host -- 'uptime'"
  | command => if f.targets.isEmpty then .error (no_hosts command) else .ok { permits := max f.max_parallel 1 }

def World.to (w : World) (i : Nat) (phase : Phase) : World := { w with tasks := w.tasks.set i phase }

/-- The next step of a task. A permit is held until the task is over. -/
def World.advance (f : Fanout) (w : World) (i : Nat) (target : SshTarget) (reply : Reply) : Phase → Option World
  | .spawned => some (w.to i (if w.abort_flag then .skipped else .waiting))
  | .waiting => if w.permits = 0 then none else some { w.to i .permitted with permits := w.permits - 1 }
  | .permitted => some { w.to i .dispatching with trace := w.trace ++ [.started i] }
  | .dispatching =>
    let outcome := outcome f target reply
    some { w.to i (.returned outcome) with trace := w.trace ++ [.ended i outcome] }
  | .returned outcome =>
    if outcome.is_terminal_failure && f.fail_fast then
      some { w.to i (.reported outcome) with abort_flag := true, trace := w.trace ++ [.aborted i] }
    else some (w.to i (.reported outcome))
  | .reported outcome =>
    some { w.to i (.recorded outcome) with
      permits := w.permits + 1, outcomes := w.outcomes ++ [outcome], trace := w.trace ++ [.recorded i outcome] }
  | .recorded _ | .skipped => none

def step (f : Fanout) (w : World) : Action → Option World
  | .spawn => if w.tasks.length < f.targets.length then some { w with tasks := w.tasks ++ [.spawned] } else none
  | .task i reply =>
    match w.tasks[i]?, f.targets[i]? with
    | some phase, some target => w.advance f i target reply phase
    | _, _ => none

def exit_code (f : Fanout) (outcomes : List DispatchOutcome) : Nat :=
  let partly := outcomes.countP fun o => o.status == .PartiallyApplied
  let failed := outcomes.countP fun o => o.status == .Failed
  match f.command with
  | .apply _ _ => if failed > 0 then 5 else if partly > 0 then 4 else 0
  | .run _ => if failed > 0 then 5 else 0

/-- The task is over. -/
def Phase.over : Phase → Bool
  | .recorded _ | .skipped => true
  | _ => false

/-- The task has found the flag unset, and its dispatch has not started. -/
def Phase.past_check : Phase → Bool
  | .waiting | .permitted => true
  | _ => false

def Phase.in_progress : Phase → Bool
  | .dispatching => true
  | _ => false

/-- Every handle has been awaited. -/
def World.Finished (f : Fanout) (w : World) : Prop :=
  w.tasks.length = f.targets.length ∧ ∀ phase ∈ w.tasks, phase.over = true

/-- Whether the task is about to set the flag. -/
def Phase.fails (f : Fanout) : Phase → Bool
  | .returned outcome => outcome.is_terminal_failure && f.fail_fast
  | _ => false

/-- When a task sets the flag, no other one has looked at it and not started its dispatch yet. -/
def Unpassed (f : Fanout) (w : World) : Action → Prop
  | .spawn => True
  | .task i _ => (w.tasks[i]?.any fun phase => phase.fails f) = true → ∀ phase ∈ w.tasks, phase.past_check = false

/-- The events of a task, when it has come to this phase. The setting of the flag is none of its own. -/
def Phase.history (i : Nat) : Phase → List Event
  | .spawned | .waiting | .permitted | .skipped => []
  | .dispatching => [.started i]
  | .returned outcome | .reported outcome => [.started i, .ended i outcome]
  | .recorded outcome => [.started i, .ended i outcome, .recorded i outcome]

def Event.of (i : Nat) : Event → Bool
  | .started j | .ended j _ | .recorded j _ => j == i
  | .aborted _ => false

/-- The steps that a task has left at most. -/
def Phase.left : Phase → Nat
  | .spawned => 6
  | .waiting => 5
  | .permitted => 4
  | .dispatching => 3
  | .returned _ => 2
  | .reported _ => 1
  | .recorded _ | .skipped => 0

def World.left (f : Fanout) (w : World) : Nat :=
  7 * (f.targets.length - w.tasks.length) + (w.tasks.map Phase.left).sum

/-- What the fan-out keeps to in every state. It is never stuck before its tasks are
over, and has fewer steps left after each one. -/
structure Orderly (f : Fanout) (w : World) : Prop where
  bounded : w.tasks.countP Phase.in_progress ≤ max 1 f.max_parallel
  goes_on : ¬ w.Finished f → ∃ a u, step f w a = some u
  ends : ∀ a u, step f w a = some u → u.left f < w.left f
  all_hosts : f.fail_fast = false → w.Finished f → ∀ i < f.targets.length, ∃ outcome,
    w.trace.filter (Event.of i) = [.started i, .ended i outcome, .recorded i outcome]
  aborts : ∀ i j, ¬ [Event.aborted i, .started j].Sublist w.trace
  failure : w.Finished f → (exit_code f w.outcomes = 5 ↔ ∃ i outcome, .ended i outcome ∈ w.trace ∧ outcome.status = .Failed)
  success : w.Finished f →
    (exit_code f w.outcomes = 0 ↔ ∀ i outcome, .ended i outcome ∈ w.trace → outcome.status = .Succeeded)

end fanout

end iac_cli
