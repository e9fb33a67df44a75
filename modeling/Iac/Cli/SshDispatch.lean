import Iac.Controlplane.SshPush

open iac_core.protocol iac_controlplane.store os serde_json
open iac_controlplane.ssh_push (debug_code printed_result)

namespace iac_cli.ssh_dispatch

structure SshTarget where
  label : String
  remote_iac : Option String := none

structure DispatchOutcome where
  label : String
  status : AssignmentResultStatus
  summary : String
  stdout : String
  stderr : String

def DispatchOutcome.is_terminal_failure (outcome : DispatchOutcome) : Bool :=
  match outcome.status with
  | .Failed => true
  | _ => false

structure CommandOutput where
  status : ExitStatus
  stdout : List UInt8
  stderr : List UInt8

/-- What comes of the ssh commands of one dispatch: of those that are run to their
end, with their arguments, of the copy of the own binary, and of the one that applies. -/
structure Ssh where
  output : List String → Except String CommandOutput
  bootstrap_iac_binary : Except String String
  spawn : List String → Except String Unit
  write_all : String → Except String Unit
  wait_with_output : Except String CommandOutput

/-- The last `n` characters of a text that has more than `n` bytes. -/
def tail_chars (s : String) (n : Nat) : String :=
  if s.utf8ByteSize ≤ n then s else String.ofList (s.toList.drop (s.toList.length - n))

def probe_remote_iac (ssh : Ssh) (target : SshTarget) : Except String (Option String) := do
  let output ← (ssh.output ["--", "sh -c 'command -v iac || echo MISSING'"]).mapError fun _ => "running ssh probe"
  if !output.status.success then
    throw ("ssh probe to " ++ target.label ++ " failed: " ++ str.from_utf8_lossy output.stderr)
  let path := String.ofList (str.trim (str.from_utf8_lossy output.stdout).toList)
  return if path == "MISSING" || path.isEmpty then none else some path

def no_iac_binary (target : SshTarget) : String :=
  "no `iac` binary found on " ++ target.label ++ ". Install it once via:\n\n" ++
    "curl -L https://github.com/<your-fork>/iac/releases/latest/download/iac-$(uname -m) \\\n| ssh " ++ target.label ++
    " 'sudo tee /usr/local/bin/iac >/dev/null && sudo chmod +x /usr/local/bin/iac'\n\n" ++
    "Or pass --auto-bootstrap to scp the local binary (when arches match)."

def resolve_remote_iac (ssh : Ssh) (target : SshTarget) (auto_bootstrap : Bool) : Except String String := do
  match target.remote_iac with
  | some p => return p
  | none =>
    match ← probe_remote_iac ssh target with
    | some p => return p
    | none => if auto_bootstrap then ssh.bootstrap_iac_binary else throw (no_iac_binary target)

/-- An error is the text that it is printed as, which is that of its outermost context. -/
def dispatch_apply (crates : Crates) (ssh : Ssh) (target : SshTarget) (payload : AssignmentPayload) (auto_bootstrap : Bool) :
    Except String DispatchOutcome := do
  let remote_iac ← resolve_remote_iac ssh target auto_bootstrap
  (ssh.spawn ["--", remote_iac, "apply", "--assignment-stdin", "--yes"]).mapError
    fun _ => "spawning ssh (is the binary in PATH?)"
  (ssh.write_all (crates.to_string payload.to_value)).mapError fun _ => "piping payload to ssh stdin"
  let output ← ssh.wait_with_output.mapError fun _ => "ssh process exit"
  let stdout := str.from_utf8_lossy output.stdout
  let stderr := str.from_utf8_lossy output.stderr
  if !output.status.success then
    return { label := target.label, status := .Failed
             summary := "ssh exit=" ++ debug_code output.status.exit_code ++ "; stderr_tail=" ++ tail_chars stderr 500
             stdout, stderr }
  match printed_result crates output.stdout with
  | .error e =>
    return { label := target.label, status := .PartiallyApplied, summary := "ssh exited 0 but result JSON malformed: " ++ e
             stdout, stderr }
  | .ok result =>
    return { label := target.label, status := result.status, summary := result.summary.getD "(no summary)", stdout, stderr }

def dispatch_run (ssh : Ssh) (target : SshTarget) (shell_command : String) : Except String DispatchOutcome := do
  let output ← (ssh.output ["--", shell_command]).mapError fun _ => "ssh to " ++ target.label ++ " for ad-hoc run"
  return { label := target.label, status := if output.status.success then .Succeeded else .Failed
           summary := "exit=" ++ debug_code output.status.exit_code
           stdout := str.from_utf8_lossy output.stdout, stderr := str.from_utf8_lossy output.stderr }

/-- A command that ran to its end either succeeded or failed. -/
theorem dispatch_run_not_partial {ssh : Ssh} {target : SshTarget} {shell_command : String} {outcome : DispatchOutcome}
    (h : dispatch_run ssh target shell_command = .ok outcome) : outcome.status ≠ .PartiallyApplied := by
  rw [dispatch_run] at h
  cases houtput : ssh.output ["--", shell_command] with
  | error e =>
    rw [houtput] at h
    cases h
  | ok output =>
    rw [houtput] at h
    obtain rfl := Except.ok.inj h
    dsimp only
    split <;> simp

end iac_cli.ssh_dispatch
