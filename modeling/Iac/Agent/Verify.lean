import Iac.Agent.Remote
import Iac.Collections.Fallible
import Iac.Core.Dalek
import Iac.Core.Protocol
import Iac.Core.Text
import Iac.Core.Timestamp

open iac_core.protocol serde_json

namespace iac_agent.remote

def future_grace_secs : Int := 300

/-- The age of an envelope, by the clock of the agent. -/
def check_envelope_freshness (parse : String → Option jiff.Timestamp) (now : jiff.Timestamp) (created_at : String)
    (max_age : UInt64) (future_grace : Int) : Except String Unit :=
  match parse created_at with
  | none => .error ("envelope created_at " ++ str.debug created_at ++ " unparseable — refusing to verify")
  | some created =>
    let age := now.as_second - created.as_second
    -- `max_age as i64` wraps round.
    if max_age.toInt64.toInt < age then
      .error ("envelope created_at " ++ created_at ++ " is " ++ toString age ++ "s old (cap " ++ toString max_age ++
        "s) — replay rejected")
    else if age < -future_grace then
      .error ("envelope created_at " ++ created_at ++ " is " ++ toString (-age) ++ "s in the future (grace " ++
        toString future_grace ++ "s) — replay rejected")
    else .ok ()

/-- The check of the server's own expiry, where it has set one. -/
def check_expiry (parse : String → Option jiff.Timestamp) (now : jiff.Timestamp) : Option String → Except String Unit
  | none => .ok ()
  | some exp_str =>
    match parse exp_str with
    | none => .error ("envelope expires_at " ++ str.debug exp_str ++ " unparseable — refusing to verify")
    | some exp =>
      let overdue := now.as_second - exp.as_second
      if future_grace_secs < overdue then
        .error ("envelope expires_at " ++ str.debug exp_str ++ " already past (overdue by " ++
          toString overdue ++ "s) — refusing to verify")
      else .ok ()

/-- An agent as its client sees itself, with what `max_envelope_age_secs` answers. -/
structure Verifier where
  agent_id : String
  verifiers : List (String × List UInt8)
  max_age : Option UInt64

def check_signature (dalek : Dalek) (verifier : List UInt8) (message signature : String) : Except String Unit :=
  match dalek.decode signature with
  | none => .error "decoding base64 signature"
  | some bytes =>
    if bytes.length ≠ 64 then .error "constructing Signature from bytes"
    else if dalek.verify verifier message bytes then .ok ()
    else .error "Ed25519 signature verification failed"

def verify_envelope (crates : Crates) (dalek : Dalek) (parse : String → Option jiff.Timestamp) (now : jiff.Timestamp)
    (agent : Verifier) (env : AssignmentEnvelope) : Except String Unit :=
  if agent.verifiers.isEmpty then .error "agent has no pinned server pubkeys — can't verify"
  else
    match agent.verifiers.lookup env.key_id with
    | none =>
      .error ("envelope key_id " ++ env.key_id ++ " not in pinned set (" ++ toString agent.verifiers.length ++ " keys pinned)")
    | some verifier => do
      if let some max_age := agent.max_age then
        check_envelope_freshness parse now env.created_at max_age future_grace_secs
      check_expiry parse now env.expires_at
      check_signature dalek verifier (env.message crates agent.agent_id) env.signature

/-- `Client::fetch_assignments` from the decoded list on. -/
def check_assignments (crates : Crates) (dalek : Dalek) (parse : String → Option jiff.Timestamp) (now : jiff.Timestamp)
    (agent : Verifier) (items : List AssignmentEnvelope) : Except String (List AssignmentEnvelope) := do
  items.forM fun env => (verify_envelope crates dalek parse now agent env).mapError fun e =>
    "verifying signature on assignment " ++ env.assignment_id ++ ": " ++ e
  return items

/-- `Client::fetch_assignments` on the body of a response. -/
def fetch_assignments (crates : Crates) (dalek : Dalek) (parse : String → Option jiff.Timestamp) (now : jiff.Timestamp)
    (agent : Verifier) (body : String) : Except String (List AssignmentEnvelope) :=
  match crates.from_str body >>= list_of_value with
  | .error _ => .error "decoding assignment list"
  | .ok items => check_assignments crates dalek parse now agent items

/-- The envelopes that `drain_assignments` goes through. -/
def drained (fetched : Except String (List AssignmentEnvelope)) : List AssignmentEnvelope :=
  match fetched with
  | .ok items => items
  | .error _ => []

section Checks

variable {crates : Crates} {dalek : Dalek} {parse : String → Option jiff.Timestamp} {now : jiff.Timestamp}
variable {agent : Verifier} {env : AssignmentEnvelope} {items : List AssignmentEnvelope}

private theorem bind_ok_iff {a : Except String Unit} {b : Unit → Except String Unit} :
    (a >>= b) = .ok () ↔ a = .ok () ∧ b () = .ok () := by
  cases a with
  | error e => simp [bind, Except.bind]
  | ok u => simp [bind, Except.bind]

/-- What an envelope needs to be accepted. -/
theorem verify_envelope_ok_iff : verify_envelope crates dalek parse now agent env = .ok () ↔
    ∃ verifier, agent.verifiers.lookup env.key_id = some verifier ∧
      (∀ max_age, agent.max_age = some max_age →
        check_envelope_freshness parse now env.created_at max_age future_grace_secs = .ok ()) ∧
      check_expiry parse now env.expires_at = .ok () ∧
      check_signature dalek verifier (env.message crates agent.agent_id) env.signature = .ok () := by
  rw [verify_envelope]
  cases hverifier : agent.verifiers.lookup env.key_id with
  | none => split <;> simp
  | some verifier =>
    have hpinned : ¬ agent.verifiers.isEmpty = true := by
      intro hempty
      rw [List.isEmpty_iff.mp hempty] at hverifier
      cases hverifier
    rw [if_neg hpinned]
    cases hage : agent.max_age with
    | none => simp [bind_ok_iff]
    | some max_age => simp [bind_ok_iff]

/-- A response is taken as a whole or not at all. -/
theorem check_assignments_ok_iff {out : List AssignmentEnvelope} :
    check_assignments crates dalek parse now agent items = .ok out ↔
      items = out ∧ ∀ env ∈ items, verify_envelope crates dalek parse now agent env = .ok () := by
  have hfor : ∀ result : Except String Unit, (do
      result
      return items : Except String (List AssignmentEnvelope)) = .ok out ↔ items = out ∧ result = .ok () := by
    intro result
    cases result <;> simp [bind, Except.bind, pure, Except.pure]
  rw [check_assignments, hfor, List.forM_eq_forM, fallible.forM_ok_iff]
  simp only [fallible.mapError_eq_ok_iff]

/-- The envelopes of a response are processed when all of them are accepted, and else none of them. -/
theorem mem_drained_iff : env ∈ drained (check_assignments crates dalek parse now agent items) ↔
    env ∈ items ∧ ∀ env ∈ items, verify_envelope crates dalek parse now agent env = .ok () := by
  cases hcheck : check_assignments crates dalek parse now agent items with
  | ok out =>
    obtain ⟨rfl, hall⟩ := check_assignments_ok_iff.mp hcheck
    simpa [drained] using fun _ => hall
  | error e =>
    have hrefused : ¬ ∀ env ∈ items, verify_envelope crates dalek parse now agent env = .ok () := by
      intro hall
      rw [check_assignments_ok_iff.mpr ⟨rfl, hall⟩] at hcheck
      cases hcheck
    simpa [drained] using fun _ hall => hrefused hall

end Checks

end iac_agent.remote
