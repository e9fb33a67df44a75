import Iac.Controlplane.Store.Audit

open serde_json sql

namespace iac_controlplane.store

def hash_token (crates : Crates) (token : String) : String :=
  crates.sha256_hex token.toUTF8.data.toList

/-- When a token issued now expires; the clock's limit counts as now. -/
def token_expiry (now : jiff.Timestamp) (token_ttl_secs : Option Nat) : Option String :=
  token_ttl_secs.map fun ttl => ((now.minus_seconds (-(ttl : Int))).getD now).to_string

/-- The request of `register_agent`, the ULID and the token it mints and the
clock, at its start and at its audit row. -/
structure RegisterRequest where
  id : String
  name : String
  environment : String
  token : String := ""
  token_ttl_secs : Option Nat := none
  audit_now : jiff.Timestamp
  now : jiff.Timestamp := audit_now

structure AgentCredentials where
  agent_id : String
  token : String
  expires_at : Option String

def register_audit (req : RegisterRequest) : AuditRecord :=
  { actor := "system", kind := "agent.registered", agent_id := some req.id
    payload := json [("name", .string req.name), ("environment", .string req.environment),
      ("token_ttl_secs", match req.token_ttl_secs with | some ttl => of_nat ttl | none => .null)] }

def agent_row (crates : Crates) (req : RegisterRequest) : AgentRow :=
  { id := req.id, name := req.name, environment := req.environment, token_hash := hash_token crates req.token,
    token_expires_at := token_expiry req.now req.token_ttl_secs }

def register_agent (crates : Crates) (req : RegisterRequest) : Tx AgentCredentials :=
  if req.name.isEmpty || req.environment.isEmpty then
    Prog.throw (.BadRequest "name and environment must be non-empty")
  else do
    let _ ← Prog.insert_into (.Conflict ("agent name " ++ req.name ++ " already taken")) Table.agents fun _ =>
      agent_row crates req
    record_audit_on crates req.audit_now.to_string (register_audit req)
    return { agent_id := req.id, token := req.token, expires_at := token_expiry req.now req.token_ttl_secs }

/-- The request of `rotate_agent_token`, the token it mints and the clock, at
its start and at its audit row. -/
structure RotateRequest where
  agent_id : String
  token : String
  token_ttl_secs : Option Nat
  now : jiff.Timestamp
  audit_now : jiff.Timestamp

def rotate_audit (req : RotateRequest) : AuditRecord :=
  { actor := "agent:" ++ req.agent_id, kind := "agent.token_rotated", agent_id := some req.agent_id
    payload := json [("token_ttl_secs", match req.token_ttl_secs with | some ttl => of_nat ttl | none => .null),
      ("rotated_at", .string req.now.to_string)] }

def AgentRow.rotate (crates : Crates) (req : RotateRequest) (a : AgentRow) : AgentRow :=
  { a with token_hash := hash_token crates req.token, token_expires_at := token_expiry req.now req.token_ttl_secs }

/-- Overwrites the hash of the agent's token. The caller has authenticated the old token. -/
def rotate_agent_token (crates : Crates) (req : RotateRequest) : Tx AgentCredentials := do
  let res ← sql_update .agents (fun a => a.id == req.agent_id) (AgentRow.rotate crates req)
  if res.length = 0 then
    Prog.throw .NotFound
  else do
    record_audit_on crates req.audit_now.to_string (rotate_audit req)
    return { agent_id := req.agent_id, token := req.token, expires_at := token_expiry req.now req.token_ttl_secs }

/-- Whether a token that expires then is still valid; `parse` reads a timestamp. -/
def unexpired (parse : String → Option jiff.Timestamp) (now : jiff.Timestamp) (expires_at : Option String) : Bool :=
  expires_at.all fun text => (parse text).any fun expiry => decide (now.nanos < expiry.nanos)

/-- The agent, when it has this token and the token has not expired. -/
def authenticate (crates : Crates) (parse : String → Option jiff.Timestamp) (now : jiff.Timestamp)
    (agent_id token : String) : Tx AgentRow := do
  let row ← sql_select fun db => (db .agents).find? fun a => a.id == agent_id
  match row with
  | none => Prog.throw .Unauthorized
  | some row =>
    if hash_token crates token ≠ row.token_hash then Prog.throw .Unauthorized
    else if unexpired parse now row.token_expires_at then return row
    else Prog.throw .Unauthorized

/-- Registers the SSH target under the ULID `id`, unless it already is. -/
def upsert_ssh_target (id name environment : String) : Tx String := do
  let existing ← sql_select fun db => ((db .agents).find? fun a =>
    a.name == name && a.environment == environment && a.kind == "ssh").map AgentRow.id
  match existing with
  | some existing => return existing
  | none => do
    let _ ← sql_insert .agents fun _ => { id, name, environment, kind := "ssh" }
    return id

theorem register_agent_frame {crates : Crates} {req : RegisterRequest} {db after : Store}
    {creds : AgentCredentials} (h : (register_agent crates req).run db = (.ok creds, after)) :
    SameOutside [.agents, .audit_events, .audit_chain_tip] db.rows after.rows := by
  rw [register_agent] at h
  split at h
  · simp at h
  · obtain ⟨row, mid, hinsert, h⟩ := run_bind_eq_ok_iff.mp h
    rw [run_insert_into] at hinsert
    split at hinsert
    · cases hinsert
    · obtain ⟨-, rfl⟩ := Prod.mk.inj hinsert
      obtain ⟨prev_hash, id, audited, haudit, -, hframe⟩ :=
        record_audit_on_spec crates req.audit_now.to_string (register_audit req)
          ((db.next_id .agents).set_rows .agents (db.rows .agents ++ [agent_row crates req]))
      rw [run_bind_ok haudit] at h
      obtain ⟨-, rfl⟩ := Prod.mk.inj h
      exact ((SameOutside.set_rows _ _ _).mono (by simp)).trans (hframe.mono (by simp))

theorem upsert_ssh_target_frame {id name environment out : String} {db after : Store}
    (h : (upsert_ssh_target id name environment).run db = (.ok out, after)) : SameOutside [.agents] db.rows after.rows := by
  rw [upsert_ssh_target, run_bind_ok (run_query _ _)] at h
  split at h
  · obtain ⟨-, rfl⟩ := Prod.mk.inj h
    exact SameOutside.refl _ _
  · obtain ⟨row, mid, hinsert, h⟩ := run_bind_eq_ok_iff.mp h
    rw [run_insert_into] at hinsert
    split at hinsert
    · cases hinsert
    · obtain ⟨-, rfl⟩ := Prod.mk.inj hinsert
      obtain ⟨-, rfl⟩ := Prod.mk.inj h
      exact SameOutside.set_rows _ _ _

end iac_controlplane.store
