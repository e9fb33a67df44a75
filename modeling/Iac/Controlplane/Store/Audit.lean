import Iac.Controlplane.Store.Schema
import Iac.Core.Timestamp
import Iac.Sql.Leaves
import Iac.Sql.Program
import Mathlib.Algebra.Group.Int.Defs

open sql

namespace iac_controlplane.store

structure AuditRecord where
  actor : String
  kind : String
  severity : String := "info"
  operation_id : Option String := none
  agent_id : Option String := none
  resource_id : Option String := none
  drift_id : Option Int := none
  payload : serde_json.Value := .null

structure AuditRowInputs where
  timestamp : String
  actor : String
  kind : String
  severity : String
  operation_id : Option String
  agent_id : Option String
  resource_id : Option String
  drift_id : Option Int
  payload_json : String

/-- The eight big-endian bytes of a 64-bit integer. -/
def be_bytes (n : Int) : List UInt8 :=
  [56, 48, 40, 32, 24, 16, 8, 0].map fun shift => UInt8.ofNat ((n % 2 ^ 64).toNat / 2 ^ shift % 256)

def write_field (s : String) : List UInt8 :=
  be_bytes s.utf8ByteSize ++ s.toUTF8.data.toList

def write_optional_str : Option String → List UInt8
  | some s => 1 :: write_field s
  | none => [0]

def write_optional_int : Option Int → List UInt8
  | some n => 1 :: be_bytes n
  | none => [0]

def compute_audit_row_hash (crates : Crates) (prev_hash : String) (id : Int) (r : AuditRowInputs) : String :=
  crates.sha256_hex (prev_hash.toUTF8.data.toList ++ be_bytes id ++ write_field r.timestamp ++
    write_field r.actor ++ write_field r.kind ++ write_field r.severity ++
    write_optional_str r.operation_id ++ write_optional_str r.agent_id ++
    write_optional_str r.resource_id ++ write_optional_int r.drift_id ++ write_field r.payload_json)

/-- The columns of the audit row for `rec` that follow the row hashed as `prev_hash`. -/
def audit_row (crates : Crates) (now prev_hash : String) (rec : AuditRecord) (id : Nat) : AuditEventRow :=
  let payload_json := crates.to_string rec.payload
  let inputs : AuditRowInputs :=
    { timestamp := now, actor := rec.actor, kind := rec.kind, severity := rec.severity,
      operation_id := rec.operation_id, agent_id := rec.agent_id, resource_id := rec.resource_id,
      drift_id := rec.drift_id, payload_json }
  { id, timestamp := now, actor := rec.actor, kind := rec.kind, severity := rec.severity,
    operation_id := rec.operation_id, agent_id := rec.agent_id, resource_id := rec.resource_id,
    drift_id := rec.drift_id, payload_json, prev_hash := some prev_hash,
    row_hash := some (compute_audit_row_hash crates prev_hash 0 inputs) }

/-- The tip row is read with `FOR UPDATE` on Postgres; SQLite has a single
writer, for which the lock makes no difference. -/
def record_audit_on (crates : Crates) (now : String) (rec : AuditRecord) : Tx Unit := do
  let tip_row ← sql_update .audit_chain_tip (fun tip => tip.id == 1) id
  let prev_hash := (tip_row.head?.map AuditChainTip.last_hash).getD ""
  let inserted ← sql_insert .audit_events (audit_row crates now prev_hash rec)
  let _ ← sql_update .audit_chain_tip (fun tip => tip.id == 1) fun tip =>
    { tip with last_id := inserted.id, last_hash := inserted.row_hash.getD "", updated_at := now }
  return ()

/-- Every table outside `changed` holds the same rows before and after. -/
def SameOutside (changed : List Table) (before after : sql.Rows Row) : Prop :=
  ∀ t, t ∉ changed → after t = before t

theorem SameOutside.refl (changed : List Table) (rows : sql.Rows Row) : SameOutside changed rows rows :=
  fun _ _ => rfl

theorem SameOutside.trans {changed : List Table} {a b c : sql.Rows Row} (hab : SameOutside changed a b)
    (hbc : SameOutside changed b c) : SameOutside changed a c :=
  fun t ht => (hbc t ht).trans (hab t ht)

theorem SameOutside.mono {small large : List Table} {a b : sql.Rows Row} (h : SameOutside small a b)
    (hsub : small ⊆ large) : SameOutside large a b :=
  fun t ht => h t fun hmem => ht (hsub hmem)

theorem SameOutside.update (rows : sql.Rows Row) (t : Table) (new : List (Row t)) :
    SameOutside [t] rows (Function.update rows t new) := by
  intro u hu
  exact Function.update_of_ne (by simpa using hu) _ _

theorem SameOutside.set_rows (db : Store) (t : Table) (rows : List (Row t)) :
    SameOutside [t] db.rows (db.set_rows t rows).rows :=
  SameOutside.update db.rows t rows

private theorem run_insert_audit_event (values : Nat → AuditEventRow) (db : Store) :
    (sql_insert .audit_events values).run db =
      (.ok (values (db.seq .audit_events)), (db.next_id .audit_events).set_rows .audit_events
        (db.rows .audit_events ++ [values (db.seq .audit_events)])) := by
  rw [run_insert_into, if_neg]
  simp [clash]

/-- Recording an audit event always succeeds, appends one row built from the
record and touches no table but the two of the audit chain. -/
theorem record_audit_on_spec (crates : Crates) (now : String) (rec : AuditRecord) (db : Store) :
    ∃ prev_hash id after, (record_audit_on crates now rec).run db = (.ok (), after) ∧
      after.rows .audit_events = db.rows .audit_events ++ [audit_row crates now prev_hash rec id] ∧
      SameOutside [.audit_events, .audit_chain_tip] db.rows after.rows := by
  let tip := (db.rows .audit_chain_tip).filter fun tip => tip.id == 1
  rw [record_audit_on, run_bind_ok (run_update_where _ _ _ _), run_bind_ok (run_insert_audit_event _ _),
    run_bind_ok (run_update_where _ _ _ _)]
  refine ⟨((tip.map id).head?.map AuditChainTip.last_hash).getD "", db.seq .audit_events, _, run_pure _ _, ?_, ?_⟩
  · simp [tip]
  · intro t ht
    simp only [List.mem_cons, List.not_mem_nil, or_false, not_or] at ht
    simp [ht.1, ht.2]

theorem leaves_record_audit_on (crates : Crates) (now : String) (rec : AuditRecord) {t₀ : Table}
    (htip : .audit_chain_tip ≠ t₀) (hevents : .audit_events ≠ t₀) : (record_audit_on crates now rec).leaves t₀ :=
  leaves_bind (leaves_update_where htip _ _) fun _ => leaves_bind (leaves_insert_into hevents _ _) fun _ =>
    leaves_bind (leaves_update_where htip _ _) fun _ => leaves_pure _

theorem wp_record_audit_on (crates : Crates) (now : String) (rec : AuditRecord) (rows : sql.Rows Row) :
    (record_audit_on crates now rec).wp rows fun _ after =>
      (∃ prev_hash id, after .audit_events = rows .audit_events ++ [audit_row crates now prev_hash rec id]) ∧
      SameOutside [.audit_events, .audit_chain_tip] rows after := by
  let tip := (rows .audit_chain_tip).filter fun tip => tip.id == 1
  rw [record_audit_on, wp_bind, wp_update_where, wp_bind, wp_insert_into]
  intro event_id _
  rw [wp_bind, wp_update_where, wp_pure]
  refine ⟨⟨((tip.map id).head?.map AuditChainTip.last_hash).getD "", event_id, ?_⟩, fun t ht => ?_⟩
  · simp [tip]
  · simp only [List.mem_cons, List.not_mem_nil, or_false, not_or] at ht
    simp [ht.1, ht.2]

end iac_controlplane.store
