import Iac.Controlplane.Store.Advance
import Iac.Controlplane.Store.Audit
import Iac.Core.Protocol

open iac_core.protocol serde_json sql

namespace iac_controlplane.store

/-- A result report: the arguments of `complete_assignment_with_extra_audit`
and the clock at its UPDATE and at its audit rows. -/
structure Report where
  agent_id : String
  assignment_id : String
  result : AssignmentResultRequest
  extra_audit : Option AuditRecord := none
  now : jiff.Timestamp
  audit_now : jiff.Timestamp

def result_status : AssignmentResultStatus → AssignmentStatus
  | .Succeeded => .succeeded
  | .PartiallyApplied => .partially_applied
  | .Failed => .failed

def result_severity : AssignmentResultStatus → String
  | .Failed => "warning"
  | .PartiallyApplied => "warning"
  | .Succeeded => "info"

/-- The assignment belongs to the agent and is in a fetchable state. -/
def accepts_result (rep : Report) (a : AssignmentRow) : Bool :=
  a.id == rep.assignment_id && a.agent_id == rep.agent_id && dispatchable a.status

def AssignmentRow.complete (crates : Crates) (rep : Report) (a : AssignmentRow) : AssignmentRow :=
  { a with
    status := result_status rep.result.status
    completed_at := some rep.now.to_string
    result_json := some (crates.to_string rep.result.to_value) }

def completion_audit (rep : Report) (op_id : String) : AuditRecord :=
  { actor := "agent:" ++ rep.agent_id, kind := "assignment.completed"
    severity := result_severity rep.result.status, operation_id := some op_id, agent_id := some rep.agent_id
    payload := json [("assignment_id", .string rep.assignment_id),
      ("status", .string rep.result.status.name), ("item_count", of_nat rep.result.items.length),
      ("summary", of_option rep.result.summary)] }

def record_extra (crates : Crates) (now : String) : Option AuditRecord → Tx Unit
  | none => pure ()
  | some extra => record_audit_on crates now extra

/-- Everything after the check of the assignment. -/
def record_result (crates : Crates) (rep : Report) (op_id : String) : Tx Unit := do
  let _ ← sql_update .assignments (fun a => a.id == rep.assignment_id) (AssignmentRow.complete crates rep)
  advance_phased_apply op_id rep.now.to_string
  roll_up_operation op_id rep.now.to_string
  record_audit_on crates rep.audit_now.to_string (completion_audit rep op_id)
  record_extra crates rep.audit_now.to_string rep.extra_audit

def complete_assignment_with_extra_audit (crates : Crates) (rep : Report) : Tx Unit := do
  let op_id ← sql_select fun db => ((db .assignments).find? (accepts_result rep)).map AssignmentRow.operation_id
  match op_id with
  | none => Prog.throw .NotFound
  | some op_id => record_result crates rep op_id

/-- The assignment rows after an accepted report about an assignment of `op_id`. -/
def reported (crates : Crates) (rep : Report) (op_id : String) (rows : List AssignmentRow) : List AssignmentRow :=
  layers_advanced op_id rep.now.to_string (canary_advanced op_id rep.now.to_string
    (rows.map (updated (fun a => a.id == rep.assignment_id) (AssignmentRow.complete crates rep))))

/-- An accepted report rewrites the assignments and the operation, and appends
its completion audit row, then the one its caller supplied. -/
theorem record_result_spec (crates : Crates) (rep : Report) (op_id : String) (db : Store) :
    ∃ after prev_hash id extra, (record_result crates rep op_id).run db = (.ok (), after) ∧
      after.rows .assignments = reported crates rep op_id (db.rows .assignments) ∧
      after.rows .operations =
        rolled_up op_id rep.now.to_string (after.rows .assignments) (db.rows .operations) ∧
      after.rows .audit_events = db.rows .audit_events ++
        audit_row crates rep.audit_now.to_string prev_hash (completion_audit rep op_id) id :: extra ∧
      (rep.extra_audit = none → extra = []) ∧
      SameOutside [.assignments, .operations, .audit_events, .audit_chain_tip] db.rows after.rows := by
  let rows := db.rows .assignments
  let advanced := (db.set_rows .assignments (reported crates rep op_id rows)).set_rows .operations
    (rolled_up op_id rep.now.to_string (reported crates rep op_id rows) (db.rows .operations))
  have hassignments : advanced.rows .assignments = reported crates rep op_id rows := by simp [advanced]
  have hoperations : advanced.rows .operations =
      rolled_up op_id rep.now.to_string (reported crates rep op_id rows) (db.rows .operations) := by simp [advanced]
  have hsame : SameOutside [.assignments, .operations] db.rows advanced.rows :=
    ((SameOutside.set_rows _ _ _).mono (by simp)).trans ((SameOutside.set_rows _ _ _).mono (by simp))
  have hgates : (record_result crates rep op_id).run db = (do
      record_audit_on crates rep.audit_now.to_string (completion_audit rep op_id)
      record_extra crates rep.audit_now.to_string rep.extra_audit : Tx Unit).run advanced := by
    rw [record_result, run_bind_ok (run_update_where _ _ _ _), run_bind_ok (run_advance_phased_apply _ _ _),
      run_bind_ok (run_roll_up_operation _ _ _), Db.set_rows_set_rows]
    simp [advanced, reported, rows]
  obtain ⟨prev_hash, id, audited, haudit, hevents, hframe⟩ :=
    record_audit_on_spec crates rep.audit_now.to_string (completion_audit rep op_id) advanced
  rw [hgates, run_bind_ok haudit]
  have hbefore : advanced.rows .audit_events = db.rows .audit_events := hsame _ (by decide)
  cases hextra : rep.extra_audit with
  | none =>
    refine ⟨audited, prev_hash, id, [], rfl, (hframe _ (by decide)).trans hassignments, ?_, ?_, fun _ => rfl, ?_⟩
    · rw [hframe _ (by decide), hframe _ (by decide), hoperations, hassignments]
    · rw [hevents, hbefore]
    · exact (hsame.mono (by simp)).trans (hframe.mono (by simp))
  | some record =>
    obtain ⟨prev_hash', id', after, hrun, hevents', hframe'⟩ :=
      record_audit_on_spec crates rep.audit_now.to_string record audited
    have hboth := hframe.trans hframe'
    refine ⟨after, prev_hash, id, [audit_row crates rep.audit_now.to_string prev_hash' record id'], hrun,
      (hboth _ (by decide)).trans hassignments, ?_, ?_, by simp, ?_⟩
    · rw [hboth _ (by decide), hboth _ (by decide), hoperations, hassignments]
    · rw [hevents', hevents, hbefore, List.append_assoc, List.singleton_append]
    · exact (hsame.mono (by simp)).trans (hboth.mono (by simp))

/-- A report is refused with no effect, or names an assignment that accepts it
and is recorded for the operation of that assignment. -/
theorem complete_assignment_cases (crates : Crates) (rep : Report) (db : Store) :
    ((complete_assignment_with_extra_audit crates rep).run db = (.error .NotFound, db) ∧
        ∀ a ∈ db.rows .assignments, accepts_result rep a = false) ∨
      ∃ a ∈ db.rows .assignments, accepts_result rep a = true ∧
        (complete_assignment_with_extra_audit crates rep).run db =
          (record_result crates rep a.operation_id).run db := by
  rw [complete_assignment_with_extra_audit, run_bind_ok (run_query _ _)]
  cases hfound : (db.rows .assignments).find? (accepts_result rep) with
  | none =>
    refine .inl ⟨by simp, fun a ha => ?_⟩
    simpa using List.find?_eq_none.mp hfound a ha
  | some a =>
    exact .inr ⟨a, List.mem_of_find?_eq_some hfound, List.find?_some hfound, by simp⟩

end iac_controlplane.store
