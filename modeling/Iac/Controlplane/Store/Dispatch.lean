import Iac.Controlplane.Store.Audit
import Iac.Controlplane.Store.Schema
import Iac.Core.Protocol
import Iac.Core.Timestamp
import Iac.Sql.Query
import Mathlib.Data.List.Sort
import Mathlib.Data.String.Basic

open iac_core.protocol sql

namespace iac_controlplane.store

/-- jiff panics when the cutoff is out of its range; the transaction is dropped. -/
def cutoff_panic : ApiError := .Internal "panic in Timestamp arithmetic"

/-- `status = 'pending' OR (status = 'fetched' AND fetched_at IS NOT NULL AND fetched_at < ?)`,
with the text comparison of the database. -/
def claimable (lease_cutoff : String) (a : AssignmentRow) : Bool :=
  a.status == .pending ||
    (a.status == .fetched && a.fetched_at.any fun fetched_at => decide (fetched_at < lease_cutoff))

def AssignmentRow.fetch (now : String) (a : AssignmentRow) : AssignmentRow :=
  { a with status := .fetched, fetched_at := some now }

def OperationRow.start (now : String) (op : OperationRow) : OperationRow :=
  { op with status := .running, started_at := some (op.started_at.getD now) }

/-- Marks the operation running on its first fetch. -/
def start_operation (op_id now : String) : Tx Unit := do
  let _ ← sql_update .operations (fun op => op.id == op_id && op.status == .pending) (OperationRow.start now)
  return ()

def envelope (a : AssignmentRow) (payload : AssignmentPayload) : AssignmentEnvelope :=
  { assignment_id := a.id, operation_id := a.operation_id, kind := a.kind, created_at := a.created_at,
    expires_at := a.expires_at, payload, key_id := "", signature := "" }

/-- The loop over the rows just marked, with the operations seen so far. -/
def dispatch_rows (crates : Crates) (now : String) :
    List AssignmentRow → List String → List AssignmentEnvelope → Tx (List AssignmentEnvelope)
  | [], _, out => pure out
  | row :: rows, op_ids_seen, out => do
    let value ← Prog.ofExcept (json_error (crates.from_str row.payload_json))
    let payload ← Prog.ofExcept (json_error (AssignmentPayload.of_value value))
    if row.operation_id ∈ op_ids_seen then
      dispatch_rows crates now rows op_ids_seen (out ++ [envelope row payload])
    else do
      start_operation row.operation_id now
      dispatch_rows crates now rows (row.operation_id :: op_ids_seen) (out ++ [envelope row payload])

/-- Marks what the agent may execute now as fetched and hands it out. `lease`
is `assignment_lease_secs()`. -/
def fetch_pending_assignments (crates : Crates) (lease : Int) (now_ts : jiff.Timestamp) (agent_id : String) :
    Tx (List AssignmentEnvelope) :=
  match now_ts.minus_seconds lease with
  | none => Prog.throw cutoff_panic
  | some cutoff => do
    let now := now_ts.to_string
    let rows ← sql_update .assignments (fun a => a.agent_id == agent_id && claimable cutoff.to_string a)
      (AssignmentRow.fetch now)
    let out ← dispatch_rows crates now rows [] []
    return out.insertionSort fun a b => a.created_at ≤ b.created_at

/-- `SELECT id … ORDER BY created_at LIMIT 1`. -/
def claim_candidate (scan : Scan AssignmentRow) (lease_cutoff : String) (target_ids : List String)
    (rows : List AssignmentRow) : Option String :=
  let ready := rows.filter fun a => target_ids.contains a.agent_id && claimable lease_cutoff a
  (((scan.order ready).insertionSort fun a b => a.created_at ≤ b.created_at).head?).map AssignmentRow.id

/-- The sub-select of the UPDATE is a read of its own: its value stays as it
was computed while the UPDATE waits for the row it names. -/
def claim_ssh_pending (lease : Int) (now_ts : jiff.Timestamp) (scan : Scan AssignmentRow)
    (target_ids : List String) : Tx (Option (String × String × String)) :=
  if target_ids.isEmpty then
    pure none
  else
    match now_ts.minus_seconds lease with
    | none => Prog.throw cutoff_panic
    | some cutoff => do
      let now := now_ts.to_string
      let candidate ← sql_select fun db => claim_candidate scan cutoff.to_string target_ids (db .assignments)
      let rows ← sql_update .assignments (fun a => some a.id == candidate) (AssignmentRow.fetch now)
      match rows.head? with
      | none => return none
      | some row => do
        start_operation row.operation_id now
        return some (row.id, row.agent_id, row.payload_json)

def AssignmentRow.unclaim (a : AssignmentRow) : AssignmentRow :=
  { a with status := .pending, fetched_at := none }

def revert_assignment_claims : List String → Tx Unit
  | [] => pure ()
  | id :: assignment_ids => do
    let _ ← sql_update .assignments (fun a => a.id == id && a.status == .fetched) AssignmentRow.unclaim
    revert_assignment_claims assignment_ids

/-- Some operations that were pending have been started, and nothing else. -/
def Started (now : String) (before after : List OperationRow) : Prop :=
  ∃ chosen : OperationRow → Bool,
    after = before.map (updated (fun op => chosen op && op.status == .pending) (OperationRow.start now))

theorem Started.refl (now : String) (operations : List OperationRow) : Started now operations operations :=
  ⟨fun _ => false, (map_updated_eq_self fun _ _ => rfl).symm⟩

theorem Started.trans {now : String} {a b c : List OperationRow} (hab : Started now a b) (hbc : Started now b c) :
    Started now a c := by
  obtain ⟨first, rfl⟩ := hab
  obtain ⟨second, rfl⟩ := hbc
  refine ⟨fun op => first op || second op, ?_⟩
  rw [List.map_map]
  refine List.map_congr_left fun op _ => ?_
  by_cases hpending : op.status = .pending
  · by_cases hfirst : first op
    · simp [updated, hpending, hfirst, OperationRow.start]
    · simp [updated, hpending, hfirst]
  · simp [updated, hpending]

theorem run_start_operation (op_id now : String) (db : Store) :
    ∃ after, (start_operation op_id now).run db = (.ok (), after) ∧
      Started now (db.rows .operations) (after.rows .operations) ∧ SameOutside [.operations] db.rows after.rows := by
  rw [start_operation, run_bind_ok (run_update_where _ _ _ _)]
  exact ⟨_, run_pure _ _, ⟨fun op => op.id == op_id, by simp⟩, SameOutside.set_rows _ _ _⟩

private theorem run_dispatch_rows {crates : Crates} {now : String} {rows : List AssignmentRow} {seen : List String}
    {out out' : List AssignmentEnvelope} {db after : Store}
    (h : (dispatch_rows crates now rows seen out).run db = (.ok out', after)) :
    out'.map AssignmentEnvelope.assignment_id =
        out.map AssignmentEnvelope.assignment_id ++ rows.map AssignmentRow.id ∧
      Started now (db.rows .operations) (after.rows .operations) ∧ SameOutside [.operations] db.rows after.rows := by
  induction rows generalizing seen out db with
  | nil =>
    obtain ⟨hout, rfl⟩ := Prod.mk.inj h
    obtain rfl := Except.ok.inj hout
    exact ⟨by simp, Started.refl _ _, SameOutside.refl _ _⟩
  | cons row rows ih =>
    rw [dispatch_rows] at h
    obtain ⟨value, db₁, hvalue, h⟩ := run_bind_eq_ok_iff.mp h
    obtain ⟨-, rfl⟩ := Prod.mk.inj hvalue
    obtain ⟨payload, db₂, hpayload, h⟩ := run_bind_eq_ok_iff.mp h
    obtain ⟨-, rfl⟩ := Prod.mk.inj hpayload
    split at h
    · obtain ⟨hids, hstarted, hsame⟩ := ih h
      exact ⟨by simpa [envelope] using hids, hstarted, hsame⟩
    · obtain ⟨mid, hrun, hstart, hframe⟩ := run_start_operation row.operation_id now db
      rw [run_bind_ok hrun] at h
      obtain ⟨hids, hstarted, hsame⟩ := ih h
      exact ⟨by simpa [envelope] using hids, hstart.trans hstarted, hframe.trans hsame⟩

private theorem mem_dispatch_rows {crates : Crates} {now : String} {rows : List AssignmentRow} {seen : List String}
    {out out' : List AssignmentEnvelope} {db after : Store}
    (h : (dispatch_rows crates now rows seen out).run db = (.ok out', after)) {env : AssignmentEnvelope} (henv : env ∈ out') :
    env ∈ out ∨ ∃ row ∈ rows, ∃ payload, (crates.from_str row.payload_json >>= AssignmentPayload.of_value) = .ok payload ∧
      env = envelope row payload := by
  induction rows generalizing seen out db with
  | nil =>
    obtain ⟨hout, -⟩ := Prod.mk.inj h
    exact .inl ((Except.ok.inj hout).symm ▸ henv)
  | cons row rows ih =>
    rw [dispatch_rows] at h
    obtain ⟨value, hvalue, h⟩ := run_ofExcept_bind_eq_ok_iff.mp h
    obtain ⟨payload, hpayload, h⟩ := run_ofExcept_bind_eq_ok_iff.mp h
    have hread : (crates.from_str row.payload_json >>= AssignmentPayload.of_value) = .ok payload := by
      rw [json_error_ok_iff.mp hvalue]
      exact json_error_ok_iff.mp hpayload
    have hstep {seen : List String} {mid : Store} (hrest : (dispatch_rows crates now rows seen (out ++
        [envelope row payload])).run mid = (.ok out', after)) : env ∈ out ∨ ∃ row' ∈ row :: rows, ∃ payload,
          (crates.from_str row'.payload_json >>= AssignmentPayload.of_value) = .ok payload ∧ env = envelope row' payload := by
      obtain hhere | ⟨row', hrow', hfound⟩ := ih hrest
      · obtain hold | hnew := List.mem_append.mp hhere
        · exact .inl hold
        · exact .inr ⟨row, List.mem_cons_self, payload, hread, List.mem_singleton.mp hnew⟩
      · exact .inr ⟨row', List.mem_cons_of_mem _ hrow', hfound⟩
    split at h
    · exact hstep h
    · obtain ⟨mid, hrun, -, -⟩ := run_start_operation row.operation_id now db
      rw [run_bind_ok hrun] at h
      exact hstep h

/-- What is handed out are assignments of the agent, with the payloads that are stored. -/
theorem mem_fetched {crates : Crates} {lease : Int} {now : jiff.Timestamp} {agent_id : String}
    {out : List AssignmentEnvelope} {db after : Store}
    (h : (fetch_pending_assignments crates lease now agent_id).run db = (.ok out, after)) {env : AssignmentEnvelope}
    (henv : env ∈ out) : ∃ a ∈ db.rows .assignments, a.agent_id = agent_id ∧ ∃ payload,
      (crates.from_str a.payload_json >>= AssignmentPayload.of_value) = .ok payload ∧ env = envelope a payload := by
  rw [fetch_pending_assignments] at h
  cases hcutoff : now.minus_seconds lease with
  | none => simp [hcutoff] at h
  | some cutoff =>
    simp only [hcutoff] at h
    rw [run_bind_ok (run_update_where _ _ _ _)] at h
    obtain ⟨envelopes, mid, hrows, h⟩ := run_bind_eq_ok_iff.mp h
    obtain ⟨hout, -⟩ := Prod.mk.inj h
    obtain rfl := Except.ok.inj hout
    obtain hnone | ⟨row, hrow, payload, hread, rfl⟩ := mem_dispatch_rows hrows ((List.mem_insertionSort _).mp henv)
    · cases hnone
    · obtain ⟨a, ha, rfl⟩ := List.mem_map.mp hrow
      obtain ⟨hmem, hclaimed⟩ := List.mem_filter.mp ha
      exact ⟨a, hmem, by simpa using (Bool.and_eq_true_iff.mp hclaimed).1, payload, hread, rfl⟩

/-- A successful fetch marks the agent's claimable rows, hands out exactly
these and starts operations. -/
theorem fetch_pending_assignments_spec {crates : Crates} {lease : Int} {now : jiff.Timestamp} {agent_id : String}
    {out : List AssignmentEnvelope} {db after : Store}
    (h : (fetch_pending_assignments crates lease now agent_id).run db = (.ok out, after)) :
    ∃ cutoff, now.minus_seconds lease = some cutoff ∧
      after.rows .assignments = (db.rows .assignments).map
        (updated (fun a => a.agent_id == agent_id && claimable cutoff.to_string a) (AssignmentRow.fetch now.to_string)) ∧
      (out.map AssignmentEnvelope.assignment_id).Perm (((db.rows .assignments).filter fun a =>
        a.agent_id == agent_id && claimable cutoff.to_string a).map AssignmentRow.id) ∧
      Started now.to_string (db.rows .operations) (after.rows .operations) ∧
      SameOutside [.assignments, .operations] db.rows after.rows := by
  rw [fetch_pending_assignments] at h
  cases hcutoff : now.minus_seconds lease with
  | none => simp [hcutoff] at h
  | some cutoff =>
    simp only [hcutoff] at h
    rw [run_bind_ok (run_update_where _ _ _ _)] at h
    obtain ⟨envelopes, mid, hrows, h⟩ := run_bind_eq_ok_iff.mp h
    obtain ⟨hout, rfl⟩ := Prod.mk.inj h
    obtain rfl := Except.ok.inj hout
    obtain ⟨hids, hstarted, hsame⟩ := run_dispatch_rows hrows
    refine ⟨cutoff, rfl, ?_, ?_, ?_, ?_⟩
    · rw [hsame _ (by decide), Db.set_rows_self]
    · refine ((List.perm_insertionSort _ _).map _).trans (List.Perm.of_eq ?_)
      rw [hids, List.map_nil, List.nil_append, List.map_map]
      rfl
    · simpa using hstarted
    · exact ((SameOutside.set_rows _ _ _).mono (by simp)).trans (hsame.mono (by simp))

theorem claim_candidate_spec {scan : Scan AssignmentRow} {cutoff : String} {target_ids : List String}
    {rows : List AssignmentRow} {id : String} (h : claim_candidate scan cutoff target_ids rows = some id) :
    ∃ a ∈ rows, a.id = id ∧ a.agent_id ∈ target_ids ∧ claimable cutoff a = true := by
  obtain ⟨a, ha, rfl⟩ := Option.map_eq_some_iff.mp h
  have hsorted := List.mem_of_mem_head? ha
  have hready := (scan.perm _).mem_iff.mp ((List.mem_insertionSort _).mp hsorted)
  simp only [List.mem_filter, Bool.and_eq_true, List.contains_iff_mem] at hready
  exact ⟨a, hready.1, rfl, hready.2.1, hready.2.2⟩

/-- A successful claim finds nothing and changes nothing, or marks one
claimable assignment of a target host and hands it out. -/
theorem claim_ssh_pending_spec {lease : Int} {now : jiff.Timestamp} {scan : Scan AssignmentRow}
    {target_ids : List String} {result : Option (String × String × String)} {db after : Store}
    (hids : ((db.rows .assignments).map AssignmentRow.id).Nodup)
    (h : (claim_ssh_pending lease now scan target_ids).run db = (.ok result, after)) :
    (result = none ∧ after.rows = db.rows) ∨
      ∃ cutoff, now.minus_seconds lease = some cutoff ∧ ∃ a ∈ db.rows .assignments,
        a.agent_id ∈ target_ids ∧ claimable cutoff.to_string a = true ∧
        result = some (a.id, a.agent_id, a.payload_json) ∧
        after.rows .assignments = (db.rows .assignments).map
          (updated (fun b => b.id == a.id) (AssignmentRow.fetch now.to_string)) ∧
        Started now.to_string (db.rows .operations) (after.rows .operations) ∧
        SameOutside [.assignments, .operations] db.rows after.rows := by
  rw [claim_ssh_pending] at h
  split at h
  · obtain ⟨hresult, rfl⟩ := Prod.mk.inj h
    exact .inl ⟨(Except.ok.inj hresult).symm, rfl⟩
  · cases hcutoff : now.minus_seconds lease with
    | none => simp [hcutoff] at h
    | some cutoff =>
      simp only [hcutoff] at h
      rw [run_bind_ok (run_query _ _)] at h
      cases hcandidate : claim_candidate scan cutoff.to_string target_ids (db.rows .assignments) with
      | none =>
        rw [hcandidate, run_bind_ok (run_update_where _ _ _ _)] at h
        have hnone : (db.rows .assignments).filter (fun a => some a.id == none) = [] := by simp
        rw [hnone] at h
        obtain ⟨hresult, rfl⟩ := Prod.mk.inj h
        refine .inl ⟨(Except.ok.inj hresult).symm, ?_⟩
        rw [map_updated_eq_self (by simp), Db.set_rows_rows]
      | some id =>
        obtain ⟨a, ha, rfl, htarget, hclaimable⟩ := claim_candidate_spec hcandidate
        rw [hcandidate, run_bind_ok (run_update_where _ _ _ _)] at h
        have hone : (db.rows .assignments).filter (fun b => some b.id == some a.id) = [a] := by
          simpa using filter_key_eq_singleton hids ha
        rw [hone] at h
        simp only [List.map_cons, List.head?_cons] at h
        obtain ⟨mid, hrun, hstart, hframe⟩ := run_start_operation (AssignmentRow.fetch now.to_string a).operation_id
          now.to_string (db.set_rows .assignments ((db.rows .assignments).map
            (updated (fun b => some b.id == some a.id) (AssignmentRow.fetch now.to_string))))
        rw [run_bind_ok hrun] at h
        obtain ⟨hresult, rfl⟩ := Prod.mk.inj h
        refine .inr ⟨cutoff, rfl, a, ha, htarget, hclaimable, (Except.ok.inj hresult).symm, ?_, ?_, ?_⟩
        · rw [hframe _ (by decide), Db.set_rows_self]
          rfl
        · simpa using hstart
        · exact ((SameOutside.set_rows _ _ _).mono (by simp)).trans (hframe.mono (by simp))

theorem run_revert_assignment_claims (ids : List String) (db : Store) :
    (revert_assignment_claims ids).run db =
      (.ok (), db.set_rows .assignments ((db.rows .assignments).map
        (updated (fun a => ids.contains a.id && a.status == .fetched) AssignmentRow.unclaim))) := by
  induction ids generalizing db with
  | nil =>
    rw [map_updated_eq_self (by simp), Db.set_rows_rows, revert_assignment_claims, run_pure]
  | cons id ids ih =>
    rw [revert_assignment_claims, run_bind_ok (run_update_where _ _ _ _), ih, Db.set_rows_self, List.map_map,
      Db.set_rows_set_rows]
    refine congrArg (fun rows => (_, Db.set_rows db .assignments rows)) (List.map_congr_left fun a _ => ?_)
    by_cases hid : a.id = id <;> by_cases hfetched : a.status = .fetched <;>
      simp [updated, hid, hfetched, AssignmentRow.unclaim]

end iac_controlplane.store
