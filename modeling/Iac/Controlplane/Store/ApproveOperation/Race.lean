import Iac.Controlplane.Store.Consistent
import Iac.Sql.ReadCommitted.Gate

open sql

namespace iac_controlplane.store

/-- A decision on an operation that awaits its approval. -/
inductive Decision where
  | approve (req : ApproveRequest)
  | reject (req : RejectRequest)

def Decision.op_id : Decision → String
  | .approve req => req.op_id
  | .reject req => req.op_id

/-- The transaction of a decision; an approval answers with its assignment count. -/
def Decision.tx (crates : Crates) : Decision → Tx (Option Nat)
  | .approve req => do
    let assignment_count ← approve_operation crates req
    return some assignment_count
  | .reject req => do
    reject_operation crates req
    return none

/-- What a decision that commits does to the tables. -/
def Decision.Effect (crates : Crates) (rows after : sql.Rows Row) : Decision → Prop
  | .approve req => ∃ count op routing_list layers created,
    ApproveEffect crates req rows count after op routing_list layers created
  | .reject req => RejectEffect crates req rows after

theorem wp_decision (crates : Crates) (decision : Decision) (rows : sql.Rows Row) :
    (decision.tx crates).wp rows fun _ after => decision.Effect crates rows after := by
  cases decision with
  | approve req =>
    rw [Decision.tx, wp_bind]
    exact wp_mono (fun count after heffect => ⟨count, heffect⟩) (wp_approve_operation crates req rows)
  | reject req =>
    rw [Decision.tx, wp_bind]
    exact wp_mono (fun _ _ heffect => heffect) (wp_reject_operation crates req rows)

section Gated

variable {t₀ : Table}

private theorem approve_closes (req : ApproveRequest) (count : Nat) (op : OperationRow) :
    awaits_approval req.op_id (OperationRow.approve req count op) = false := by
  by_cases hcount : count = 0 <;> simp [awaits_approval, OperationRow.approve, hcount]

private theorem reject_closes (req : RejectRequest) (op : OperationRow) :
    awaits_approval req.op_id (OperationRow.reject req op) = false := by
  simp [awaits_approval, OperationRow.reject]

/-- Both kinds of decision commit only through their conditional UPDATE. -/
theorem gated_decision (crates : Crates) (decision : Decision) :
    (decision.tx crates).gated .operations (awaits_approval decision.op_id) := by
  cases decision with
  | approve req =>
    refine gated_then (gated_bind (leaves_query _) fun row => ?_) fun _ => leaves_pure _
    cases row with
    | none => exact gated_throw _
    | some op =>
      simp only
      split
      · exact gated_throw _
      · refine gated_bind (leaves_query _) fun _ => gated_bind (leaves_query _) fun _ =>
          gated_bind (leaves_ofExcept _) fun _ =>
          gated_bind (leaves_insert_assignments _ _ _ (by decide) _ _) fun count => gated_update ?_ ?_ ?_
        · exact fun op hawaits => ⟨hawaits, approve_closes req count op⟩
        · intro out _
          split
          · exact leaves_throw _
          · exact leaves_bind (leaves_record_audit_on _ _ _ (by decide) (by decide)) fun _ => leaves_pure _
        · exact gated_throw _
  | reject req =>
    refine gated_then ?_ fun _ => leaves_pure _
    rw [reject_operation]
    split
    · exact gated_throw _
    · refine gated_update ?_ ?_ ?_
      · exact fun op hawaits => ⟨hawaits, reject_closes req op⟩
      · intro out _
        split
        · exact leaves_throw _
        · exact leaves_record_audit_on _ _ _ (by decide) (by decide)
      · exact gated_throw _

end Gated

/-- The agent and the layer of each assignment of an operation. -/
def targets_of (op_id : String) (rows : List AssignmentRow) : List (String × Int) :=
  (rows_of op_id rows).map fun a => (a.agent_id, a.layer)

/-- An approval gives each agent and layer that something is routed to one assignment. -/
theorem approve_targets {crates : Crates} {req : ApproveRequest} {db : Store} {count : Nat} {after : sql.Rows Row}
    {op : OperationRow} {routing_list : List ResourceForRouting} {layers : List Int} {created : List AssignmentRow}
    (h : ApproveEffect crates req db.rows count after op routing_list layers created)
    (hnone : ∀ a ∈ db.rows .assignments, a.operation_id ≠ req.op_id) :
    (targets_of req.op_id (after .assignments)).Nodup ∧ ∀ target,
      target ∈ targets_of req.op_id (after .assignments) ↔ ∃ r, (target, r) ∈ (Call.approve_operation req).routed crates db := by
  have hrouted : (Call.approve_operation req).routed crates db =
      routes op.environment (agent_entries db.rows) (routing_list.zip layers) := by
    simp [Call.routed, h.found, h.awaits, h.sorted, h.layered]
  rw [hrouted]
  have hdispatched := h.dispatched
  have hnew : NewAssignments req.op_id (routes op.environment (agent_entries db.rows) (routing_list.zip layers)) none
      created := new_assignments (routes_nonneg h.layered) hdispatched
  have hcreated := hnew.operation
  generalize routes op.environment (agent_entries db.rows) (routing_list.zip layers) = entries at hdispatched ⊢
  have hkeys : targets_of req.op_id (after .assignments) = (push_all [] entries).map fun bucket => ofLex bucket.1 := by
    have hold : (db.rows .assignments).filter (fun a => a.operation_id == req.op_id) = [] :=
      List.filter_eq_nil_iff.mpr fun a ha => by simpa using hnone a ha
    have hnew : created.filter (fun a => a.operation_id == req.op_id) = created :=
      List.filter_eq_self.mpr fun a ha => by simpa using hcreated a ha
    rw [targets_of, rows_of, h.assignments, List.filter_append, hold, hnew, List.nil_append]
    have hsame : List.Forall₂ (fun bucket (a : AssignmentRow) => ofLex bucket.1 = (a.agent_id, a.layer))
        (push_all [] entries) created := by
      refine hdispatched.imp ?_
      rintro bucket row ⟨id, resources, -, rfl⟩
      rfl
    rw [← List.forall₂_eq_eq_eq, List.forall₂_map_left_iff, List.forall₂_map_right_iff]
    exact hsame.flip.imp fun _ _ heq => heq.symm
  rw [hkeys]
  constructor
  · have hsorted := (push_all_well_formed WellFormed.nil entries).sorted
    refine List.Pairwise.map _ (fun a b hlt => ?_) hsorted
    exact fun heq => hlt.ne (ofLex.injective heq)
  · rintro ⟨agent_id, layer⟩
    rw [← dispatches_push_all, List.mem_map]
    constructor
    · rintro ⟨⟨key, items⟩, hmem, hkey⟩
      exact ⟨items, by rwa [← hkey]⟩
    · rintro ⟨items, hmem⟩
      exact ⟨_, hmem, rfl⟩

/-- The states of a race on the operation `op_id` of the store `db`. -/
structure RaceOutcome {ι : Type} (crates : Crates) (op_id : String) (db : Store) (decisions : ι → Decision)
    (w : World ι Row ApiError (Option Nat)) : Prop where
  one_commits : ∀ i j, w.succeeded i → w.succeeded j → i = j
  untouched : (∀ i, ¬ w.succeeded i) → w.committed = db.rows
  decided : ∀ i, w.succeeded i → (decisions i).Effect crates db.rows w.committed
  losers_fail : ∀ i result, w.sessions i = .finished result → ¬ w.succeeded i → ∃ e, result = .error e
  approved : ∀ a ∈ w.committed .assignments, a.operation_id = op_id →
    ∃ i req, w.succeeded i ∧ decisions i = .approve req
  assigned_once : ∀ i req, w.succeeded i → decisions i = .approve req →
    (targets_of op_id (w.committed .assignments)).Nodup ∧ ∀ target,
      target ∈ targets_of op_id (w.committed .assignments) ↔ ∃ r, (target, r) ∈ (Call.approve_operation req).routed crates db

/-- Of any approvals and rejections of one operation that awaits its approval
at most one commits, in every interleaving; the others leave nothing behind. -/
theorem approvals_and_rejections_race {ι : Type} [DecidableEq ι] (crates : Crates) {db : Store}
    (hreachable : Reachable crates any_call db) {op : OperationRow} (hop : op ∈ db.rows .operations)
    (hpending : op.status = .pending_approval) {decisions : ι → Decision} (hsame : ∀ i, (decisions i).op_id = op.id)
    {w : World ι Row ApiError (Option Nat)}
    (hrun : Interleaving (fun _ _ => True) (World.start db fun i => (decisions i).tx crates) w) :
    RaceOutcome crates op.id db decisions w := by
  have hconsistent := reachable_consistent hreachable
  have hnone : ∀ a ∈ db.rows .assignments, a.operation_id ≠ op.id :=
    hconsistent.undecided op hop (by rw [hpending]; rfl)
  have hone : ((db.rows .operations).filter (awaits_approval op.id)).length ≤ 1 := by
    have hunique := filter_key_eq_singleton hconsistent.operation_ids hop
    have hsplit : (db.rows .operations).filter (awaits_approval op.id) =
        ((db.rows .operations).filter fun other => other.id == op.id).filter fun other => other.status == .pending_approval := by
      rw [List.filter_filter]
      exact List.filter_congr fun other _ => Bool.and_comm _ _
    rw [hsplit, hunique]
    exact List.length_filter_le _ _
  have hgated : ∀ i, ((decisions i).tx crates).gated .operations (awaits_approval op.id) := fun i =>
    hsame i ▸ gated_decision crates (decisions i)
  have losers_fail : ∀ i result, w.sessions i = .finished result → ¬ w.succeeded i → ∃ e, result = .error e := by
    intro i result hfinished hnot
    cases result with
    | error e => exact ⟨e, rfl⟩
    | ok a => exact absurd ⟨a, hfinished⟩ hnot
  rcases gated_interleaving hone hgated (fun i => wp_decision crates (decisions i) db.rows) hrun with
    ⟨hcommitted, hnobody⟩ | ⟨i, a, heffect, hwinner⟩
  · have hnot : ∀ i, ¬ w.succeeded i := fun i ⟨a, ha⟩ => hnobody i a ha
    refine ⟨fun i _ hi => absurd hi (hnot i), fun _ => hcommitted, fun i hi => absurd hi (hnot i), losers_fail,
      fun a ha hid => ?_, fun i _ hi => absurd hi (hnot i)⟩
    rw [hcommitted] at ha
    exact absurd hid (hnone a ha)
  · have hsucceeded : ∀ j, w.succeeded j ↔ j = i := fun j => by simp [World.succeeded, hwinner]
    refine ⟨?_, fun hnot => absurd ((hsucceeded i).mpr rfl) (hnot i), ?_, losers_fail, fun b hb hid => ?_, ?_⟩
    · intro j k hj hk
      rw [(hsucceeded j).mp hj, (hsucceeded k).mp hk]
    · intro j hj
      rw [(hsucceeded j).mp hj]
      exact heffect
    · cases hdecision : decisions i with
      | approve req => exact ⟨i, req, (hsucceeded i).mpr rfl, hdecision⟩
      | reject req =>
        rw [hdecision] at heffect
        rw [heffect.frame _ (by decide)] at hb
        exact absurd hid (hnone b hb)
    · intro j req hj hdecision
      rw [(hsucceeded j).mp hj] at hdecision
      have hid : req.op_id = op.id := by
        rw [← hsame i, hdecision]
        rfl
      rw [hdecision] at heffect
      obtain ⟨count, op', routing_list, layers, created, happroved⟩ := heffect
      rw [← hid] at hnone ⊢
      exact approve_targets happroved hnone

/-- An operation for one agent that awaits its approval. -/
def awaiting : List Call :=
  [.register_agent (registration "a"),
   .create_operation { submission [resource "r0" "a" []] none with requires_approval := true }]

def approval : ApproveRequest where
  op_id := "op"
  approver_display := "bob"
  actor := "user:bob"
  reason := none
  now := midnight
  audit_now := midnight
  ulid n := toString n
  scan := .insertion

def rejection : RejectRequest where
  op_id := "op"
  rejector_display := "carol"
  actor := "user:carol"
  reason := "not today"
  now := midnight
  audit_now := midnight

def approval_or_rejection (approves : Bool) : Decision :=
  if approves then .approve approval else .reject rejection

/-- The rejection picks its row first, but the approval writes it first. -/
def approval_first : List (Action Bool ApiError) :=
  .advance false :: List.replicate 12 (.advance true) ++ List.replicate 2 (.advance false)

def awaiting_crates : Crates := crates_on [manifest "a" []]

theorem approval_wins : ∃ w, RaceOutcome awaiting_crates "op" (call_all awaiting_crates awaiting migrated)
    approval_or_rejection w ∧ w.succeeded true ∧ (w.sessions false).failed = true := by
  have hfollow : ((World.start (call_all awaiting_crates awaiting migrated)
      fun i => (approval_or_rejection i).tx awaiting_crates).follow any_step approval_first).any
      (fun w => (w.sessions true).committed && (w.sessions false).failed) = true := by
    decide
  obtain ⟨w, hrun, hends⟩ := interleaving_of_follow (fun _ _ _ => trivial) hfollow
  obtain ⟨hwon, hlost⟩ := Bool.and_eq_true_iff.mp hends
  have hawaiting : ((call_all awaiting_crates awaiting migrated).rows .operations).map
      (fun op => (op.id, op.status)) = [("op", .pending_approval)] := by
    decide
  obtain ⟨op, hop, hkey⟩ := List.mem_map.mp (hawaiting ▸ List.mem_singleton_self _)
  obtain ⟨hid, hpending⟩ := Prod.mk.inj hkey
  refine ⟨w, ?_, Session.committed_iff.mp hwon, hlost⟩
  rw [← hid]
  refine approvals_and_rejections_race _ (reachable_call_all _ awaiting) hop hpending (fun i => ?_) hrun
  cases i <;> exact hid.symm

end iac_controlplane.store
