import Iac.Controlplane.Store.Consistent

open sql

namespace iac_controlplane.store

/-- The operation is finished: it succeeded, failed or was applied in part. -/
def terminal_operation : OperationStatus → Bool
  | .succeeded | .failed | .partially_applied => true
  | _ => false

/-- The operation waits for results of its assignments. -/
def open_operation : OperationStatus → Bool
  | .pending | .running => true
  | _ => false

/-- The operation row agrees with its assignments: it is open only when it has
some, is not terminal while one of them runs, and has the status their counts
give once none does. -/
structure Accounted (rows : List AssignmentRow) (op : OperationRow) : Prop where
  running : (∃ a ∈ rows_of op.id rows, layer_running a.status = true) → terminal_operation op.status = false
  finished : rows_of op.id rows ≠ [] → (∀ a ∈ rows_of op.id rows, layer_running a.status = false) →
    op.status = final_status (operation_counts op.id rows)
  opened : rows_of op.id rows = [] → open_operation op.status = false

theorem terminal_final_status (counts : List (AssignmentStatus × Nat)) :
    terminal_operation (final_status counts) = true := by
  simp only [final_status]
  split_ifs <;> rfl

theorem open_final_status (counts : List (AssignmentStatus × Nat)) :
    open_operation (final_status counts) = false := by
  simp only [final_status]
  split_ifs <;> rfl

theorem Accounted.congr {before after : List AssignmentRow} {op : OperationRow} (h : Accounted before op)
    (hrows : rows_of op.id after = rows_of op.id before) : Accounted after op := by
  have hcounts : operation_counts op.id after = operation_counts op.id before :=
    congrArg (group_count AssignmentRow.status) hrows
  exact ⟨by rw [hrows]; exact h.running, by rw [hrows, hcounts]; exact h.finished, by rw [hrows]; exact h.opened⟩

private theorem accounted_of_none {rows : List AssignmentRow} {op : OperationRow} (h : rows_of op.id rows = [])
    (hclosed : open_operation op.status = false) : Accounted rows op :=
  ⟨by simp [h], fun hsome => absurd h hsome, fun _ => hclosed⟩

private theorem accounted_of_running {rows : List AssignmentRow} {op : OperationRow}
    (hop : terminal_operation op.status = false) (h : ∃ a ∈ rows_of op.id rows, layer_running a.status = true) :
    Accounted rows op := by
  obtain ⟨a, ha, hrunning⟩ := h
  refine ⟨fun _ => hop, fun _ hdone => ?_, fun hnone => ?_⟩
  · simp [hdone a ha] at hrunning
  · simp [hnone] at ha

private theorem accounted_started {now : String} {chosen : OperationRow → Bool} {rows : List AssignmentRow}
    {g : AssignmentRow → AssignmentRow} (hg : ∀ a ∈ rows, Redispatched a (g a)) {op : OperationRow}
    (h : Accounted rows op) :
    Accounted (rows.map g) (updated (fun op => chosen op && op.status == .pending) (OperationRow.start now) op) := by
  have hkeeps : Keeps (fun _ => True) rows (rows.map g) :=
    (redispatched_advances hg).keeps fun _ _ hnone => absurd trivial hnone
  have hid : (updated (fun op => chosen op && op.status == .pending) (OperationRow.start now) op).id = op.id := by
    simp only [updated]
    split_ifs <;> rfl
  by_cases hdone : ∀ a ∈ rows_of op.id rows, layer_running a.status = false
  · by_cases hnone : rows_of op.id rows = []
    · have hclosed := h.opened hnone
      rw [updated_of_false (by cases hstatus : op.status <;> simp_all [open_operation])]
      exact accounted_of_none (by rw [hkeeps.rows_of_eq (.inr hdone), hnone]) hclosed
    · have hterminal : terminal_operation op.status = true := by
        rw [h.finished hnone hdone]
        exact terminal_final_status _
      rw [updated_of_false (by cases hstatus : op.status <;> simp_all [terminal_operation])]
      exact h.congr (hkeeps.rows_of_eq (.inr hdone))
  · push Not at hdone
    obtain ⟨a, ha, hrunning⟩ := hdone
    obtain ⟨hrow, hop⟩ := mem_rows_of.mp ha
    have hrunning : layer_running a.status = true := by simpa using hrunning
    refine accounted_of_running ?_ ⟨g a, mem_rows_of.mpr ⟨List.mem_map_of_mem hrow, ?_⟩, ?_⟩
    · have hopen := h.running ⟨a, ha, hrunning⟩
      simp only [updated]
      split_ifs
      · rfl
      · exact hopen
    · rw [hid, ((redispatched_advances hg).same hrow).operation_id, hop]
    · rw [(hg a hrow).running, hrunning]

private theorem accounted_rolled_up {op_id now : String} {before after : List AssignmentRow}
    {operations : List OperationRow} (hkeeps : Keeps (· = op_id) before after)
    (hbefore : ∃ a ∈ rows_of op_id before, layer_running a.status = true)
    (h : ∀ op ∈ operations, Accounted before op) : ∀ op ∈ rolled_up op_id now after operations, Accounted after op := by
  intro op' hop'
  rw [rolled_up] at hop'
  split_ifs at hop' with hany
  · by_cases hid : op'.id = op_id
    · refine accounted_of_running ((h op' hop').running (hid ▸ hbefore)) ?_
      simpa [hid, and_assoc] using hany
    · exact (h op' hop').congr (hkeeps.rows_of_eq (.inl hid))
  · obtain ⟨op, hop, rfl⟩ := List.mem_map.mp hop'
    by_cases hid : op.id = op_id
    · rw [updated_of_true (by simp [hid])]
      refine ⟨?_, fun _ _ => ?_, fun _ => open_final_status _⟩
      · rintro ⟨a, ha, hrunning⟩
        simp only [OperationRow.settle, hid, mem_rows_of] at ha
        exact absurd (List.any_eq_true.mpr ⟨a, ha.1, by simp [ha.2, hrunning]⟩) hany
      · simp [OperationRow.settle, hid]
    · rw [updated_of_false (by simp [hid])]
      exact (h op hop).congr (hkeeps.rows_of_eq (.inl hid))

private theorem accounted_added {db : Store} {op : OperationRow}
    {entries : List ((String × Int) × ResourceForRouting)} {canary : Option iac_core.protocol.CanarySpec}
    {new : List AssignmentRow} (hnew : NewAssignments op.id entries canary new)
    (hfresh : ∀ a ∈ db.rows .assignments, a.operation_id ≠ op.id)
    (hstatus : op.status = if new = [] then .succeeded else .pending) :
    Accounted (db.rows .assignments ++ new) op := by
  have hrows : rows_of op.id (db.rows .assignments ++ new) = new := by
    rw [rows_of, List.filter_append, List.filter_eq_nil_iff.mpr (fun a ha => by simpa using hfresh a ha),
      List.filter_eq_self.mpr (fun a ha => by simpa using hnew.operation a ha), List.nil_append]
  cases hlist : new with
  | nil => exact accounted_of_none (hlist ▸ hrows) (by rw [hstatus, if_pos hlist]; rfl)
  | cons a rest =>
    have ha : a ∈ new := by simp [hlist]
    rw [← hlist]
    refine accounted_of_running ?_ ⟨a, hrows.symm ▸ ha, ?_⟩
    · rw [hstatus, if_neg (by simp [hlist])]
      rfl
    · rw [hnew.status a ha]
      exact initial_status_running _ _

/-- Every call keeps every operation accounted for. -/
theorem accounted_after {crates : Crates} {db : Store} (hconsistent : Consistent db)
    (h : ∀ op ∈ db.rows .operations, Accounted (db.rows .assignments) op) (call : Call) :
    ∀ op ∈ (call.after crates db).rows .operations, Accounted ((call.after crates db).rows .assignments) op := by
  cases call_effect crates call hconsistent.assignment_ids with
  | unchanged hoperations hassignments => rwa [hoperations, hassignments]
  | deferred op hstatus hfresh hoperations hassignments =>
    rw [hoperations, hassignments]
    intro other hother
    obtain hold | hadded := List.mem_append.mp hother
    · exact h other hold
    · obtain rfl := List.mem_singleton.mp hadded
      refine accounted_of_none (List.filter_eq_nil_iff.mpr fun a ha => ?_) (by rw [hstatus]; rfl)
      obtain ⟨owner, howner, hid⟩ := hconsistent.owned a ha
      simpa [← hid] using hfresh owner howner
  | created op new hstatus hfresh hnew hoperations hassignments hids =>
    rw [hoperations, hassignments]
    intro other hother
    obtain hold | hadded := List.mem_append.mp hother
    · exact (h other hold).congr (rows_of_append_of_ne hnew.operation (Ne.symm (hfresh other hold)))
    · obtain rfl := List.mem_singleton.mp hadded
      refine accounted_added hnew (fun a ha heq => ?_) hstatus
      obtain ⟨owner, howner, hid⟩ := hconsistent.owned a ha
      exact hfresh owner howner (hid.trans heq)
  | approved op req new hop hawaits hnew hoperations hassignments hids =>
    rw [hoperations, hassignments]
    simp only [List.forall_mem_map]
    intro other hother
    by_cases hid : other.id = op.id
    · obtain rfl := eq_of_key_eq hconsistent.operation_ids hother hop hid
      rw [updated_of_true hawaits]
      refine accounted_added hnew ?_ (by simp [OperationRow.approve])
      exact hconsistent.undecided other hother (awaits_undecided hawaits).2
    · rw [updated_of_false]
      · exact (h other hother).congr (rows_of_append_of_ne hnew.operation (Ne.symm hid))
      · exact Bool.eq_false_iff.mpr fun h => hid ((awaits_undecided h).1.trans (awaits_undecided hawaits).1.symm)
  | rejected req hoperations hassignments =>
    rw [hoperations, hassignments]
    simp only [List.forall_mem_map]
    intro op hop
    cases hawaits : awaits_approval req.op_id op with
    | false =>
      rw [updated_of_false hawaits]
      exact h op hop
    | true =>
      rw [updated_of_true hawaits]
      refine accounted_of_none (List.filter_eq_nil_iff.mpr fun a ha => ?_) rfl
      simpa [OperationRow.reject] using hconsistent.undecided op hop (awaits_undecided hawaits).2 a ha
  | dispatched now g hcall hmoved hoperations hassignments =>
    obtain ⟨chosen, hstarted⟩ := hoperations
    rw [hstarted, hassignments]
    simp only [List.forall_mem_map]
    exact fun op hop => accounted_started hmoved (h op hop)
  | completed rep a ha haccepts hoperations hassignments =>
    have hkeeps := reported_keeps crates hconsistent.assignment_ids hconsistent.shaped ha haccepts
    rw [hoperations]
    refine accounted_rolled_up (hassignments ▸ hkeeps) ⟨a, mem_rows_of.mpr ⟨ha, rfl⟩, ?_⟩ h
    exact running_of_dispatchable (accepts_dispatchable haccepts)

theorem reachable_accounted {crates : Crates} {allowed : Store → Call → Prop} {db : Store}
    (h : Reachable crates allowed db) : ∀ op ∈ db.rows .operations, Accounted (db.rows .assignments) op := by
  induction h with
  | refl => simp [migrated]
  | tail hrun hstep ih =>
    obtain ⟨call, -, rfl⟩ := hstep
    exact accounted_after (reachable_consistent hrun) ih call

/-- A terminal operation whose assignments are terminal is out of reach of every call. -/
private theorem frozen_after {crates : Crates} {db : Store} (hconsistent : Consistent db) {op : OperationRow}
    (hop : op ∈ db.rows .operations) (hterminal : terminal_operation op.status = true)
    (hdone : ∀ a ∈ rows_of op.id (db.rows .assignments), layer_running a.status = false) (call : Call) :
    op ∈ (call.after crates db).rows .operations ∧
      rows_of op.id ((call.after crates db).rows .assignments) = rows_of op.id (db.rows .assignments) := by
  have hawaits (op_id : String) : awaits_approval op_id op = false := by
    cases hstatus : op.status <;> simp_all [terminal_operation, awaits_approval]
  have hpending : (op.status == .pending) = false := by
    cases hstatus : op.status <;> simp_all [terminal_operation]
  cases call_effect crates call hconsistent.assignment_ids with
  | unchanged hoperations hassignments => exact ⟨hoperations ▸ hop, by rw [hassignments]⟩
  | deferred other hstatus hfresh hoperations hassignments =>
    exact ⟨hoperations ▸ List.mem_append_left _ hop, by rw [hassignments]⟩
  | created other new hstatus hfresh hnew hoperations hassignments hids =>
    refine ⟨hoperations ▸ List.mem_append_left _ hop, ?_⟩
    rw [hassignments, rows_of_append_of_ne hnew.operation (Ne.symm (hfresh op hop))]
  | approved other req new hother hother_awaits hnew hoperations hassignments hids =>
    refine ⟨hoperations ▸ List.mem_map.mpr ⟨op, hop, updated_of_false (hawaits _)⟩, ?_⟩
    rw [hassignments, rows_of_append_of_ne hnew.operation fun hid => ?_]
    obtain rfl := eq_of_key_eq hconsistent.operation_ids hother hop hid
    simp [hawaits] at hother_awaits
  | rejected req hoperations hassignments =>
    exact ⟨hoperations ▸ List.mem_map.mpr ⟨op, hop, updated_of_false (hawaits _)⟩, by rw [hassignments]⟩
  | dispatched now g hcall hmoved hoperations hassignments =>
    obtain ⟨chosen, hstarted⟩ := hoperations
    refine ⟨hstarted ▸ List.mem_map.mpr ⟨op, hop, updated_of_false (by simp [hpending])⟩, ?_⟩
    have hkeeps : Keeps (fun _ => True) _ _ :=
      (redispatched_advances hmoved).keeps fun _ _ hnone => absurd trivial hnone
    rw [hassignments, hkeeps.rows_of_eq (.inr hdone)]
  | completed rep a ha haccepts hoperations hassignments =>
    have hother : op.id ≠ a.operation_id := by
      intro hid
      have hrunning := running_of_dispatchable (accepts_dispatchable haccepts)
      simp [hdone a (mem_rows_of.mpr ⟨ha, hid.symm⟩)] at hrunning
    refine ⟨?_, ?_⟩
    · rw [hoperations, rolled_up]
      split_ifs
      · exact hop
      · exact List.mem_map.mpr ⟨op, hop, updated_of_false (by simpa using hother)⟩
    · rw [hassignments]
      exact (reported_keeps crates hconsistent.assignment_ids hconsistent.shaped ha haccepts).rows_of_eq (.inl hother)

private theorem frozen_run {crates : Crates} {allowed : Store → Call → Prop} {db after : Store}
    (hconsistent : Consistent db) {op : OperationRow} (hop : op ∈ db.rows .operations)
    (hterminal : terminal_operation op.status = true)
    (hdone : ∀ a ∈ rows_of op.id (db.rows .assignments), layer_running a.status = false)
    (hrun : Run crates allowed db after) :
    Consistent after ∧ op ∈ after.rows .operations ∧
      rows_of op.id (after.rows .assignments) = rows_of op.id (db.rows .assignments) := by
  induction hrun with
  | refl => exact ⟨hconsistent, hop, rfl⟩
  | tail _ hstep ih =>
    obtain ⟨call, -, rfl⟩ := hstep
    obtain ⟨hmid, hmem, hrows⟩ := ih
    obtain ⟨hmem', hrows'⟩ := frozen_after hmid hmem hterminal (hrows ▸ hdone) call
    exact ⟨hmid.after call, hmem', hrows'.trans hrows⟩

private theorem final_status_cases {op : OperationRow} {rows : List AssignmentRow}
    (hsome : rows_of op.id rows ≠ []) (hdone : ∀ a ∈ rows_of op.id rows, layer_running a.status = false)
    (hstatus : op.status = final_status (operation_counts op.id rows)) :
    (op.status = .succeeded ↔ ∀ a ∈ rows_of op.id rows, a.status = .succeeded) ∧
      (op.status = .failed ↔
        ∀ a ∈ rows_of op.id rows, a.status ≠ .succeeded ∧ a.status ≠ .partially_applied) := by
  obtain ⟨b, hb⟩ := List.exists_mem_of_ne_nil _ hsome
  have hclean (a : AssignmentRow) (ha : a ∈ rows_of op.id rows) : a.status = .succeeded ↔
      ¬ (failed_flavor a.status = true ∨ a.status = .cancelled) := by
    have h := hdone a ha
    cases hs : a.status <;> simp_all [layer_running, failed_flavor]
  rw [hstatus, final_status_eq]
  split_ifs with hfailure hpartial
  · obtain ⟨a, ha, hop, hbad⟩ := hfailure
    obtain ⟨c, hc, hcop, hgood⟩ := hpartial
    refine ⟨iff_of_false (by simp) fun hall => ?_, iff_of_false (by simp) fun hall => ?_⟩
    · exact (hclean a (mem_rows_of.mpr ⟨ha, hop⟩)).mp (hall a (mem_rows_of.mpr ⟨ha, hop⟩)) hbad
    · have hnone := hall c (mem_rows_of.mpr ⟨hc, hcop⟩)
      exact hgood.elim hnone.1 hnone.2
  · obtain ⟨a, ha, hop, hbad⟩ := hfailure
    refine ⟨iff_of_false (by simp) fun hall => ?_, iff_of_true rfl fun c hc => ?_⟩
    · exact (hclean a (mem_rows_of.mpr ⟨ha, hop⟩)).mp (hall a (mem_rows_of.mpr ⟨ha, hop⟩)) hbad
    · obtain ⟨hrow, hcop⟩ := mem_rows_of.mp hc
      exact ⟨fun h => hpartial ⟨c, hrow, hcop, .inl h⟩, fun h => hpartial ⟨c, hrow, hcop, .inr h⟩⟩
  · have hall : ∀ a ∈ rows_of op.id rows, a.status = .succeeded := by
      intro a ha
      obtain ⟨hrow, hop⟩ := mem_rows_of.mp ha
      exact (hclean a ha).mpr fun hbad => hfailure ⟨a, hrow, hop, hbad⟩
    exact ⟨iff_of_true rfl hall, iff_of_false (by simp) fun hnone => (hnone b hb).1 (hall b hb)⟩

/-- In every state of a serial run, an operation with an assignment is terminal
exactly when all its assignments are; its status then follows from theirs, and
neither it nor they ever change again. -/
theorem operation_status_rolls_up {crates : Crates} {allowed : Store → Call → Prop} {db : Store}
    (hreach : Reachable crates allowed db) {op : OperationRow} (hop : op ∈ db.rows .operations)
    (hsome : rows_of op.id (db.rows .assignments) ≠ []) :
    let rows := rows_of op.id (db.rows .assignments)
    (terminal_operation op.status = true ↔ ∀ a ∈ rows, terminal_assignment a.status = true) ∧
      (terminal_operation op.status = true →
        (op.status = .succeeded ↔ ∀ a ∈ rows, a.status = .succeeded) ∧
        (op.status = .failed ↔ ∀ a ∈ rows, a.status ≠ .succeeded ∧ a.status ≠ .partially_applied) ∧
        (op.status = .partially_applied ↔ (¬ ∀ a ∈ rows, a.status = .succeeded) ∧
          ¬ ∀ a ∈ rows, a.status ≠ .succeeded ∧ a.status ≠ .partially_applied) ∧
        ∀ after, Run crates allowed db after →
          op ∈ after.rows .operations ∧ rows_of op.id (after.rows .assignments) = rows) := by
  intro rows
  have haccounted := reachable_accounted hreach op hop
  have hterminal : terminal_operation op.status = true ↔ ∀ a ∈ rows, layer_running a.status = false := by
    constructor
    · intro h a ha
      by_contra hrunning
      have hopen := haccounted.running ⟨a, ha, by simpa using hrunning⟩
      simp [h] at hopen
    · intro hdone
      rw [haccounted.finished hsome hdone]
      exact terminal_final_status _
  simp only [terminal_assignment_iff]
  refine ⟨hterminal, fun h => ?_⟩
  have hdone := hterminal.mp h
  obtain ⟨hsucceeded, hfailed⟩ := final_status_cases hsome hdone (haccounted.finished hsome hdone)
  refine ⟨hsucceeded, hfailed, ?_, fun after hrun => (frozen_run (reachable_consistent hreach) hop h hdone hrun).2⟩
  rw [← hsucceeded, ← hfailed]
  cases hstatus : op.status <;> simp_all [terminal_operation]

/-- Two hosts, one of which applies its resource while the other fails. -/
def one_of_two : List Call :=
  [.register_agent (registration "a"), .register_agent (registration "b"),
   .create_operation (submission [resource "r0" "a" [], resource "r1" "b" []] none),
   .fetch_pending_assignments 60 midnight "a",
   .complete_assignment (report "a" "0" .Succeeded),
   .fetch_pending_assignments 60 midnight "b",
   .complete_assignment (report "b" "1" .Failed)]

def one_of_two_crates : Crates := crates_on [manifest "a" [], manifest "b" []]

theorem one_of_two_rolls_up :
    ∃ op ∈ (call_all one_of_two_crates one_of_two migrated).rows .operations, op.status = .partially_applied ∧
      ∀ a ∈ rows_of op.id ((call_all one_of_two_crates one_of_two migrated).rows .assignments),
        terminal_assignment a.status = true := by
  obtain ⟨op, hop, hsome, hstatus⟩ : ∃ op ∈ (call_all one_of_two_crates one_of_two migrated).rows .operations,
      rows_of op.id ((call_all one_of_two_crates one_of_two migrated).rows .assignments) ≠ [] ∧
        op.status = .partially_applied := by
    decide
  have hrolled := operation_status_rolls_up (reachable_call_all one_of_two_crates one_of_two) hop hsome
  exact ⟨op, hop, hstatus, hrolled.1.mp (by rw [hstatus]; rfl)⟩

end iac_controlplane.store
