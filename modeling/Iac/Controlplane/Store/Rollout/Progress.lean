import Iac.Controlplane.Store.Rollout.Layout
import Iac.Controlplane.Store.Rollup
import Iac.Rollout.Gate

open sql rollout serde_json iac_core.protocol

namespace iac_controlplane.store

/-- Some assignment of the operation can be handed out and reported on. -/
def Dispatching (op_id : String) (rows : List AssignmentRow) : Prop :=
  ∃ a ∈ rows, a.operation_id = op_id ∧ dispatchable a.status = true

instance (op_id : String) (rows : List AssignmentRow) : Decidable (Dispatching op_id rows) :=
  inferInstanceAs (Decidable (∃ a ∈ rows, _ ∧ _))

/-- No assignment waits in an operation with nothing to hand out. -/
def Lively (rows : List AssignmentRow) : Prop :=
  ∀ a ∈ rows, waiting a.status = true → Dispatching a.operation_id rows

private theorem waiting_cases {status : AssignmentStatus} (h : waiting status = true) :
    status = .pending_layer ∨ status = .pending_canary := by
  cases status <;> simp_all [waiting]

private theorem dispatching_promoted {op_id : String} {rows : List AssignmentRow} {which : AssignmentRow → Bool}
    {a : AssignmentRow} (ha : a ∈ rows) (hop : a.operation_id = op_id) (hwhich : which a = true) :
    Dispatching op_id (rows.map (updated which AssignmentRow.promote)) :=
  ⟨AssignmentRow.promote a, List.mem_map.mpr ⟨a, ha, updated_of_true hwhich⟩, hop, rfl⟩

/-- After the canary gate a baseline waits only for a canary that is out. -/
private theorem canary_lively {op_id now : String} {rows after : List AssignmentRow} (hshape : Shaped rows)
    (hcanary : CanaryGate op_id now rows after) {a : AssignmentRow} (ha : a ∈ after) (hop : a.operation_id = op_id)
    (hwaits : a.status = .pending_canary) : Dispatching op_id after := by
  cases hcanary with
  | settled hnone => exact absurd hwaits (hnone a ha hop)
  | running hrunning =>
    obtain ⟨b, hb, hbop, -, -, hdispatchable⟩ := hrunning
    exact ⟨b, hb, hbop, hdispatchable⟩
  | cancel =>
    obtain ⟨b, hb, rfl⟩ := List.mem_map.mp ha
    cases hwhich : cancelled_with_canary op_id 0 b with
    | true =>
      rw [updated_of_true hwhich] at hwaits
      cases hwaits
    | false =>
      rw [updated_of_false hwhich] at hop hwaits
      obtain ⟨-, hone⟩ := hshape.canary_waits b hb hwaits
      simp [cancelled_with_canary, not_canary_of, hop, hwaits, layer_running, hone] at hwhich
  | promote hwaiting =>
    obtain ⟨b, hb, hbop, hblayer, hbwaits⟩ := hwaiting
    exact dispatching_promoted hb hbop (promoted_after_canary_iff.mpr ⟨hbop, hblayer, hbwaits⟩)

private theorem dispatching_cancel {op_id now : String} {rows : List AssignmentRow} (h : Dispatching op_id rows) :
    Dispatching op_id (rows.map (updated (cancelled_with_layer op_id) (AssignmentRow.cancel now))) := by
  obtain ⟨b, hb, hbop, hdispatchable⟩ := h
  refine ⟨b, List.mem_map.mpr ⟨b, hb, updated_of_false ?_⟩, hbop, hdispatchable⟩
  cases hstatus : b.status <;> simp_all [cancelled_with_layer, dispatchable]

/-- After the layer gate a layer waits only for an assignment that is out. -/
private theorem layer_lively {op_id now : String} {rows after : List AssignmentRow}
    (hcanary : ∀ a ∈ rows, a.operation_id = op_id → a.status = .pending_canary → Dispatching op_id rows)
    (hlayer : LayerGate op_id now rows after) {a : AssignmentRow} (ha : a ∈ after) (hop : a.operation_id = op_id)
    (hwaits : waiting a.status = true) : Dispatching op_id after := by
  cases hlayer with
  | settled hnone => exact hcanary a ha hop ((waiting_cases hwaits).resolve_left (hnone a ha hop))
  | running _ hrunning hlowest =>
    obtain ⟨b, hb, hbop, hblayer, hbrunning⟩ := hrunning
    have hbelow : b.status ≠ .pending_layer := by
      intro hstatus
      have hle := hlowest b hb hbop hstatus
      omega
    cases hdispatchable : dispatchable b.status with
    | true => exact ⟨b, hb, hbop, hdispatchable⟩
    | false =>
      refine hcanary b hb hbop ?_
      cases hstatus : b.status <;> simp_all [layer_running, dispatchable]
  | cancel =>
    obtain ⟨b, hb, rfl⟩ := List.mem_map.mp ha
    cases hwhich : cancelled_with_layer op_id b with
    | true =>
      rw [updated_of_true hwhich] at hwaits
      cases hwaits
    | false =>
      rw [updated_of_false hwhich] at hop hwaits
      have hstatus := (waiting_cases hwaits).resolve_left fun hstatus => by
        simp [cancelled_with_layer, hop, hstatus] at hwhich
      exact dispatching_cancel (hcanary b hb hop hstatus)
  | promote hwaiting =>
    obtain ⟨b, hb, hbop, hblayer, hbwaits⟩ := hwaiting
    exact dispatching_promoted hb hbop (promoted_after_layer_iff.mpr ⟨hbop, hblayer, hbwaits⟩)

private theorem dispatching_congr {before after : List AssignmentRow} {op_id : String}
    (hrows : rows_of op_id after = rows_of op_id before) (h : Dispatching op_id before) : Dispatching op_id after := by
  obtain ⟨b, hb, hbop, hdispatchable⟩ := h
  obtain ⟨hb', -⟩ := mem_rows_of.mp (hrows ▸ mem_rows_of.mpr ⟨hb, hbop⟩)
  exact ⟨b, hb', hbop, hdispatchable⟩

private theorem lively_congr {before after : List AssignmentRow} {op_id : String} (h : Lively before)
    (hrows : rows_of op_id after = rows_of op_id before) {a : AssignmentRow} (ha : a ∈ after)
    (hop : a.operation_id = op_id) (hwaits : waiting a.status = true) : Dispatching op_id after := by
  obtain ⟨ha', -⟩ := mem_rows_of.mp (hrows ▸ mem_rows_of.mpr ⟨ha, hop⟩)
  exact dispatching_congr hrows (hop ▸ h a ha' hwaits)

/-- Nothing is routed, or something is routed to layer 0. -/
def FirstLayerRouted (entries : List ((String × Int) × ResourceForRouting)) : Prop :=
  entries = [] ∨ ∃ entry ∈ entries, entry.1.2 = 0

instance (entries : List ((String × Int) × ResourceForRouting)) : Decidable (FirstLayerRouted entries) :=
  have : Decidable (entries = []) := decidable_of_iff (entries.isEmpty = true) List.isEmpty_iff
  inferInstanceAs (Decidable (_ ∨ _))

/-- An assignment of layer 0 in no batch or in the canary is handed out at once. -/
private theorem added_dispatching {op_id : String} {entries : List ((String × Int) × ResourceForRouting)}
    {canary : Option CanarySpec} {new : List AssignmentRow} (hnew : NewAssignments op_id entries canary new)
    (hfirst : FirstLayerRouted entries) {a : AssignmentRow} (ha : a ∈ new) : Dispatching op_id new := by
  obtain ⟨r, hrouted⟩ := hnew.routed a ha
  obtain ⟨⟨⟨agent_id, layer⟩, r'⟩, hentry, rfl⟩ := hfirst.resolve_left (List.ne_nil_of_mem hrouted)
  obtain ⟨b, hb, hagent, hlayer⟩ := hnew.covered _ hentry
  cases hbatch : b.batch with
  | none =>
    refine ⟨b, hb, hnew.operation b hb, ?_⟩
    rw [hnew.status b hb, hlayer, hbatch]
    rfl
  | some batch =>
    obtain ⟨-, ⟨agent_id', hdispatches, hzero⟩, -⟩ := batch_of_some ((hnew.batch b hb).symm.trans hbatch)
    obtain ⟨r₀, hcanary⟩ := (dispatches_push_all entries agent_id' b.layer).mp hdispatches
    obtain ⟨c, hc, hcagent, hclayer⟩ := hnew.covered _ hcanary
    refine ⟨c, hc, hnew.operation c hc, ?_⟩
    rw [hnew.status c hc, hnew.batch c hc, hcagent, hclayer, hzero, hlayer]
    rfl

/-- Every call leaves something to hand out where something waits, if the
operations it creates do. -/
theorem lively_after {crates : Crates} {db : Store} (hconsistent : Consistent db) (h : Lively (db.rows .assignments))
    {call : Call} (hcall : FirstLayerRouted (call.routed crates db)) :
    Lively ((call.after crates db).rows .assignments) := by
  cases assignment_effect crates hconsistent call with
  | unchanged hafter => exact hafter ▸ h
  | added op_id new hfresh hnew hafter =>
    rw [hafter]
    intro a ha hwaits
    obtain hold | hadded := List.mem_append.mp ha
    · obtain ⟨b, hb, hbop, hdispatchable⟩ := h a hold hwaits
      exact ⟨b, List.mem_append_left _ hb, hbop, hdispatchable⟩
    · obtain ⟨b, hb, hbop, hdispatchable⟩ := added_dispatching hnew hcall hadded
      exact ⟨b, List.mem_append_right _ hb, hbop.trans (hnew.operation a hadded).symm, hdispatchable⟩
  | dispatched g hcall hmoved hafter =>
    rw [hafter]
    have hadvances := redispatched_advances hmoved
    intro a' ha' hwaits
    obtain ⟨a, ha, rfl⟩ := List.mem_map.mp ha'
    have hfixed := hadvances.waits ha rfl hwaits
    rw [hfixed] at hwaits ⊢
    obtain ⟨b, hb, hbop, hdispatchable⟩ := h a ha hwaits
    refine ⟨g b, List.mem_map_of_mem hb, (hadvances.same hb).operation_id.trans hbop, ?_⟩
    obtain heq | ⟨-, status, fetched_at, hnew, heq⟩ := hmoved b hb
    · rwa [heq]
    · rwa [heq]
  | completed rep r hr haccepts hafter =>
    rw [hafter]
    obtain ⟨recorded, canaried, hstages⟩ :=
      report_stages crates hconsistent.assignment_ids hconsistent.shaped hr haccepts
    have hkeeps := reported_keeps crates hconsistent.assignment_ids hconsistent.shaped hr haccepts
    intro a ha hwaits
    by_cases hop : a.operation_id = r.operation_id
    · rw [hop]
      exact layer_lively (fun b hb => canary_lively hstages.recorded_shaped hstages.canary hb) hstages.layer ha hop hwaits
    · exact lively_congr h (hkeeps.rows_of_eq (.inl hop)) ha rfl hwaits

/-- The calls that route something to layer 0 when they route anything. -/
def progress_call (crates : Crates) (db : Store) (call : Call) : Prop :=
  FirstLayerRouted (call.routed crates db)

instance (crates : Crates) (db : Store) (call : Call) : Decidable (progress_call crates db call) :=
  inferInstanceAs (Decidable (FirstLayerRouted _))

theorem reachable_lively {crates : Crates} {db : Store} (hreach : Reachable crates (progress_call crates) db) :
    Lively (db.rows .assignments) := by
  induction hreach with
  | refl => simp [Lively, migrated]
  | tail hrun hstep ih =>
    obtain ⟨call, hcall, rfl⟩ := hstep
    exact lively_after (reachable_consistent hrun) ih hcall

private theorem dispatching_of_open {crates : Crates} {db : Store}
    (hreach : Reachable crates (progress_call crates) db) {op : OperationRow} (hop : op ∈ db.rows .operations)
    (hopen : open_operation op.status = true) : Dispatching op.id (db.rows .assignments) := by
  have haccounted := reachable_accounted hreach op hop
  have hsome : rows_of op.id (db.rows .assignments) ≠ [] := fun hnone => by simp [haccounted.opened hnone] at hopen
  by_contra hidle
  have hdone : ∀ a ∈ rows_of op.id (db.rows .assignments), layer_running a.status = false := by
    intro a ha
    obtain ⟨hrow, hid⟩ := mem_rows_of.mp ha
    have hkept : dispatchable a.status = false := Bool.eq_false_iff.mpr fun h => hidle ⟨a, hrow, hid, h⟩
    have hnot_waiting : waiting a.status = false :=
      Bool.eq_false_iff.mpr fun h => hidle (hid ▸ reachable_lively hreach a hrow h)
    cases hstatus : a.status <;> simp_all [dispatchable, waiting, layer_running]
  simp [haccounted.finished hsome hdone, open_final_status] at hopen

/-- A report that completes an assignment of the operation. -/
def Completes (crates : Crates) (op_id : String) (db after : Store) : Prop :=
  ∃ rep, ∃ a ∈ db.rows .assignments, a.operation_id = op_id ∧ accepts_result rep a = true ∧
    after = (Call.complete_assignment rep).after crates db

def Finished (op_id : String) (db : Store) : Prop :=
  ∃ op ∈ db.rows .operations, op.id = op_id ∧ terminal_operation op.status = true

def running_count (op_id : String) (rows : List AssignmentRow) : Nat :=
  (rows_of op_id rows).countP fun a => layer_running a.status

private theorem countP_map_lt {R : Type} {p : R → Bool} {g : R → R} {rows : List R}
    (hle : ∀ r ∈ rows, p (g r) = true → p r = true) {r : R} (hr : r ∈ rows) (hbefore : p r = true)
    (hafter : p (g r) = false) : (rows.map g).countP p < rows.countP p := by
  obtain ⟨front, back, rfl⟩ := List.append_of_mem hr
  have hfront : (front.map g).countP p ≤ front.countP p := by
    rw [List.countP_map]
    exact List.countP_mono_left fun s hs => hle s (by simp [hs])
  have hback : (back.map g).countP p ≤ back.countP p := by
    rw [List.countP_map]
    exact List.countP_mono_left fun s hs => hle s (by simp [hs])
  simp only [List.map_append, List.map_cons, List.countP_append, List.countP_cons, hbefore, hafter]
  simp only [Bool.false_eq_true, if_false, if_true]
  omega

/-- An accepted report leaves one running assignment less, if not fewer. -/
theorem running_count_reported (crates : Crates) {rep : Report} {rows : List AssignmentRow} {a : AssignmentRow}
    (hids : (rows.map AssignmentRow.id).Nodup) (hshape : Shaped rows) (ha : a ∈ rows)
    (haccepts : accepts_result rep a = true) :
    running_count a.operation_id (reported crates rep a.operation_id rows) < running_count a.operation_id rows := by
  obtain ⟨g, hg, hkeeps⟩ := reported_keeps crates hids hshape ha haccepts
  have hcompleted : g a = AssignmentRow.complete crates rep a := by
    have hmem := completed_mem_reported crates hids hshape ha haccepts
    rw [hg] at hmem
    have hkept : ((rows.map g).map AssignmentRow.id).Nodup := by
      rwa [map_key_map fun b hb => (hkeeps b hb).1.id]
    exact eq_of_key_eq hkept (List.mem_map_of_mem ha) hmem (hkeeps a ha).1.id
  rw [running_count, hg, rows_of_map fun b hb => (hkeeps b hb).1]
  refine countP_map_lt (fun b hb hrunning => ?_) (mem_rows_of.mpr ⟨ha, rfl⟩) ?_ ?_
  · by_contra hdone
    rw [(hkeeps b (mem_rows_of.mp hb).1).2 (.inl (by simpa using hdone))] at hrunning
    exact hdone hrunning
  · exact running_of_dispatchable (accepts_dispatchable haccepts)
  · rw [hcompleted]
    exact result_status_terminal rep.result.status

/-- The operation is past its approval in a reachable state. -/
private def Decided (crates : Crates) (op_id : String) (db : Store) : Prop :=
  Reachable crates (progress_call crates) db ∧
    ∃ op ∈ db.rows .operations, op.id = op_id ∧ undecided op.status = false

private theorem completes_lowers {crates : Crates} {op_id : String} {db after : Store} (h : Decided crates op_id db)
    (hstep : Completes crates op_id db after) :
    running_count op_id (after.rows .assignments) < running_count op_id (db.rows .assignments) := by
  have hconsistent := reachable_consistent h.1
  obtain ⟨rep, a, ha, rfl, haccepts, rfl⟩ := hstep
  rw [(complete_after crates hconsistent.assignment_ids ha haccepts).1]
  exact running_count_reported crates hconsistent.assignment_ids hconsistent.shaped ha haccepts

private theorem completes_decided {crates : Crates} {op_id : String} {db after : Store} (h : Decided crates op_id db)
    (hstep : Completes crates op_id db after) : Decided crates op_id after := by
  obtain ⟨hreach, op, hop, hid, hdecided⟩ := h
  obtain ⟨rep, a, ha, -, haccepts, rfl⟩ := hstep
  have hconsistent := reachable_consistent hreach
  refine ⟨hreach.tail ⟨_, .inl rfl, rfl⟩, ?_⟩
  rw [(complete_after crates hconsistent.assignment_ids ha haccepts).2]
  obtain ⟨g, hg, hops⟩ := rolled_up_decides a.operation_id rep.now.to_string
    (reported crates rep a.operation_id (db.rows .assignments)) (db.rows .operations)
  rw [hg]
  refine ⟨g op, List.mem_map_of_mem hop, (hops op hop).1.id.trans hid, Bool.eq_false_iff.mpr fun h => ?_⟩
  rw [(hops op hop).2 h] at hdecided
  cases hdecided

/-- As long as every operation that routes anything routes something to layer
0, an open operation has an assignment to hand out, and whichever of these are
completed, in whatever order, it becomes terminal. -/
theorem no_operation_is_stuck {crates : Crates} {db : Store} (hreach : Reachable crates (progress_call crates) db)
    {op : OperationRow} (hop : op ∈ db.rows .operations) (hopen : open_operation op.status = true) :
    Dispatching op.id (db.rows .assignments) ∧ Inevitable (Completes crates op.id) (Finished op.id) db := by
  refine ⟨dispatching_of_open hreach hop hopen, ?_⟩
  have hdecided : Decided crates op.id db :=
    ⟨hreach, op, hop, rfl, by cases hstatus : op.status <;> simp_all [open_operation, undecided]⟩
  refine Inevitable.of_measure (Decided crates op.id) (fun db : Store => running_count op.id (db.rows .assignments))
    (fun _ _ => completes_decided) (fun _ _ => completes_lowers) ?_ hdecided
  rintro mid ⟨hmid, other, hother, hid, hpast⟩ hunfinished
  have hother_open : open_operation other.status = true := by
    have hnot : ¬ terminal_operation other.status = true := fun h => hunfinished ⟨other, hother, hid, h⟩
    cases hstatus : other.status <;> simp_all [open_operation, undecided, terminal_operation]
  obtain ⟨a, ha, haop, hdispatchable⟩ := dispatching_of_open hmid hother hother_open
  exact ⟨_, report a.agent_id a.id .Succeeded, a, ha, haop.trans hid, by simp [accepts_result, report, hdispatchable], rfl⟩

theorem two_layers_are_not_stuck :
    ∃ op ∈ (call_all two_layers_crates two_layers migrated).rows .operations, op.status = .running ∧
      Inevitable (Completes two_layers_crates op.id) (Finished op.id) (call_all two_layers_crates two_layers migrated) := by
  obtain ⟨op, hop, hrunning⟩ : ∃ op ∈ (call_all two_layers_crates two_layers migrated).rows .operations,
      op.status = .running := by
    decide
  have hreach : Reachable two_layers_crates (progress_call two_layers_crates)
      (call_all two_layers_crates two_layers migrated) := by
    refine run_call_all two_layers ?_
    simp only [two_layers, AllAllowed]
    decide
  exact ⟨op, hop, hrunning, (no_operation_is_stuck hreach hop (by rw [hrunning]; rfl)).2⟩

/-- The host of the only resource in layer 0 never registered. -/
def unrouted_first_layer : List Call :=
  [.register_agent (registration "a"),
   .create_operation (submission [resource "r0" "x" [], resource "r1" "a" ["r0"]] none)]

def unrouted_first_layer_crates : Crates := crates_on [manifest "x" [], manifest "a" ["r0"]]

/-- The operation is pending and its only assignment waits for a layer that has none. -/
theorem unrouted_first_layer_is_stuck :
    ¬ ∀ (crates : Crates) (db : Store), Reachable crates any_call db → ∀ op ∈ db.rows .operations,
      open_operation op.status = true → Dispatching op.id (db.rows .assignments) := by
  intro hall
  have hlive := hall unrouted_first_layer_crates _ (reachable_call_all _ unrouted_first_layer)
  revert hlive
  decide

end iac_controlplane.store
