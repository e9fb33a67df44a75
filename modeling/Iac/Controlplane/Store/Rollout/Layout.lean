import Iac.Controlplane.Store.Consistent
import Iac.Rollout.Gate

open iac_core.protocol rollout serde_json sql

namespace iac_controlplane.store

/-- The agent may have the assignment, or has reported on it. -/
def released : AssignmentStatus → Bool
  | .pending | .fetched | .succeeded | .partially_applied | .failed => true
  | _ => false

/-- Nothing of the operation was ever released. -/
def Parked (rows : List AssignmentRow) : Prop :=
  ∀ a ∈ rows, a.status = .pending_layer

/-- A property of how an operation is laid out in layers and batches. -/
def Static (P : List AssignmentRow → Prop) : Prop :=
  ∀ rows g, (∀ a ∈ rows, SameAssignment a (g a)) → P rows → P (rows.map g)

/-- Every operation that was released in part has the layout `P`. -/
def Laid (P : List AssignmentRow → Prop) (rows : List AssignmentRow) : Prop :=
  ∀ op_id, Parked (rows_of op_id rows) ∨ P (rows_of op_id rows)

/-- A gate between the assignments of an operation that the code keeps for
operations of layout `P`: what it promotes has nothing undone before it. -/
structure KeptGate (before : AssignmentRow → AssignmentRow → Prop) (P : List AssignmentRow → Prop) : Prop where
  same : ∀ {a b a' b'}, SameAssignment a a' → SameAssignment b b' → before a' b' → before a b
  operation : ∀ {a b}, before a b → a.operation_id = b.operation_id
  initial : ∀ {a b}, before a b → 0 ≤ a.layer → released (initial_assignment_status b.layer b.batch) = false
  canary : ∀ {rows op_id}, Shaped rows →
    (∀ a ∈ rows, a.operation_id = op_id → a.layer = 0 → a.batch = some 0 →
      dispatchable a.status = false ∧ failed_flavor a.status = false) →
    ∀ b ∈ rows, promoted_after_canary op_id 0 b = true → ∀ a ∈ rows, before a b → a.status = .succeeded
  layer : ∀ {rows op_id next_layer}, Shaped rows → P (rows_of op_id rows) →
    Gated before (released ·.status = true) (·.status = .succeeded) rows →
    (∀ a ∈ rows, a.operation_id = op_id → a.layer = next_layer - 1 →
      layer_running a.status = false ∧ failed_flavor a.status = false) →
    ∀ b ∈ rows, promoted_after_layer op_id next_layer b = true → ∀ a ∈ rows, before a b → a.status = .succeeded

abbrev GatedRows (before : AssignmentRow → AssignmentRow → Prop) (rows : List AssignmentRow) : Prop :=
  Gated before (released ·.status = true) (·.status = .succeeded) rows

theorem released_of_dispatchable {status : AssignmentStatus} (h : dispatchable status = true) :
    released status = true := by
  cases status <;> simp_all [dispatchable, released]

private theorem gated_advances {before : AssignmentRow → AssignmentRow → Prop} {P : List AssignmentRow → Prop}
    (hgate : KeptGate before P) {rows : List AssignmentRow} {g : AssignmentRow → AssignmentRow}
    (h : GatedRows before rows) (hg : Advances rows g)
    (hreleased : ∀ b ∈ rows, released (g b).status = true →
      released b.status = true ∨ ∀ a ∈ rows, before a b → a.status = .succeeded) :
    GatedRows before (rows.map g) := by
  have hdone : ∀ a ∈ rows, a.status = .succeeded → (g a).status = .succeeded := by
    intro a ha hsucceeded
    rw [hg.terminal ha (by rw [hsucceeded]; rfl), hsucceeded]
  refine h.map (fun a ha b hb => hgate.same (hg.same ha) (hg.same hb)) hdone fun b hb hb' => ?_
  exact (hreleased b hb hb').imp_right fun hclear a ha hab => hdone a ha (hclear a ha hab)

private theorem gated_cancel {before : AssignmentRow → AssignmentRow → Prop} {P : List AssignmentRow → Prop}
    (hgate : KeptGate before P) {rows : List AssignmentRow} {which : AssignmentRow → Bool} {now : String}
    (h : GatedRows before rows) (hg : Advances rows (updated which (AssignmentRow.cancel now))) :
    GatedRows before (rows.map (updated which (AssignmentRow.cancel now))) := by
  refine gated_advances hgate h hg fun b _ hb => .inl ?_
  cases hwhich : which b with
  | false => rwa [updated_of_false hwhich] at hb
  | true =>
    rw [updated_of_true hwhich] at hb
    cases hb

private theorem gated_promote {before : AssignmentRow → AssignmentRow → Prop} {P : List AssignmentRow → Prop}
    (hgate : KeptGate before P) {rows : List AssignmentRow} {which : AssignmentRow → Bool}
    (h : GatedRows before rows) (hg : Advances rows (updated which AssignmentRow.promote))
    (hclear : ∀ b ∈ rows, which b = true → ∀ a ∈ rows, before a b → a.status = .succeeded) :
    GatedRows before (rows.map (updated which AssignmentRow.promote)) := by
  refine gated_advances hgate h hg fun b hb hb' => ?_
  cases hwhich : which b with
  | false =>
    rw [updated_of_false hwhich] at hb'
    exact .inl hb'
  | true => exact .inr (hclear b hb hwhich)

private theorem gated_canary {before : AssignmentRow → AssignmentRow → Prop} {P : List AssignmentRow → Prop}
    (hgate : KeptGate before P) {op_id now : String} {rows after : List AssignmentRow} (hshape : Shaped rows)
    (h : GatedRows before rows) (hcanary : CanaryGate op_id now rows after) : GatedRows before after := by
  cases hcanary with
  | settled | running => exact h
  | cancel => exact gated_cancel hgate h (canary_cancel_advances hshape)
  | promote _ hdone =>
    exact gated_promote hgate h (canary_promote_advances op_id 0 rows) (hgate.canary hshape hdone)

private theorem gated_layer {before : AssignmentRow → AssignmentRow → Prop} {P : List AssignmentRow → Prop}
    (hgate : KeptGate before P) {op_id now : String} {rows after : List AssignmentRow} (hshape : Shaped rows)
    (hlayout : P (rows_of op_id rows)) (h : GatedRows before rows) (hlayer : LayerGate op_id now rows after) :
    GatedRows before after := by
  cases hlayer with
  | settled | running => exact h
  | cancel => exact gated_cancel hgate h (layer_cancel_advances hshape)
  | promote _ _ hdone =>
    exact gated_promote hgate h (layer_promote_advances op_id _ rows) (hgate.layer hshape hlayout h hdone)

theorem Static.map_rows {P : List AssignmentRow → Prop} (hstatic : Static P) {rows : List AssignmentRow}
    {g : AssignmentRow → AssignmentRow} (hg : ∀ a ∈ rows, SameAssignment a (g a)) {op_id : String}
    (h : P (rows_of op_id rows)) : P (rows_of op_id (rows.map g)) := by
  rw [rows_of_map hg]
  exact hstatic _ _ (fun a ha => hg a (mem_rows_of.mp ha).1) h

theorem Static.canaried {P : List AssignmentRow → Prop} (hstatic : Static P) {crates : Crates} {rep : Report}
    {op_id op_id' : String} {rows recorded canaried : List AssignmentRow} (h : P (rows_of op_id rows))
    (hstages : ReportStages crates rep op_id' rows recorded canaried) : P (rows_of op_id canaried) := by
  obtain ⟨g, hg, hadvances, -⟩ := hstages.canary.advances hstages.recorded_shaped
  rw [hg, hstages.recorded_eq]
  exact hstatic.map_rows (fun b hb => hadvances.same (hstages.recorded_eq ▸ hb))
    (hstatic.map_rows (fun b hb => hstages.completes.same hb) h)

/-- The gate holds after each of the changes that an accepted report makes. -/
theorem gated_stages {before : AssignmentRow → AssignmentRow → Prop} {P : List AssignmentRow → Prop}
    (hgate : KeptGate before P) (hstatic : Static P) {crates : Crates} {rep : Report}
    {rows recorded canaried : List AssignmentRow} {a : AssignmentRow} (hids : (rows.map AssignmentRow.id).Nodup)
    (ha : a ∈ rows) (haccepts : accepts_result rep a = true) (hlayout : P (rows_of a.operation_id rows))
    (h : GatedRows before rows) (hstages : ReportStages crates rep a.operation_id rows recorded canaried) :
    GatedRows before recorded ∧ GatedRows before canaried ∧
      GatedRows before (reported crates rep a.operation_id rows) := by
  have hrecorded : GatedRows before recorded := by
    rw [hstages.recorded_eq]
    refine gated_advances hgate h hstages.completes fun b hb hreleased => ?_
    by_cases hid : b.id = rep.assignment_id
    · obtain rfl := eq_of_key_eq hids hb ha (hid.trans (accepts_id haccepts).symm)
      exact .inl (released_of_dispatchable (accepts_dispatchable haccepts))
    · rw [updated_of_false (by simpa using hid)] at hreleased
      exact .inl hreleased
  have hcanaried := gated_canary hgate hstages.recorded_shaped hrecorded hstages.canary
  exact ⟨hrecorded, hcanaried,
    gated_layer hgate hstages.canaried_shaped (hstatic.canaried hlayout hstages) hcanaried hstages.layer⟩

theorem Laid.of_accepted {P : List AssignmentRow → Prop} {rows : List AssignmentRow} (h : Laid P rows) {rep : Report}
    {a : AssignmentRow} (ha : a ∈ rows) (haccepts : accepts_result rep a = true) : P (rows_of a.operation_id rows) := by
  refine (h a.operation_id).resolve_left fun hparked => ?_
  have hdispatchable := accepts_dispatchable haccepts
  rw [hparked a (mem_rows_of.mpr ⟨ha, rfl⟩)] at hdispatchable
  cases hdispatchable

/-- The calls that create assignments lay them out by `P`, or leave layer 0 empty. -/
def LaysOut (P : List AssignmentRow → Prop) (crates : Crates) (db : Store) (call : Call) : Prop :=
  ∀ op_id new, NewAssignments op_id (call.routed crates db) call.canary new → Parked new ∨ P new

/-- An operation that was never released stays so; the others keep their layout. -/
theorem laid_after {P : List AssignmentRow → Prop} (hstatic : Static P) {crates : Crates} {db : Store}
    (hconsistent : Consistent db) (h : Laid P (db.rows .assignments)) {call : Call}
    (hcall : LaysOut P crates db call) : Laid P ((call.after crates db).rows .assignments) := by
  intro op_id
  cases assignment_effect crates hconsistent call with
  | unchanged hafter => exact hafter ▸ h op_id
  | added other new hfresh hnew hafter =>
    rw [hafter]
    by_cases hid : other = op_id
    · subst hid
      have hold : rows_of other (db.rows .assignments) = [] := by simpa [rows_of] using hfresh
      have hrows : rows_of other new = new := List.filter_eq_self.mpr fun a ha => by simpa using hnew.operation a ha
      rw [rows_of] at hold hrows
      rw [rows_of, List.filter_append, hold, hrows]
      exact hcall other new hnew
    · rw [rows_of_append_of_ne hnew.operation hid]
      exact h op_id
  | dispatched g hcall hmoved hafter =>
    rw [hafter]
    have hadvances := redispatched_advances hmoved
    refine (h op_id).imp (fun hparked => ?_) (hstatic.map_rows fun a ha => hadvances.same ha)
    rw [rows_of_map fun a ha => hadvances.same ha]
    intro b hb
    obtain ⟨a, ha, rfl⟩ := List.mem_map.mp hb
    obtain heq | ⟨hdispatchable, -⟩ := hmoved a (mem_rows_of.mp ha).1
    · rw [heq]
      exact hparked a ha
    · rw [hparked a ha] at hdispatchable
      cases hdispatchable
  | completed rep a ha haccepts hafter =>
    rw [hafter]
    have hkeeps := reported_keeps crates hconsistent.assignment_ids hconsistent.shaped ha haccepts
    by_cases hid : op_id = a.operation_id
    · subst hid
      obtain ⟨g, hg, hsame⟩ := hkeeps
      rw [hg]
      exact .inr (hstatic.map_rows (fun b hb => (hsame b hb).1) (h.of_accepted ha haccepts))
    · rw [hkeeps.rows_of_eq (.inl hid)]
      exact h op_id

/-- Every call keeps the gate when the operations are laid out as the gate needs. -/
theorem gated_after {before : AssignmentRow → AssignmentRow → Prop} {P : List AssignmentRow → Prop}
    (hgate : KeptGate before P) (hstatic : Static P) {crates : Crates} {db : Store} (hconsistent : Consistent db)
    (hlaid : Laid P (db.rows .assignments)) (h : GatedRows before (db.rows .assignments)) (call : Call) :
    GatedRows before ((call.after crates db).rows .assignments) := by
  cases assignment_effect crates hconsistent call with
  | unchanged hafter => exact hafter ▸ h
  | added op_id new hfresh hnew hafter =>
    rw [hafter]
    refine h.append (fun a ha b hb hab hreleased => ?_) fun a ha b hb => ⟨fun hab => ?_, fun hba => ?_⟩
    · have hinitial := hgate.initial hab (hnew.nonneg a ha)
      rw [← hnew.status b hb] at hinitial
      simp [hinitial] at hreleased
    · exact hfresh a ha ((hgate.operation hab).trans (hnew.operation b hb))
    · exact hfresh a ha ((hgate.operation hba).symm.trans (hnew.operation b hb))
  | dispatched g hcall hmoved hafter =>
    rw [hafter]
    refine gated_advances hgate h (redispatched_advances hmoved) fun b hb hreleased => .inl ?_
    obtain heq | ⟨hdispatchable, -⟩ := hmoved b hb
    · rwa [heq] at hreleased
    · exact released_of_dispatchable hdispatchable
  | completed rep a ha haccepts hafter =>
    rw [hafter]
    obtain ⟨recorded, canaried, hstages⟩ :=
      report_stages crates hconsistent.assignment_ids hconsistent.shaped ha haccepts
    exact (gated_stages hgate hstatic hconsistent.assignment_ids ha haccepts (hlaid.of_accepted ha haccepts) h hstages).2.2

/-- The gate holds in every state of a run whose calls lay operations out as it needs. -/
theorem reachable_gated {before : AssignmentRow → AssignmentRow → Prop} {P : List AssignmentRow → Prop}
    (hgate : KeptGate before P) (hstatic : Static P) {crates : Crates} {allowed : Store → Call → Prop}
    (hallowed : ∀ db call, allowed db call → LaysOut P crates db call) {db : Store}
    (h : Reachable crates allowed db) : Laid P (db.rows .assignments) ∧ GatedRows before (db.rows .assignments) := by
  induction h with
  | refl => exact ⟨fun op_id => .inl (by simp [migrated, Parked, rows_of]), by simp [migrated, Gated.nil]⟩
  | tail hrun hstep ih =>
    obtain ⟨call, hcall, rfl⟩ := hstep
    have hconsistent := reachable_consistent hrun
    exact ⟨laid_after hstatic hconsistent ih.1 (hallowed _ _ hcall), gated_after hgate hstatic hconsistent ih.1 ih.2 call⟩

/-- Without anything routed to layer 0, every new assignment waits. -/
theorem NewAssignments.parked {op_id : String} {entries : List ((String × Int) × ResourceForRouting)}
    {canary : Option iac_core.protocol.CanarySpec} {new : List AssignmentRow}
    (h : NewAssignments op_id entries canary new) (hnone : ∀ entry ∈ entries, entry.1.2 ≠ 0) : Parked new := by
  intro a ha
  obtain ⟨r, hentry⟩ := h.routed a ha
  have hlayer : a.layer ≠ 0 := hnone _ hentry
  rw [h.status a ha]
  simp [initial_assignment_status, hlayer]

def canary_first (a b : AssignmentRow) : Prop :=
  a.operation_id = b.operation_id ∧ a.layer = b.layer ∧ a.batch = some 0 ∧ b.batch = some 1

/-- Only layer 0 of the operation is split into a canary and a baseline. -/
def SplitFirst (rows : List AssignmentRow) : Prop :=
  ∀ a ∈ rows, a.batch = some 1 → a.layer = 0

theorem split_first_static : Static SplitFirst := by
  intro rows g hg h a' ha' hbatch
  obtain ⟨a, ha, rfl⟩ := List.mem_map.mp ha'
  rw [(hg a ha).batch] at hbatch
  exact (hg a ha).layer.trans (h a ha hbatch)

/-- The code keeps the gate between canary and baseline when only layer 0 is split. -/
theorem canary_first_gate : KeptGate canary_first SplitFirst where
  same hsame hsame' h := by
    simpa only [canary_first, hsame.operation_id, hsame'.operation_id, hsame.layer, hsame'.layer, hsame.batch,
      hsame'.batch] using h
  operation h := h.1
  initial h _ := by
    simp only [initial_assignment_status, h.2.2.2]
    split <;> rfl
  canary {rows op_id} hshape hdone b hb hpromoted a ha h := by
    obtain ⟨hop, hlayer, -⟩ := promoted_after_canary_iff.mp hpromoted
    obtain ⟨hsame, hsame_layer, hcanary, -⟩ := h
    have hfirst : a.layer = 0 := hsame_layer.trans hlayer
    have hsettled := hdone a ha (hsame.trans hop) hfirst hcanary
    have hkept := hshape.canary_kept a ha hfirst hcanary
    have hbaseline := fun hstatus => (hshape.canary_waits a ha hstatus).2
    have hlater := fun hstatus => hshape.layer_waits a ha hstatus
    cases hstatus : a.status <;> simp_all [dispatchable, failed_flavor]
  layer {rows op_id next_layer} hshape hlayout _ _ b hb hpromoted a _ h := by
    obtain ⟨hop, -, hwaiting⟩ := promoted_after_layer_iff.mp hpromoted
    have hfirst := hlayout b (mem_rows_of.mpr ⟨hb, hop⟩) h.2.2.2
    have hlater := hshape.layer_waits b hb hwaiting
    omega

/-- The agents that something in the layer is routed to, once each. -/
def agents_in_layer (entries : List ((String × Int) × ResourceForRouting)) (layer : Int) : List String :=
  ((entries.filter fun entry => entry.1.2 = layer).map fun entry => entry.1.1).dedup

/-- Nothing is routed to layer 0, or no later layer has the several agents that
a canary splits. The count is a `u32`. -/
def CanarySplitsFirst (entries : List ((String × Int) × ResourceForRouting)) (canary : Option CanarySpec) : Prop :=
  (∀ entry ∈ entries, entry.1.2 ≠ 0) ∨ canary = none ∨
    ∀ entry ∈ entries, entry.1.2 ≠ 0 → (agents_in_layer entries entry.1.2).length % 2 ^ 32 ≤ 1

instance (entries : List ((String × Int) × ResourceForRouting)) (canary : Option CanarySpec) :
    Decidable (CanarySplitsFirst entries canary) :=
  have : Decidable (canary = none) := decidable_of_iff (canary.isNone = true) Option.isNone_iff_eq_none
  inferInstanceAs (Decidable (_ ∨ _ ∨ _))

private theorem several_agents {entries : List ((String × Int) × ResourceForRouting)} {canary : Option CanarySpec}
    {agent_id : String} {layer batch : Int} (h : batch_of (push_all [] entries) canary agent_id layer = some batch) :
    1 < (agents_in_layer entries layer).length % 2 ^ 32 := by
  obtain ⟨spec, agents, -, hentry, hlarge, -⟩ := split_of_batch h
  obtain ⟨hnodup, hagents⟩ := (bucket_agents_per_layer_spec (push_all [] entries)).2 layer agents hentry
  have hperm : agents.Perm (agents_in_layer entries layer) := by
    refine (List.perm_ext_iff_of_nodup hnodup (List.nodup_dedup _)).mpr fun a => ?_
    rw [hagents, dispatches_push_all]
    simp [and_comm]
  rwa [← hperm.length_eq]

theorem CanarySplitsFirst.lays_out {crates : Crates} {db : Store} {call : Call}
    (h : CanarySplitsFirst (call.routed crates db) call.canary) : LaysOut SplitFirst crates db call := by
  intro op_id new hnew
  refine h.imp hnew.parked fun hsplit a ha hbatch => ?_
  by_contra hlater
  rw [hnew.batch a ha] at hbatch
  obtain hnone | hsingle := hsplit
  · rw [hnone] at hbatch
    cases hbatch
  · obtain ⟨r, hentry⟩ := hnew.routed a ha
    have hfew := hsingle _ hentry hlater
    exact absurd hfew (not_le.mpr (several_agents hbatch))

/-- A released baseline assignment has only succeeded canary assignments in its layer. -/
def CanaryGated (rows : List AssignmentRow) : Prop :=
  ∀ a ∈ rows, ∀ b ∈ rows, b.operation_id = a.operation_id → b.layer = a.layer → a.batch = some 1 → b.batch = some 0 →
    released a.status = true → b.status = .succeeded

instance (rows : List AssignmentRow) : Decidable (CanaryGated rows) :=
  inferInstanceAs (Decidable (∀ a ∈ rows, ∀ b ∈ rows, _ → _ → _ → _ → _ → _))

/-- As long as canaries split layer 0 only, no run releases a baseline before
the canary of its layer has succeeded. -/
theorem canaries_are_gated {crates : Crates} {db : Store}
    (hreach : Reachable crates (fun db call => CanarySplitsFirst (call.routed crates db) call.canary) db) :
    CanaryGated (db.rows .assignments) := by
  have hgated := (reachable_gated canary_first_gate split_first_static (fun _ _ => CanarySplitsFirst.lays_out) hreach).2
  exact fun a ha b hb hop hlayer hone hzero hreleased => hgated b hb a ha ⟨hop, hlayer, hzero, hone⟩ hreleased

def half : CanarySpec := ⟨50, none⟩

/-- Two hosts with a canary in layer 0; the canary host has applied its resource. -/
def one_split_layer : List Call :=
  [.register_agent (registration "a"), .register_agent (registration "b"),
   .create_operation (submission [resource "r0" "a" [], resource "r1" "b" []] (some half)),
   .fetch_pending_assignments 60 midnight "a",
   .complete_assignment (report "a" "0" .Succeeded)]

def one_split_layer_crates : Crates := crates_on [manifest "a" [], manifest "b" []]

theorem one_split_layer_is_gated :
    ((call_all one_split_layer_crates one_split_layer migrated).rows .assignments).map
        (fun a => (a.layer, a.batch, a.status)) = [(0, some 0, .succeeded), (0, some 1, .pending)] ∧
      CanaryGated ((call_all one_split_layer_crates one_split_layer migrated).rows .assignments) := by
  refine ⟨by decide, canaries_are_gated (run_call_all one_split_layer ?_)⟩
  simp only [one_split_layer, AllAllowed]
  decide

/-- Both hosts have a resource in each of two layers, and layer 0 is applied. -/
def two_split_layers : List Call :=
  [.register_agent (registration "a"), .register_agent (registration "b"),
   .create_operation (submission [resource "r0" "a" [], resource "r1" "b" [], resource "r2" "a" ["r0"],
     resource "r3" "b" ["r1"]] (some half)),
   .fetch_pending_assignments 60 midnight "a",
   .complete_assignment (report "a" "0" .Succeeded),
   .fetch_pending_assignments 60 midnight "b",
   .complete_assignment (report "b" "2" .Succeeded)]

def two_split_layers_crates : Crates :=
  crates_on [manifest "a" [], manifest "b" [], manifest "a" ["r0"], manifest "b" ["r1"]]

/-- The baseline of layer 1 is promoted together with its canary. -/
theorem two_split_layers_are_not_gated :
    ¬ ∀ (crates : Crates) (db : Store), Reachable crates any_call db → CanaryGated (db.rows .assignments) := by
  intro hall
  have hgated := hall two_split_layers_crates _ (reachable_call_all _ two_split_layers)
  revert hgated
  decide

def lower_layer (a b : AssignmentRow) : Prop :=
  a.operation_id = b.operation_id ∧ a.layer < b.layer

/-- Below every layer of the operation is a layer of the operation. -/
def Contiguous (rows : List AssignmentRow) : Prop :=
  ∀ a ∈ rows, 0 < a.layer → ∃ b ∈ rows, b.layer = a.layer - 1

theorem contiguous_static : Static Contiguous := by
  intro rows g hg h a' ha' hlayer
  obtain ⟨a, ha, rfl⟩ := List.mem_map.mp ha'
  rw [(hg a ha).layer] at hlayer ⊢
  obtain ⟨b, hb, heq⟩ := h a ha hlayer
  exact ⟨g b, List.mem_map_of_mem hb, (hg b hb).layer.trans heq⟩

/-- Over a settled layer whose operation still waits, nothing is cancelled: it all succeeded. -/
private theorem succeeded_of_settled {rows : List AssignmentRow} (hshape : Shaped rows) {a b : AssignmentRow}
    (ha : a ∈ rows) (hb : b ∈ rows) (hop : b.operation_id = a.operation_id) (hwaiting : b.status = .pending_layer)
    (hdone : layer_running a.status = false ∧ failed_flavor a.status = false) : a.status = .succeeded := by
  have hkept := fun h => hshape.cancelled_ends a ha b hb hop h hwaiting
  cases hstatus : a.status <;> simp_all [layer_running, failed_flavor]

/-- The code keeps the gate between layers when the layers of an operation are contiguous. -/
theorem lower_layer_gate : KeptGate lower_layer Contiguous where
  same hsame hsame' h := by
    obtain ⟨hop, hlayer⟩ := h
    rw [hsame.operation_id, hsame'.operation_id] at hop
    rw [hsame.layer, hsame'.layer] at hlayer
    exact ⟨hop, hlayer⟩
  operation h := h.1
  initial h hnonneg := by
    have hlayer := h.2
    simp only [initial_assignment_status]
    rw [if_neg (by omega)]
    rfl
  canary hshape _ b _ hpromoted a ha h := by
    have hfirst := (promoted_after_canary_iff.mp hpromoted).2.1
    have hnonneg := hshape.nonneg a ha
    have hlayer := h.2
    omega
  layer {rows op_id next_layer} hshape hlayout hgated hdone b hb hpromoted a ha h := by
    obtain ⟨hop, hlayer, hwaiting⟩ := promoted_after_layer_iff.mp hpromoted
    have hbelow := h.2
    have hpositive := hshape.layer_waits b hb hwaiting
    obtain ⟨c, hc, hprev⟩ := hlayout b (mem_rows_of.mpr ⟨hb, hop⟩) hpositive
    obtain ⟨hc, hcop⟩ := mem_rows_of.mp hc
    have hsucceeded := succeeded_of_settled hshape hc hb (hop.trans hcop.symm) hwaiting
      (hdone c hc hcop (by omega))
    by_cases hgate : a.layer = next_layer - 1
    · exact succeeded_of_settled hshape ha hb h.1.symm hwaiting (hdone a ha (h.1.trans hop) hgate)
    · refine hgated a ha c hc ⟨h.1.trans (hop.trans hcop.symm), by omega⟩ ?_
      change released c.status = true
      rw [hsucceeded]
      rfl

/-- Nothing is routed to layer 0, or no layer is skipped on the way to one that something is routed to. -/
def NoGap (entries : List ((String × Int) × ResourceForRouting)) : Prop :=
  (∀ entry ∈ entries, entry.1.2 ≠ 0) ∨
    ∀ entry ∈ entries, 0 < entry.1.2 → ∃ below ∈ entries, below.1.2 = entry.1.2 - 1

instance (entries : List ((String × Int) × ResourceForRouting)) : Decidable (NoGap entries) :=
  inferInstanceAs (Decidable (_ ∨ _))

theorem NoGap.lays_out {crates : Crates} {db : Store} {call : Call} (h : NoGap (call.routed crates db)) :
    LaysOut Contiguous crates db call := by
  intro op_id new hnew
  refine h.imp hnew.parked fun hfilled a ha hlayer => ?_
  obtain ⟨r, hentry⟩ := hnew.routed a ha
  obtain ⟨⟨⟨agent_id, layer⟩, r'⟩, hbelow, hlayer'⟩ := hfilled _ hentry hlayer
  obtain ⟨b, hb, -, hb_layer⟩ := hnew.covered _ hbelow
  exact ⟨b, hb, hb_layer.trans hlayer'⟩

/-- A released assignment has nothing but succeeded ones in the layers below it. -/
def LayersGated (rows : List AssignmentRow) : Prop :=
  ∀ a ∈ rows, ∀ b ∈ rows, b.operation_id = a.operation_id → b.layer < a.layer →
    released a.status = true → b.status = .succeeded

instance (rows : List AssignmentRow) : Decidable (LayersGated rows) :=
  inferInstanceAs (Decidable (∀ a ∈ rows, ∀ b ∈ rows, _ → _ → _ → _))

/-- As long as no operation skips a layer, no run releases an assignment
before every lower layer of its operation has succeeded. -/
theorem layers_are_gated {crates : Crates} {db : Store}
    (hreach : Reachable crates (fun db call => NoGap (call.routed crates db)) db) :
    LayersGated (db.rows .assignments) := by
  have hgated := (reachable_gated lower_layer_gate contiguous_static (fun _ _ => NoGap.lays_out) hreach).2
  exact fun a ha b hb hop hlayer hreleased => hgated b hb a ha ⟨hop, hlayer⟩ hreleased

/-- Two resources in layers 0 and 1 of one host; the first is applied. -/
def two_layers : List Call :=
  [.register_agent (registration "a"),
   .create_operation (submission [resource "r0" "a" [], resource "r1" "a" ["r0"]] none),
   .fetch_pending_assignments 60 midnight "a",
   .complete_assignment (report "a" "0" .Succeeded)]

def two_layers_crates : Crates := crates_on [manifest "a" [], manifest "a" ["r0"]]

theorem two_layers_are_gated :
    ((call_all two_layers_crates two_layers migrated).rows .assignments).map (fun a => (a.layer, a.status)) =
        [(0, .succeeded), (1, .pending)] ∧
      LayersGated ((call_all two_layers_crates two_layers migrated).rows .assignments) := by
  refine ⟨by decide, layers_are_gated (run_call_all two_layers ?_)⟩
  simp only [two_layers, AllAllowed]
  decide

/-- The resource of layer 1 is for a host that never registered, and the one of
layer 0 fails. -/
def skipped_layer : List Call :=
  [.register_agent (registration "a"),
   .create_operation (submission [resource "r0" "a" [], resource "r1" "x" ["r0"], resource "r2" "a" ["r1"]] none),
   .fetch_pending_assignments 60 midnight "a",
   .complete_assignment (report "a" "0" .Failed)]

def skipped_layer_crates : Crates := crates_on [manifest "a" [], manifest "x" ["r0"], manifest "a" ["r1"]]

/-- Layer 2 is promoted although layer 0 failed. -/
theorem skipped_layer_is_not_gated :
    ¬ ∀ (crates : Crates) (db : Store), Reachable crates any_call db → LayersGated (db.rows .assignments) := by
  intro hall
  have hgated := hall skipped_layer_crates _ (reachable_call_all _ skipped_layer)
  revert hgated
  decide

end iac_controlplane.store
