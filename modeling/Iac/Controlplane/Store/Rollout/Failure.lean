import Iac.Controlplane.Store.Rollout.Layout

open sql rollout serde_json iac_core.protocol

namespace iac_controlplane.store

/-- `b` is in a later layer than `a`, or in the baseline after the canary `a`. -/
def later (a b : AssignmentRow) : Prop := lower_layer a b ∨ canary_first a b

/-- The canary batch of `a`, or its layer when `a` is in none, is terminal. -/
def BatchDone (rows : List AssignmentRow) (a : AssignmentRow) : Prop :=
  ∀ c ∈ rows, c.operation_id = a.operation_id → c.layer = a.layer → (a.batch = some 0 → c.batch = some 0) →
    terminal_assignment c.status = true

/-- Everything later than a failure in a batch that is done is cancelled. -/
def Contained (rows : List AssignmentRow) : Prop :=
  ∀ a ∈ rows, ∀ b ∈ rows, failed_flavor a.status = true → later a b → BatchDone rows a → b.status = .cancelled

private theorem mem_of_mem_updated {rows : List AssignmentRow} {which : AssignmentRow → Bool}
    {change : AssignmentRow → AssignmentRow} (status : AssignmentStatus) (hchange : ∀ a, (change a).status = status)
    {a : AssignmentRow} (ha : a ∈ rows.map (updated which change)) (hne : a.status ≠ status) : a ∈ rows := by
  obtain ⟨b, hb, rfl⟩ := List.mem_map.mp ha
  cases hwhich : which b with
  | false => rwa [updated_of_false hwhich]
  | true =>
    rw [updated_of_true hwhich] at hne
    exact absurd (hchange b) hne

private theorem canary_mem {op_id now : String} {rows after : List AssignmentRow}
    (h : CanaryGate op_id now rows after) {a : AssignmentRow} (ha : a ∈ after)
    (hstatus : a.status ≠ .pending ∧ a.status ≠ .cancelled) : a ∈ rows := by
  cases h with
  | settled | running => exact ha
  | cancel => exact mem_of_mem_updated .cancelled (fun _ => rfl) ha hstatus.2
  | promote => exact mem_of_mem_updated .pending (fun _ => rfl) ha hstatus.1

private theorem layer_mem {op_id now : String} {rows after : List AssignmentRow}
    (h : LayerGate op_id now rows after) {a : AssignmentRow} (ha : a ∈ after)
    (hstatus : a.status ≠ .pending ∧ a.status ≠ .cancelled) : a ∈ rows := by
  cases h with
  | settled | running => exact ha
  | cancel => exact mem_of_mem_updated .cancelled (fun _ => rfl) ha hstatus.2
  | promote => exact mem_of_mem_updated .pending (fun _ => rfl) ha hstatus.1

private theorem failed_ne {status : AssignmentStatus} (h : failed_flavor status = true) :
    status ≠ .pending ∧ status ≠ .cancelled ∧ status ≠ .succeeded := by
  cases status <;> simp_all [failed_flavor]

/-- What is neither released nor cancelled waits. -/
private theorem waits_of {status : AssignmentStatus} (hreleased : ¬ released status = true) (hkept : status ≠ .cancelled) :
    status = .pending_layer ∨ status = .pending_canary := by
  cases status <;> simp_all [released]

/-- A canary failure leaves no assignment of a later batch or layer waiting. -/
private theorem canary_failure {op_id now : String} {recorded canaried after : List AssignmentRow}
    (hshape : Shaped recorded) (hafter : Shaped after) (hsplit : SplitFirst (rows_of op_id after))
    (hgated : GatedRows canary_first after) (hcanary : CanaryGate op_id now recorded canaried)
    (hlayer : LayerGate op_id now canaried after) {a b : AssignmentRow} (ha : a ∈ after) (hb : b ∈ after)
    (haop : a.operation_id = op_id) (hbop : b.operation_id = op_id) (hfailed : failed_flavor a.status = true)
    (hbatch : a.batch = some 0) : ¬ (b.status = .pending_layer ∨ b.status = .pending_canary) := by
  obtain ⟨hpending, hcancelled, hsucceeded⟩ := failed_ne hfailed
  have hwaits_mem {c : AssignmentRow} (hc : c ∈ after) (h : c.status = .pending_layer ∨ c.status = .pending_canary) :
      c ∈ canaried ∧ c ∈ recorded := by
    have hne : c.status ≠ .pending ∧ c.status ≠ .cancelled := by rcases h with h | h <;> simp [h]
    exact ⟨layer_mem hlayer hc hne, canary_mem hcanary (layer_mem hlayer hc hne) hne⟩
  obtain ⟨d, hd, hdop, hdlayer, hdbatch⟩ := hafter.baseline a ha hbatch
  have hfirst : a.layer = 0 := hdlayer.symm.trans (hsplit d (mem_rows_of.mpr ⟨hd, hdop.trans haop⟩) hdbatch)
  have ha_recorded := canary_mem hcanary (layer_mem hlayer ha ⟨hpending, hcancelled⟩) ⟨hpending, hcancelled⟩
  intro hwaits
  obtain ⟨hb_canaried, hb_recorded⟩ := hwaits_mem hb hwaits
  cases hcanary with
  | settled hnone =>
    have hb_status := hwaits.resolve_right (hnone b hb_recorded hbop)
    have hheld := hgated.blocks ha hd ⟨hdop.symm, hdlayer.symm, hbatch, hdbatch⟩ hsucceeded
    have hkept := fun h => hafter.cancelled_ends d hd b hb (hbop.trans (hdop.trans haop).symm) h hb_status
    obtain hd_status | hd_status := waits_of hheld hkept
    · have hlater := hafter.layer_waits d hd hd_status
      omega
    · exact hnone d (hwaits_mem hd (.inr hd_status)).2 (hdop.trans haop) hd_status
  | running _ hclean => simp [hclean a ha_recorded haop hfirst hbatch] at hfailed
  | cancel =>
    obtain ⟨c, hc, hcb⟩ := List.mem_map.mp hb_canaried
    cases hwhich : cancelled_with_canary op_id 0 c with
    | true =>
      rw [updated_of_true hwhich] at hcb
      rw [← hcb] at hwaits
      simp [AssignmentRow.cancel] at hwaits
    | false =>
      rw [updated_of_false hwhich] at hcb
      subst hcb
      obtain hstatus | hstatus := hwaits
      · have hpositive := hshape.layer_waits c hc hstatus
        have hne : c.layer ≠ 0 := by omega
        cases hcbatch : c.batch <;>
          simp [cancelled_with_canary, not_canary_of, hbop, hstatus, layer_running, hne, hcbatch] at hwhich
      · obtain ⟨-, hone⟩ := hshape.canary_waits c hc hstatus
        simp [cancelled_with_canary, not_canary_of, hbop, hstatus, layer_running, hone] at hwhich
  | promote _ hdone => simp [(hdone a ha_recorded haop hfirst hbatch).2] at hfailed

/-- Below a layer of the operation stands every layer down to the first. -/
private theorem contiguous_down {rows : List AssignmentRow} (h : Contiguous rows) {b : AssignmentRow} (hb : b ∈ rows)
    (layer : Int) (hlow : 0 ≤ layer) (hle : layer ≤ b.layer) : ∃ c ∈ rows, c.layer = layer := by
  obtain ⟨n, hn⟩ : ∃ n : Nat, b.layer = layer + n := ⟨(b.layer - layer).toNat, by omega⟩
  induction n generalizing b with
  | zero => exact ⟨b, hb, by omega⟩
  | succ n ih =>
    obtain ⟨c, hc, hlayer⟩ := h b hb (by omega)
    exact ih hc (by omega) (by omega)

/-- The lowest waiting layer above a failure is the next one. -/
private theorem next_layer_above {op_id : String} {rows : List AssignmentRow} {next_layer : Int} (hshape : Shaped rows)
    (hlayout : Contiguous (rows_of op_id rows)) (hgated : GatedRows lower_layer rows) {a b : AssignmentRow}
    (ha : a ∈ rows) (hb : b ∈ rows) (haop : a.operation_id = op_id) (hbop : b.operation_id = op_id)
    (hfailed : failed_flavor a.status = true) (habove : a.layer < b.layer) (hwaits : b.status = .pending_layer)
    (hwaiting : ∃ w ∈ rows, w.operation_id = op_id ∧ w.layer = next_layer ∧ w.status = .pending_layer)
    (hlowest : ∀ w ∈ rows, w.operation_id = op_id → w.status = .pending_layer → next_layer ≤ w.layer)
    (hne : next_layer ≠ a.layer) : next_layer = a.layer + 1 := by
  obtain ⟨hpending, hcancelled, hsucceeded⟩ := failed_ne hfailed
  have hnonneg := hshape.nonneg a ha
  obtain ⟨e, he, helayer⟩ := contiguous_down hlayout (mem_rows_of.mpr ⟨hb, hbop⟩) (a.layer + 1) (by omega) (by omega)
  obtain ⟨he, heop⟩ := mem_rows_of.mp he
  have hheld := hgated.blocks ha he ⟨haop.trans heop.symm, by omega⟩ hsucceeded
  have hkept := fun h => hshape.cancelled_ends e he b hb (hbop.trans heop.symm) h hwaits
  have hle : next_layer ≤ a.layer + 1 := by
    obtain hstatus | hstatus := waits_of hheld hkept
    · exact helayer ▸ hlowest e he heop hstatus
    · have hfirst := (hshape.canary_waits e he hstatus).1
      omega
  obtain ⟨w, hw, hwop, hwlayer, hwstatus⟩ := hwaiting
  have hge : ¬ next_layer < a.layer := by
    intro hlt
    have hdone : w.status = .succeeded := hgated w hw a ha ⟨hwop.trans haop.symm, by omega⟩ (by
      cases hstatus : a.status <;> simp_all [failed_flavor, released])
    rw [hwstatus] at hdone
    cases hdone
  omega

/-- A failure in a layer that is done leaves no later layer waiting. -/
private theorem layer_failure {op_id now : String} {canaried after : List AssignmentRow}
    (hshape : Shaped canaried) (hlayout : Contiguous (rows_of op_id canaried)) (hgated : GatedRows lower_layer canaried)
    (hlayer : LayerGate op_id now canaried after) {a b : AssignmentRow} (ha : a ∈ after) (hb : b ∈ after)
    (haop : a.operation_id = op_id) (hbop : b.operation_id = op_id) (hfailed : failed_flavor a.status = true)
    (habove : a.layer < b.layer)
    (hdone : ∀ c ∈ after, c.operation_id = op_id → c.layer = a.layer → layer_running c.status = false) :
    b.status ≠ .pending_layer := by
  obtain ⟨hpending, hcancelled, hsucceeded⟩ := failed_ne hfailed
  intro hwaits
  have ha' := layer_mem hlayer ha ⟨hpending, hcancelled⟩
  have hb' := layer_mem hlayer hb (by simp [hwaits])
  cases hlayer with
  | settled hnone => exact hnone b hb' hbop hwaits
  | running hwaiting hrunning hlowest =>
    obtain ⟨w, hw, hwop, hwlayer, hwstatus⟩ := id hwaiting
    have hnext := next_layer_above hshape hlayout hgated ha' hb' haop hbop hfailed habove hwaits hwaiting hlowest
      fun heq => by
        have hdone := hdone w hw hwop (hwlayer.trans heq)
        simp [hwstatus, layer_running] at hdone
    obtain ⟨c, hc, hcop, hclayer, hcrunning⟩ := hrunning
    have hdone := hdone c hc hcop (by omega)
    simp [hcrunning] at hdone
  | cancel =>
    obtain ⟨c, hc, rfl⟩ := List.mem_map.mp hb
    cases hwhich : cancelled_with_layer op_id c with
    | true =>
      rw [updated_of_true hwhich] at hwaits
      cases hwaits
    | false =>
      rw [updated_of_false hwhich] at hwaits hbop
      simp [cancelled_with_layer, hbop, hwaits] at hwhich
  | promote hwaiting hlowest hsettled =>
    obtain ⟨w, hw, hwop, hwlayer, hwstatus⟩ := id hwaiting
    have hnext := next_layer_above hshape hlayout hgated ha' hb' haop hbop hfailed habove hwaits hwaiting hlowest
      fun heq => by
        have hpromoted := promoted_after_layer_iff.mpr ⟨hwop, hwlayer, hwstatus⟩
        have hdone := hdone _ (List.mem_map.mpr ⟨w, hw, updated_of_true hpromoted⟩) hwop (hwlayer.trans heq)
        simp [AssignmentRow.promote, layer_running] at hdone
    have hclean := (hsettled a ha' haop (by omega)).2
    simp [hfailed] at hclean

private theorem contained_reported {crates : Crates} {rep : Report} {rows recorded canaried : List AssignmentRow}
    {op_id : String} (hlayout : Contiguous (rows_of op_id canaried))
    (hsplit : SplitFirst (rows_of op_id (reported crates rep op_id rows)))
    (hcanaries : GatedRows canary_first (reported crates rep op_id rows))
    (hlayers : GatedRows lower_layer canaried) (hlayers' : GatedRows lower_layer (reported crates rep op_id rows))
    (hstages : ReportStages crates rep op_id rows recorded canaried) :
    ∀ a ∈ reported crates rep op_id rows, ∀ b ∈ reported crates rep op_id rows, a.operation_id = op_id →
      failed_flavor a.status = true → later a b → BatchDone (reported crates rep op_id rows) a → b.status = .cancelled := by
  intro a ha b hb haop hfailed hlater hdone
  have hbop : b.operation_id = op_id := hlater.elim (fun h => h.1.symm.trans haop) fun h => h.1.symm.trans haop
  have hheld := (hlayers'.or hcanaries).blocks ha hb hlater (failed_ne hfailed).2.2
  by_contra hkept
  have hwaits := waits_of hheld hkept
  by_cases hbatch : a.batch = some 0
  · exact canary_failure hstages.recorded_shaped hstages.shaped hsplit hcanaries hstages.canary hstages.layer
      ha hb haop hbop hfailed hbatch hwaits
  · have habove : a.layer < b.layer := (hlater.resolve_right fun h => hbatch h.2.2.1).2
    have hnonneg := hstages.shaped.nonneg a ha
    have hstatus := hwaits.resolve_right fun h => by
      have hfirst := (hstages.shaped.canary_waits b hb h).1
      omega
    refine layer_failure hstages.canaried_shaped hlayout hlayers hstages.layer ha hb haop hbop hfailed habove ?_ hstatus
    exact fun c hc hop hlayer =>
      (terminal_assignment_iff _).mp (hdone c hc (hop.trans haop.symm) hlayer fun h => absurd h hbatch)

private theorem contained_congr {before after : List AssignmentRow} {op_id : String}
    (hrows : rows_of op_id after = rows_of op_id before) {a b : AssignmentRow} (ha : a ∈ after) (hb : b ∈ after)
    (haop : a.operation_id = op_id) (hfailed : failed_flavor a.status = true) (hlater : later a b)
    (hdone : BatchDone after a) (h : Contained before) : b.status = .cancelled := by
  have hmem (c : AssignmentRow) : c ∈ after ∧ c.operation_id = op_id ↔ c ∈ before ∧ c.operation_id = op_id := by
    rw [← mem_rows_of, hrows, mem_rows_of]
  have hbop : b.operation_id = op_id := hlater.elim (fun h => h.1.symm.trans haop) fun h => h.1.symm.trans haop
  refine h a ((hmem a).mp ⟨ha, haop⟩).1 b ((hmem b).mp ⟨hb, hbop⟩).1 hfailed hlater fun c hc hop => ?_
  exact hdone c ((hmem c).mpr ⟨hc, hop.trans haop⟩).1 hop

private theorem contained_dispatched {rows : List AssignmentRow} {g : AssignmentRow → AssignmentRow}
    (hg : ∀ a ∈ rows, Redispatched a (g a)) (h : Contained rows) : Contained (rows.map g) := by
  have hadvances := redispatched_advances hg
  intro a' ha' b' hb' hfailed hlater hdone
  obtain ⟨a, ha, rfl⟩ := List.mem_map.mp ha'
  obtain ⟨b, hb, rfl⟩ := List.mem_map.mp hb'
  have ha_eq : g a = a := (hg a ha).resolve_right fun ⟨_, status, fetched_at, hnew, heq⟩ => by
    rw [heq] at hfailed
    cases status <;> simp_all [dispatchable, failed_flavor]
  rw [ha_eq] at hfailed hlater hdone
  have hlater' : later a b := by
    simpa only [later, lower_layer, canary_first, (hadvances.same hb).operation_id, (hadvances.same hb).layer,
      (hadvances.same hb).batch] using hlater
  have hcancelled := h a ha b hb hfailed hlater' fun c hc hop hlayer hbatch => by
    have hsame := hadvances.same hc
    have hterminal := hdone (g c) (List.mem_map_of_mem hc) (hsame.operation_id.trans hop) (hsame.layer.trans hlayer)
      (fun h => hsame.batch.trans (hbatch h))
    rwa [terminal_assignment_iff, Redispatched.running (hg c hc), ← terminal_assignment_iff] at hterminal
  rw [hadvances.terminal hb (by rw [hcancelled]; rfl), hcancelled]

/-- The calls that lay operations out without gaps and with a canary in layer 0 only. -/
def contained_call (crates : Crates) (db : Store) (call : Call) : Prop :=
  NoGap (call.routed crates db) ∧ CanarySplitsFirst (call.routed crates db) call.canary

instance (crates : Crates) (db : Store) (call : Call) : Decidable (contained_call crates db call) :=
  inferInstanceAs (Decidable (_ ∧ _))

theorem reachable_contained {crates : Crates} {db : Store} (hreach : Reachable crates (contained_call crates) db) :
    Contained (db.rows .assignments) := by
  induction hreach with
  | refl => simp [Contained, migrated]
  | @tail db _ hrun hstep ih =>
    obtain ⟨call, hcall, rfl⟩ := hstep
    have hconsistent := reachable_consistent hrun
    cases assignment_effect crates hconsistent call with
    | unchanged hafter => exact hafter ▸ ih
    | added op_id new hfresh hnew hafter =>
      rw [hafter]
      intro a ha b hb hfailed hlater hdone
      obtain hold | hadded := List.mem_append.mp ha
      · have hrows : rows_of a.operation_id (db.rows .assignments ++ new) = rows_of a.operation_id (db.rows .assignments) :=
          rows_of_append_of_ne hnew.operation (Ne.symm (hfresh a hold))
        exact contained_congr hrows ha hb rfl hfailed hlater hdone ih
      · have hrunning := initial_status_running a.layer a.batch
        rw [← hnew.status a hadded] at hrunning
        cases hstatus : a.status <;> simp_all [failed_flavor, layer_running]
    | dispatched g hcall hmoved hafter => exact hafter ▸ contained_dispatched hmoved ih
    | completed rep r hr haccepts hafter =>
      rw [hafter]
      obtain ⟨hlayers_laid, hlayers⟩ :=
        reachable_gated lower_layer_gate contiguous_static (fun _ _ h => NoGap.lays_out h.1) hrun
      obtain ⟨hcanaries_laid, hcanaries⟩ :=
        reachable_gated canary_first_gate split_first_static (fun _ _ h => CanarySplitsFirst.lays_out h.2) hrun
      obtain ⟨recorded, canaried, hstages⟩ :=
        report_stages crates hconsistent.assignment_ids hconsistent.shaped hr haccepts
      have hkeeps := reported_keeps crates hconsistent.assignment_ids hconsistent.shaped hr haccepts
      intro a ha b hb hfailed hlater hdone
      by_cases hop : a.operation_id = r.operation_id
      · obtain ⟨-, hlayers₂, hlayers₃⟩ := gated_stages lower_layer_gate contiguous_static hconsistent.assignment_ids
          hr haccepts (hlayers_laid.of_accepted hr haccepts) hlayers hstages
        obtain ⟨-, -, hcanaries₃⟩ := gated_stages canary_first_gate split_first_static hconsistent.assignment_ids
          hr haccepts (hcanaries_laid.of_accepted hr haccepts) hcanaries hstages
        have hlayout := contiguous_static.canaried (hlayers_laid.of_accepted hr haccepts) hstages
        refine contained_reported hlayout ?_ hcanaries₃ hlayers₂ hlayers₃ hstages a ha b hb hop hfailed hlater hdone
        obtain ⟨g, hg, hsame⟩ := hkeeps
        rw [hg]
        exact split_first_static.map_rows (fun c hc => (hsame c hc).1) (hcanaries_laid.of_accepted hr haccepts)
      · exact contained_congr (hkeeps.rows_of_eq (.inl hop)) ha hb rfl hfailed hlater hdone ih

/-- From the failure `a` on, nothing later than it is released, and
once its batch is done everything later is cancelled. -/
def StoppedBy (a : AssignmentRow) (rows : List AssignmentRow) : Prop :=
  ∀ b ∈ rows, later a b → released b.status = false ∧ (BatchDone rows a → b.status = .cancelled)

instance (a b : AssignmentRow) : Decidable (later a b) :=
  inferInstanceAs (Decidable ((_ ∧ _) ∨ (_ ∧ _ ∧ _ ∧ _)))

instance (rows : List AssignmentRow) (a : AssignmentRow) : Decidable (BatchDone rows a) :=
  inferInstanceAs (Decidable (∀ c ∈ rows, _ → _ → _ → _))

instance (a : AssignmentRow) (rows : List AssignmentRow) : Decidable (StoppedBy a rows) :=
  inferInstanceAs (Decidable (∀ b ∈ rows, _ → _ ∧ _))

/-- As long as no operation skips a layer and canaries split layer 0 only, a
failed assignment stops everything later in whatever run follows. -/
theorem failure_stops_the_rollout {crates : Crates} {db after : Store}
    (hreach : Reachable crates (contained_call crates) db) (hrun : Run crates (contained_call crates) db after)
    {a : AssignmentRow} (ha : a ∈ db.rows .assignments) (hfailed : failed_flavor a.status = true) :
    a ∈ after.rows .assignments ∧ StoppedBy a (after.rows .assignments) := by
  have hterminal : layer_running a.status = false := by
    cases hstatus : a.status <;> simp_all [failed_flavor, layer_running]
  have ha' := terminal_run (reachable_consistent hreach) hrun ha hterminal
  have hreach' : Reachable crates (contained_call crates) after := hreach.trans hrun
  have hlayers := (reachable_gated lower_layer_gate contiguous_static (fun _ _ h => NoGap.lays_out h.1) hreach').2
  have hcanaries :=
    (reachable_gated canary_first_gate split_first_static (fun _ _ h => CanarySplitsFirst.lays_out h.2) hreach').2
  refine ⟨ha', fun b hb hlater => ⟨?_, reachable_contained hreach' a ha' b hb hfailed hlater⟩⟩
  have hheld := (hlayers.or hcanaries).blocks ha' hb hlater (failed_ne hfailed).2.2
  simpa using hheld

/-- Two hosts with a canary and a later layer; the canary host fails. -/
def failed_canary : List Call :=
  [.register_agent (registration "a"), .register_agent (registration "b"),
   .create_operation (submission [resource "r0" "a" [], resource "r1" "b" [], resource "r2" "a" ["r0"]] (some half)),
   .fetch_pending_assignments 60 midnight "a",
   .complete_assignment (report "a" "0" .Failed)]

def failed_canary_crates : Crates := crates_on [manifest "a" [], manifest "b" [], manifest "a" ["r0"]]

theorem failed_canary_stops_the_rollout :
    ∃ a ∈ (call_all failed_canary_crates failed_canary migrated).rows .assignments,
      failed_flavor a.status = true ∧
      StoppedBy a ((call_all failed_canary_crates [.fetch_pending_assignments 60 midnight "b"]
        (call_all failed_canary_crates failed_canary migrated)).rows .assignments) := by
  obtain ⟨a, ha, hfailed⟩ : ∃ a ∈ (call_all failed_canary_crates failed_canary migrated).rows .assignments,
      failed_flavor a.status = true := by
    decide
  refine ⟨a, ha, hfailed, (failure_stops_the_rollout (run_call_all failed_canary ?_) (run_call_all _ ?_) ha hfailed).2⟩
  · simp only [failed_canary, AllAllowed]
    decide
  · simp only [AllAllowed]
    decide

/-- Layer 2 is pending after the failure of layer 0. -/
theorem skipped_layer_goes_on_after_failure :
    ¬ ∀ (crates : Crates) (db after : Store), Reachable crates any_call db → Run crates any_call db after →
      ∀ a ∈ db.rows .assignments, failed_flavor a.status = true →
        a ∈ after.rows .assignments ∧ StoppedBy a (after.rows .assignments) := by
  intro hall
  have hstopped := hall skipped_layer_crates _ _ (reachable_call_all _ skipped_layer) .refl
  obtain ⟨a, ha, hfailed, hgoes_on⟩ : ∃ a ∈ (call_all skipped_layer_crates skipped_layer migrated).rows .assignments,
      failed_flavor a.status = true ∧
        ¬ StoppedBy a ((call_all skipped_layer_crates skipped_layer migrated).rows .assignments) := by
    decide
  exact hgoes_on (hstopped a ha hfailed).2

end iac_controlplane.store
