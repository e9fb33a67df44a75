import Iac.Controlplane.Store.Run

open iac_core.protocol sql

namespace iac_controlplane.store

/-- The columns of an assignment that no call ever changes. -/
structure SameAssignment (a b : AssignmentRow) : Prop where
  id : b.id = a.id
  agent_id : b.agent_id = a.agent_id
  operation_id : b.operation_id = a.operation_id
  layer : b.layer = a.layer
  batch : b.batch = a.batch
  payload_json : b.payload_json = a.payload_json
  kind : b.kind = a.kind
  created_at : b.created_at = a.created_at
  expires_at : b.expires_at = a.expires_at

theorem SameAssignment.refl (a : AssignmentRow) : SameAssignment a a := ⟨rfl, rfl, rfl, rfl, rfl, rfl, rfl, rfl, rfl⟩

theorem SameAssignment.trans {a b c : AssignmentRow} (hab : SameAssignment a b) (hbc : SameAssignment b c) :
    SameAssignment a c :=
  ⟨hbc.id.trans hab.id, hbc.agent_id.trans hab.agent_id, hbc.operation_id.trans hab.operation_id,
    hbc.layer.trans hab.layer, hbc.batch.trans hab.batch, hbc.payload_json.trans hab.payload_json,
    hbc.kind.trans hab.kind, hbc.created_at.trans hab.created_at, hbc.expires_at.trans hab.expires_at⟩

/-- The assignment waits for a layer or a canary. -/
def waiting : AssignmentStatus → Bool
  | .pending_layer | .pending_canary => true
  | _ => false

/-- The assignment is finished: it was reported on or cancelled. -/
def terminal_assignment : AssignmentStatus → Bool
  | .succeeded | .failed | .partially_applied | .cancelled => true
  | _ => false

theorem terminal_assignment_iff (status : AssignmentStatus) :
    terminal_assignment status = true ↔ layer_running status = false := by
  cases status <;> simp [terminal_assignment, layer_running]

/-- What holds of the assignments of every operation, however it is laid out. -/
structure Shaped (rows : List AssignmentRow) : Prop where
  nonneg : ∀ a ∈ rows, 0 ≤ a.layer
  canary_waits : ∀ a ∈ rows, a.status = .pending_canary → a.layer = 0 ∧ a.batch = some 1
  layer_waits : ∀ a ∈ rows, a.status = .pending_layer → 0 < a.layer
  baseline : ∀ a ∈ rows, a.batch = some 0 →
    ∃ b ∈ rows, b.operation_id = a.operation_id ∧ b.layer = a.layer ∧ b.batch = some 1
  canary_kept : ∀ a ∈ rows, a.layer = 0 → a.batch = some 0 → a.status ≠ .cancelled
  cancelled_ends : ∀ a ∈ rows, ∀ b ∈ rows, b.operation_id = a.operation_id → a.status = .cancelled →
    b.status ≠ .pending_layer

/-- A running assignment moves on. It does not start to wait, and when it is
cancelled then no layer of its operation is left waiting. -/
structure Moved (rows : List AssignmentRow) (g : AssignmentRow → AssignmentRow) (a : AssignmentRow) : Prop where
  running : layer_running a.status = true
  same : SameAssignment a (g a)
  waits : waiting (g a).status = false
  cancels : (g a).status = .cancelled → ¬ (a.layer = 0 ∧ a.batch = some 0) ∧
    ∀ b ∈ rows, b.operation_id = a.operation_id → (g b).status ≠ .pending_layer

/-- How a statement changes assignment rows. -/
def Advances (rows : List AssignmentRow) (g : AssignmentRow → AssignmentRow) : Prop :=
  ∀ a ∈ rows, g a = a ∨ Moved rows g a

theorem Advances.same {rows : List AssignmentRow} {g : AssignmentRow → AssignmentRow} (hg : Advances rows g)
    {a : AssignmentRow} (ha : a ∈ rows) : SameAssignment a (g a) := by
  obtain heq | hmoved := hg a ha
  · rw [heq]
    exact SameAssignment.refl a
  · exact hmoved.same

theorem Advances.terminal {rows : List AssignmentRow} {g : AssignmentRow → AssignmentRow} (hg : Advances rows g)
    {a : AssignmentRow} (ha : a ∈ rows) (hterminal : layer_running a.status = false) : g a = a := by
  obtain heq | hmoved := hg a ha
  · exact heq
  · exact absurd hmoved.running (by simp [hterminal])

theorem Advances.waits {rows : List AssignmentRow} {g : AssignmentRow → AssignmentRow} (hg : Advances rows g)
    {a : AssignmentRow} (ha : a ∈ rows) {status : AssignmentStatus} (hstatus : (g a).status = status)
    (hwaiting : waiting status = true) : g a = a := by
  obtain heq | hmoved := hg a ha
  · exact heq
  · exact absurd hwaiting (by simp [← hstatus, hmoved.waits])

theorem Shaped.map {rows : List AssignmentRow} {g : AssignmentRow → AssignmentRow} (h : Shaped rows)
    (hg : Advances rows g) : Shaped (rows.map g) := by
  refine ⟨?_, ?_, ?_, ?_, ?_, ?_⟩ <;> simp only [List.forall_mem_map]
  · intro a ha
    rw [(hg.same ha).layer]
    exact h.nonneg a ha
  · intro a ha hstatus
    have heq := hg.waits ha hstatus rfl
    rw [heq] at hstatus ⊢
    exact h.canary_waits a ha hstatus
  · intro a ha hstatus
    have heq := hg.waits ha hstatus rfl
    rw [heq] at hstatus ⊢
    exact h.layer_waits a ha hstatus
  · intro a ha hbatch
    rw [(hg.same ha).batch] at hbatch
    obtain ⟨b, hb, hop, hlayer, hone⟩ := h.baseline a ha hbatch
    refine ⟨g b, List.mem_map_of_mem hb, ?_, ?_, (hg.same hb).batch.trans hone⟩
    · rw [(hg.same hb).operation_id, (hg.same ha).operation_id, hop]
    · rw [(hg.same hb).layer, (hg.same ha).layer, hlayer]
  · intro a ha hlayer hbatch hcancelled
    rw [(hg.same ha).layer] at hlayer
    rw [(hg.same ha).batch] at hbatch
    obtain heq | hmoved := hg a ha
    · exact h.canary_kept a ha hlayer hbatch (heq ▸ hcancelled)
    · exact (hmoved.cancels hcancelled).1 ⟨hlayer, hbatch⟩
  · intro a ha b hb hop hcancelled hstatus
    rw [(hg.same ha).operation_id, (hg.same hb).operation_id] at hop
    obtain heq | hmoved := hg a ha
    · rw [hg.waits hb hstatus rfl] at hstatus
      exact h.cancelled_ends a ha b hb hop (heq ▸ hcancelled) hstatus
    · exact (hmoved.cancels hcancelled).2 b hb hop hstatus

theorem redispatched_advances {rows : List AssignmentRow} {g : AssignmentRow → AssignmentRow}
    (hg : ∀ a ∈ rows, Redispatched a (g a)) : Advances rows g := by
  intro a ha
  obtain heq | ⟨hold, status, fetched_at, hnew, heq⟩ := hg a ha
  · exact .inl heq
  · have hstatus : (g a).status = status := by rw [heq]
    refine .inr ⟨?_, ?_, ?_, fun hcancelled => ?_⟩
    · exact running_of_dispatchable hold
    · rw [heq]
      exact ⟨rfl, rfl, rfl, rfl, rfl, rfl, rfl, rfl, rfl⟩
    · cases h : status <;> simp_all [dispatchable, waiting]
    · rw [hcancelled] at hstatus
      rw [← hstatus] at hnew
      cases hnew

theorem Redispatched.running {a b : AssignmentRow} (h : Redispatched a b) :
    layer_running b.status = layer_running a.status := by
  obtain rfl | ⟨hold, status, fetched_at, hnew, rfl⟩ := h
  · rfl
  · cases h : a.status <;> cases status <;> simp_all [dispatchable, layer_running]

/-- An UPDATE advances the rows when it picks running ones, starts nothing to
wait and cancels nothing. -/
private theorem update_advances {rows : List AssignmentRow} {which : AssignmentRow → Bool}
    {change : AssignmentRow → AssignmentRow} (hsame : ∀ a, SameAssignment a (change a))
    (hrunning : ∀ a ∈ rows, which a = true → layer_running a.status = true)
    (hwaits : ∀ a, waiting (change a).status = false)
    (hcancels : ∀ a ∈ rows, which a = true → (change a).status = .cancelled → ¬ (a.layer = 0 ∧ a.batch = some 0) ∧
      ∀ b ∈ rows, b.operation_id = a.operation_id → b.status = .pending_layer → which b = true) :
    Advances rows (updated which change) := by
  intro a ha
  cases hwhich : which a with
  | false => exact .inl (updated_of_false hwhich)
  | true =>
    have heq : updated which change a = change a := updated_of_true hwhich
    refine .inr ⟨hrunning a ha hwhich, heq ▸ hsame a, heq ▸ hwaits a, fun hcancelled => ?_⟩
    obtain ⟨hcanary, hlayers⟩ := hcancels a ha hwhich (heq ▸ hcancelled)
    refine ⟨hcanary, fun b hb hop hstatus => ?_⟩
    cases hb' : which b with
    | false =>
      rw [updated_of_false hb'] at hstatus
      exact absurd (hlayers b hb hop hstatus) (by simp [hb'])
    | true =>
      rw [updated_of_true hb'] at hstatus
      exact absurd (hwaits b) (by simp [hstatus, waiting])

theorem complete_advances (crates : Crates) {rep : Report} {rows : List AssignmentRow}
    (hids : (rows.map AssignmentRow.id).Nodup) {a : AssignmentRow} (ha : a ∈ rows)
    (haccepts : accepts_result rep a = true) :
    Advances rows (updated (fun b => b.id == rep.assignment_id) (AssignmentRow.complete crates rep)) := by
  simp only [accepts_result, Bool.and_eq_true, beq_iff_eq] at haccepts
  obtain ⟨⟨hid, -⟩, hdispatchable⟩ := haccepts
  refine update_advances (fun _ => ⟨rfl, rfl, rfl, rfl, rfl, rfl, rfl, rfl, rfl⟩) (fun b hb hwhich => ?_) (fun b => ?_)
    (fun b _ _ h => ?_)
  · obtain rfl : b = a := eq_of_key_eq hids hb ha ((by simpa using hwhich : b.id = _).trans hid.symm)
    exact running_of_dispatchable hdispatchable
  · cases h : rep.result.status <;> simp [AssignmentRow.complete, result_status, h, waiting]
  · cases h' : rep.result.status <;> simp [AssignmentRow.complete, result_status, h'] at h

theorem promote_advances {rows : List AssignmentRow} {which : AssignmentRow → Bool}
    (hwaiting : ∀ a ∈ rows, which a = true → waiting a.status = true) :
    Advances rows (updated which AssignmentRow.promote) := by
  refine update_advances (fun _ => ⟨rfl, rfl, rfl, rfl, rfl, rfl, rfl, rfl, rfl⟩) (fun a ha hwhich => ?_) (fun _ => rfl)
    (fun a _ _ h => absurd h (by simp [AssignmentRow.promote]))
  have hstatus := hwaiting a ha hwhich
  cases h : a.status <;> simp_all [waiting, layer_running]

theorem canary_cancel_advances {op_id now : String} {rows : List AssignmentRow} (hshape : Shaped rows) :
    Advances rows (updated (cancelled_with_canary op_id 0) (AssignmentRow.cancel now)) := by
  refine update_advances (fun _ => ⟨rfl, rfl, rfl, rfl, rfl, rfl, rfl, rfl, rfl⟩) (fun a _ hwhich => ?_) (fun _ => rfl)
    (fun a _ hwhich _ => ⟨?_, fun b hb hop hstatus => ?_⟩)
  · simp only [cancelled_with_canary, Bool.and_eq_true] at hwhich
    exact hwhich.1.2
  · rintro ⟨hlayer, hbatch⟩
    simp [cancelled_with_canary, not_canary_of, hlayer, hbatch] at hwhich
  · have hlayer := hshape.layer_waits b hb hstatus
    have hne : b.layer ≠ 0 := by omega
    simp only [cancelled_with_canary, Bool.and_eq_true, beq_iff_eq] at hwhich ⊢
    refine ⟨⟨hop.trans hwhich.1.1, by rw [hstatus]; rfl⟩, ?_⟩
    cases hbatch : b.batch <;> simp [not_canary_of, hbatch, hne]

theorem layer_cancel_advances {op_id now : String} {rows : List AssignmentRow} (hshape : Shaped rows) :
    Advances rows (updated (cancelled_with_layer op_id) (AssignmentRow.cancel now)) := by
  refine update_advances (fun _ => ⟨rfl, rfl, rfl, rfl, rfl, rfl, rfl, rfl, rfl⟩) (fun a _ hwhich => ?_) (fun _ => rfl)
    (fun a ha hwhich _ => ⟨?_, fun b hb hop hstatus => ?_⟩) <;>
    simp only [cancelled_with_layer, Bool.and_eq_true, beq_iff_eq] at hwhich ⊢
  · rw [hwhich.2]
    rfl
  · have hlayer := hshape.layer_waits a ha hwhich.2
    exact fun hfirst => absurd hfirst.1 (by omega)
  · exact ⟨hop.trans hwhich.1, hstatus⟩

theorem promoted_after_canary_iff {op_id : String} {layer : Int} {a : AssignmentRow} :
    promoted_after_canary op_id layer a = true ↔
      a.operation_id = op_id ∧ a.layer = layer ∧ a.status = .pending_canary := by
  simp [promoted_after_canary, and_assoc]

theorem promoted_after_layer_iff {op_id : String} {layer : Int} {a : AssignmentRow} :
    promoted_after_layer op_id layer a = true ↔
      a.operation_id = op_id ∧ a.layer = layer ∧ a.status = .pending_layer := by
  simp [promoted_after_layer, and_assoc]

theorem canary_promote_advances (op_id : String) (layer : Int) (rows : List AssignmentRow) :
    Advances rows (updated (promoted_after_canary op_id layer) AssignmentRow.promote) :=
  promote_advances fun a _ hwhich => by rw [(promoted_after_canary_iff.mp hwhich).2.2]; rfl

theorem layer_promote_advances (op_id : String) (layer : Int) (rows : List AssignmentRow) :
    Advances rows (updated (promoted_after_layer op_id layer) AssignmentRow.promote) :=
  promote_advances fun a _ hwhich => by rw [(promoted_after_layer_iff.mp hwhich).2.2]; rfl

theorem CanaryGate.advances {op_id now : String} {rows after : List AssignmentRow} (hshape : Shaped rows)
    (h : CanaryGate op_id now rows after) :
    ∃ g, after = rows.map g ∧ Advances rows g ∧ ∀ a ∈ rows, a.operation_id ≠ op_id → g a = a := by
  cases h with
  | settled | running => exact ⟨id, (List.map_id _).symm, fun _ _ => .inl rfl, fun _ _ _ => rfl⟩
  | cancel =>
    exact ⟨_, rfl, canary_cancel_advances hshape,
      fun a _ hother => updated_of_false (by simp [cancelled_with_canary, hother])⟩
  | promote =>
    exact ⟨_, rfl, canary_promote_advances op_id 0 rows,
      fun a _ hother => updated_of_false (by simp [promoted_after_canary, hother])⟩

theorem LayerGate.advances {op_id now : String} {rows after : List AssignmentRow} (hshape : Shaped rows)
    (h : LayerGate op_id now rows after) :
    ∃ g, after = rows.map g ∧ Advances rows g ∧ ∀ a ∈ rows, a.operation_id ≠ op_id → g a = a := by
  cases h with
  | settled | running => exact ⟨id, (List.map_id _).symm, fun _ _ => .inl rfl, fun _ _ _ => rfl⟩
  | cancel =>
    exact ⟨_, rfl, layer_cancel_advances hshape,
      fun a _ hother => updated_of_false (by simp [cancelled_with_layer, hother])⟩
  | promote =>
    exact ⟨_, rfl, layer_promote_advances op_id _ rows,
      fun a _ hother => updated_of_false (by simp [promoted_after_layer, hother])⟩

theorem Shaped.append {op_id : String} {entries : List ((String × Int) × ResourceForRouting)}
    {canary : Option CanarySpec} {rows new : List AssignmentRow} (h : Shaped rows)
    (hfresh : ∀ a ∈ rows, a.operation_id ≠ op_id) (hnew : NewAssignments op_id entries canary new) :
    Shaped (rows ++ new) := by
  have hbatch : ∀ a ∈ new, ∀ b, a.batch = some b → (b = 0 ∨ b = 1) ∧
      ∃ c ∈ new, c.operation_id = a.operation_id ∧ c.layer = a.layer ∧ c.batch = some 1 := by
    intro a ha b hb
    obtain ⟨hvalues, -, agent_id, hdispatched, hone⟩ := batch_of_some ((hnew.batch a ha).symm.trans hb)
    obtain ⟨r, hentry⟩ := (dispatches_push_all entries agent_id a.layer).mp hdispatched
    obtain ⟨c, hc, hagent, hlayer⟩ := hnew.covered _ hentry
    refine ⟨hvalues, c, hc, ?_, hlayer, ?_⟩
    · rw [hnew.operation c hc, hnew.operation a ha]
    · rw [hnew.batch c hc, hagent, hlayer, hone]
  have hstatus : ∀ a ∈ new, (a.status = .pending_canary → a.layer = 0 ∧ a.batch = some 1) ∧
      (a.status = .pending_layer → a.layer ≠ 0) ∧ a.status ≠ .cancelled := by
    intro a ha
    rw [hnew.status a ha]
    simp only [initial_assignment_status]
    split
    · rename_i hlayer
      split <;> simp_all
      rename_i b hzero hone hb
      rcases (hbatch a ha b hb).1 with rfl | rfl <;> simp_all
    · rename_i hlayer
      simp [hlayer]
  refine ⟨?_, ?_, ?_, ?_, ?_, ?_⟩ <;> intro a ha <;> rcases List.mem_append.mp ha with hold | hadded
  · exact h.nonneg a hold
  · exact hnew.nonneg a hadded
  · exact h.canary_waits a hold
  · exact (hstatus a hadded).1
  · exact h.layer_waits a hold
  · exact fun hwaits => lt_of_le_of_ne (hnew.nonneg a hadded) (Ne.symm ((hstatus a hadded).2.1 hwaits))
  · intro hzero
    obtain ⟨b, hb, hrest⟩ := h.baseline a hold hzero
    exact ⟨b, List.mem_append_left _ hb, hrest⟩
  · intro hzero
    obtain ⟨-, b, hb, hrest⟩ := hbatch a hadded 0 hzero
    exact ⟨b, List.mem_append_right _ hb, hrest⟩
  · exact h.canary_kept a hold
  · exact fun _ _ => (hstatus a hadded).2.2
  · intro b hb hop hcancelled
    obtain hb | hb := List.mem_append.mp hb
    · exact h.cancelled_ends a hold b hb hop hcancelled
    · exact absurd (hop.symm.trans (hnew.operation b hb)) (hfresh a hold)
  · exact fun b _ _ hcancelled => absurd hcancelled (hstatus a hadded).2.2

/-- The three changes that an accepted report makes to the assignments, one after the other. -/
structure ReportStages (crates : Crates) (rep : Report) (op_id : String)
    (rows recorded canaried : List AssignmentRow) : Prop where
  recorded_eq :
    recorded = rows.map (updated (fun b => b.id == rep.assignment_id) (AssignmentRow.complete crates rep))
  completes : Advances rows (updated (fun b => b.id == rep.assignment_id) (AssignmentRow.complete crates rep))
  recorded_shaped : Shaped recorded
  canary : CanaryGate op_id rep.now.to_string recorded canaried
  canaried_shaped : Shaped canaried
  layer : LayerGate op_id rep.now.to_string canaried (reported crates rep op_id rows)
  shaped : Shaped (reported crates rep op_id rows)

theorem report_stages (crates : Crates) {rep : Report} {rows : List AssignmentRow} {a : AssignmentRow}
    (hids : (rows.map AssignmentRow.id).Nodup) (hshape : Shaped rows) (ha : a ∈ rows)
    (haccepts : accepts_result rep a = true) :
    ∃ recorded canaried, ReportStages crates rep a.operation_id rows recorded canaried := by
  have hcomplete := complete_advances crates hids ha haccepts
  have hrecorded := hshape.map hcomplete
  have hcanary := canary_advanced_cases rep.now.to_string
    (fun b hb _ hstatus => (hrecorded.canary_waits b hb hstatus).1 : ∀ b ∈ _, b.operation_id = a.operation_id → _)
  obtain ⟨g, hg, hadvances, -⟩ := hcanary.advances hrecorded
  have hcanaried := hg ▸ hrecorded.map hadvances
  have hlayer := layers_advanced_cases a.operation_id rep.now.to_string
    (canary_advanced a.operation_id rep.now.to_string
      (rows.map (updated (fun b => b.id == rep.assignment_id) (AssignmentRow.complete crates rep))))
  obtain ⟨g', hg', hadvances', -⟩ := hlayer.advances hcanaried
  refine ⟨_, _, rfl, hcomplete, hrecorded, hcanary, hcanaried, hlayer, ?_⟩
  rw [reported, hg']
  exact hcanaried.map hadvances'

/-- What a change of assignment rows keeps: every row, its identity and, once
it is terminal or when its operation is none of `touched`, all of it. -/
def Keeps (touched : String → Prop) (before after : List AssignmentRow) : Prop :=
  ∃ g, after = before.map g ∧ ∀ a ∈ before, SameAssignment a (g a) ∧
    (layer_running a.status = false ∨ ¬ touched a.operation_id → g a = a)

theorem Keeps.refl (touched : String → Prop) (rows : List AssignmentRow) : Keeps touched rows rows :=
  ⟨id, (List.map_id _).symm, fun a _ => ⟨SameAssignment.refl a, fun _ => rfl⟩⟩

theorem Advances.keeps {touched : String → Prop} {rows : List AssignmentRow} {g : AssignmentRow → AssignmentRow}
    (hg : Advances rows g) (htouched : ∀ a ∈ rows, ¬ touched a.operation_id → g a = a) :
    Keeps touched rows (rows.map g) :=
  ⟨g, rfl, fun a ha => ⟨hg.same ha, fun h => h.elim (hg.terminal ha) (htouched a ha)⟩⟩

theorem Keeps.trans {touched : String → Prop} {a b c : List AssignmentRow} (hab : Keeps touched a b)
    (hbc : Keeps touched b c) : Keeps touched a c := by
  obtain ⟨f, rfl, hf⟩ := hab
  obtain ⟨g, rfl, hg⟩ := hbc
  refine ⟨g ∘ f, List.map_map .., fun row hrow => ?_⟩
  obtain ⟨hsame, hfixed⟩ := hf row hrow
  obtain ⟨hsame', hfixed'⟩ := hg (f row) (List.mem_map_of_mem hrow)
  refine ⟨hsame.trans hsame', fun hdone => ?_⟩
  have heq := hfixed hdone
  rw [heq] at hfixed'
  rw [Function.comp_apply, heq, hfixed' hdone]

theorem reported_keeps (crates : Crates) {rep : Report} {rows : List AssignmentRow} {a : AssignmentRow}
    (hids : (rows.map AssignmentRow.id).Nodup) (hshape : Shaped rows) (ha : a ∈ rows)
    (haccepts : accepts_result rep a = true) :
    Keeps (· = a.operation_id) rows (reported crates rep a.operation_id rows) := by
  obtain ⟨recorded, canaried, hstages⟩ := report_stages crates hids hshape ha haccepts
  obtain ⟨g, rfl, hg, hothers⟩ := hstages.canary.advances hstages.recorded_shaped
  obtain ⟨g', hg', hadvances', hothers'⟩ := hstages.layer.advances hstages.canaried_shaped
  rw [hg']
  refine Keeps.trans ?_ ((hg.keeps hothers).trans (hadvances'.keeps hothers'))
  rw [hstages.recorded_eq]
  refine hstages.completes.keeps fun b hb hother => updated_of_false (Bool.eq_false_iff.mpr fun hwhich => hother ?_)
  simp only [accepts_result, Bool.and_eq_true, beq_iff_eq] at haccepts hwhich
  rw [eq_of_key_eq hids hb ha (hwhich.trans haccepts.1.1.symm)]

theorem result_status_terminal (status : AssignmentResultStatus) : layer_running (result_status status) = false := by
  cases status <;> rfl

/-- The assignment that was reported on stays as the report left it. -/
theorem completed_mem_reported (crates : Crates) {rep : Report} {rows : List AssignmentRow} {a : AssignmentRow}
    (hids : (rows.map AssignmentRow.id).Nodup) (hshape : Shaped rows) (ha : a ∈ rows)
    (haccepts : accepts_result rep a = true) :
    AssignmentRow.complete crates rep a ∈ reported crates rep a.operation_id rows := by
  have hterminal : layer_running (AssignmentRow.complete crates rep a).status = false :=
    result_status_terminal rep.result.status
  obtain ⟨recorded, canaried, hstages⟩ := report_stages crates hids hshape ha haccepts
  have hrecorded : AssignmentRow.complete crates rep a ∈ recorded := by
    simp only [accepts_result, Bool.and_eq_true] at haccepts
    rw [hstages.recorded_eq]
    exact List.mem_map.mpr ⟨a, ha, updated_of_true haccepts.1.1⟩
  obtain ⟨g, hg, hadvances, -⟩ := hstages.canary.advances hstages.recorded_shaped
  have hcanaried : AssignmentRow.complete crates rep a ∈ canaried :=
    hg ▸ List.mem_map.mpr ⟨_, hrecorded, hadvances.terminal hrecorded hterminal⟩
  obtain ⟨g', hg', hadvances', -⟩ := hstages.layer.advances hstages.canaried_shaped
  exact hg' ▸ List.mem_map.mpr ⟨_, hcanaried, hadvances'.terminal hcanaried hterminal⟩

/-- The operation awaits a decision or was rejected: it has no assignments. -/
def undecided : OperationStatus → Bool
  | .pending_approval | .rejected => true
  | _ => false

/-- The invariant of every serial run: keys are unique, every assignment
belongs to an operation that is past its approval, and the assignments are shaped. -/
structure Consistent (db : Store) : Prop where
  assignment_ids : ((db.rows .assignments).map AssignmentRow.id).Nodup
  operation_ids : ((db.rows .operations).map OperationRow.id).Nodup
  owned : ∀ a ∈ db.rows .assignments, ∃ op ∈ db.rows .operations, op.id = a.operation_id
  undecided : ∀ op ∈ db.rows .operations, undecided op.status = true → ∀ a ∈ db.rows .assignments, a.operation_id ≠ op.id
  shaped : Shaped (db.rows .assignments)

theorem consistent_of_rows {db after : Store} (h : Consistent db)
    (hoperations : after.rows .operations = db.rows .operations)
    (hassignments : after.rows .assignments = db.rows .assignments) : Consistent after where
  assignment_ids := hassignments ▸ h.assignment_ids
  operation_ids := hoperations ▸ h.operation_ids
  owned := hassignments ▸ hoperations ▸ h.owned
  undecided := hassignments ▸ hoperations ▸ h.undecided
  shaped := hassignments ▸ h.shaped

theorem consistent_migrated : Consistent migrated := by
  refine ⟨?_, ?_, ?_, ?_, ⟨?_, ?_, ?_, ?_, ?_, ?_⟩⟩ <;> simp [migrated]

/-- The columns of an operation that no UPDATE changes. -/
structure SameOperation (a b : OperationRow) : Prop where
  id : b.id = a.id
  kind : b.kind = a.kind
  environment : b.environment = a.environment
  requested_by : b.requested_by = a.requested_by
  created_at : b.created_at = a.created_at
  requires_approval : b.requires_approval = a.requires_approval
  matched_policies_json : b.matched_policies_json = a.matched_policies_json

theorem SameOperation.refl (op : OperationRow) : SameOperation op op := ⟨rfl, rfl, rfl, rfl, rfl, rfl, rfl⟩

theorem SameOperation.trans {a b c : OperationRow} (hab : SameOperation a b) (hbc : SameOperation b c) :
    SameOperation a c where
  id := hbc.id.trans hab.id
  kind := hbc.kind.trans hab.kind
  environment := hbc.environment.trans hab.environment
  requested_by := hbc.requested_by.trans hab.requested_by
  created_at := hbc.created_at.trans hab.created_at
  requires_approval := hbc.requires_approval.trans hab.requires_approval
  matched_policies_json := hbc.matched_policies_json.trans hab.matched_policies_json

/-- An UPDATE of operations that keeps what was submitted and returns none to its approval. -/
def Decides (before after : List OperationRow) : Prop :=
  ∃ g, after = before.map g ∧
    ∀ op ∈ before, SameOperation op (g op) ∧ (undecided (g op).status = true → undecided op.status = true)

theorem Decides.refl (operations : List OperationRow) : Decides operations operations :=
  ⟨id, (List.map_id _).symm, fun op _ => ⟨.refl op, id⟩⟩

theorem Started.decides {now : String} {before after : List OperationRow} (h : Started now before after) :
    Decides before after := by
  obtain ⟨chosen, rfl⟩ := h
  refine ⟨_, rfl, fun op _ => ?_⟩
  simp only [updated]
  split
  · exact ⟨⟨rfl, rfl, rfl, rfl, rfl, rfl, rfl⟩, fun h => by cases h⟩
  · exact ⟨.refl op, id⟩

theorem final_status_decided (counts : List (AssignmentStatus × Nat)) : undecided (final_status counts) = false := by
  simp only [final_status]
  split_ifs <;> rfl

theorem rolled_up_decides (op_id now : String) (rows : List AssignmentRow) (operations : List OperationRow) :
    Decides operations (rolled_up op_id now rows operations) := by
  rw [rolled_up]
  split_ifs
  · exact Decides.refl _
  · refine ⟨_, rfl, fun op _ => ?_⟩
    simp only [updated]
    split_ifs
    · exact ⟨⟨rfl, rfl, rfl, rfl, rfl, rfl, rfl⟩, fun h => absurd h (by simp [OperationRow.settle, final_status_decided])⟩
    · exact ⟨.refl op, id⟩

theorem reject_decides (req : RejectRequest) (operations : List OperationRow) :
    Decides operations (operations.map (updated (awaits_approval req.op_id) (OperationRow.reject req))) := by
  refine ⟨_, rfl, fun op _ => ?_⟩
  cases hawaits : awaits_approval req.op_id op with
  | false =>
    rw [updated_of_false hawaits]
    exact ⟨.refl op, id⟩
  | true =>
    simp only [awaits_approval, Bool.and_eq_true, beq_iff_eq] at hawaits
    rw [updated_of_true (by simp [awaits_approval, hawaits])]
    exact ⟨⟨rfl, rfl, rfl, rfl, rfl, rfl, rfl⟩, fun _ => by rw [hawaits.2]; rfl⟩

theorem approve_decides (req : ApproveRequest) (count : Nat) (operations : List OperationRow) :
    Decides operations (operations.map (updated (awaits_approval req.op_id) (OperationRow.approve req count))) := by
  refine ⟨_, rfl, fun op _ => ?_⟩
  simp only [updated]
  split_ifs
  · refine ⟨⟨rfl, rfl, rfl, rfl, rfl, rfl, rfl⟩, fun h => ?_⟩
    simp only [OperationRow.approve] at h
    split at h <;> cases h
  · exact ⟨.refl op, id⟩

/-- Deciding operations and advancing assignments keeps the store consistent. -/
theorem Consistent.advance {db after : Store} (h : Consistent db) (touched : String → Prop)
    (hoperations : Decides (db.rows .operations) (after.rows .operations))
    (hassignments : Keeps touched (db.rows .assignments) (after.rows .assignments))
    (hshape : Shaped (after.rows .assignments)) : Consistent after := by
  obtain ⟨f, hf, hops⟩ := hoperations
  obtain ⟨g, hg, hrows⟩ := hassignments
  refine ⟨?_, ?_, ?_, ?_, hshape⟩
  · rw [hg, map_key_map fun a ha => (hrows a ha).1.id]
    exact h.assignment_ids
  · rw [hf, map_key_map fun op hop => (hops op hop).1.id]
    exact h.operation_ids
  · rw [hg, hf]
    simp only [List.forall_mem_map]
    intro a ha
    obtain ⟨op, hop, hid⟩ := h.owned a ha
    exact ⟨f op, List.mem_map_of_mem hop, by rw [(hops op hop).1.id, (hrows a ha).1.operation_id, hid]⟩
  · rw [hg, hf]
    simp only [List.forall_mem_map]
    intro op hop hundecided a ha
    rw [(hops op hop).1.id, (hrows a ha).1.operation_id]
    exact h.undecided op hop ((hops op hop).2 hundecided) a ha

theorem Consistent.insert_operation {db after : Store} (h : Consistent db) {op : OperationRow}
    (hfresh : ∀ other ∈ db.rows .operations, other.id ≠ op.id)
    (hoperations : after.rows .operations = db.rows .operations ++ [op])
    (hassignments : after.rows .assignments = db.rows .assignments) : Consistent after := by
  refine ⟨hassignments ▸ h.assignment_ids, ?_, ?_, ?_, hassignments ▸ h.shaped⟩
  · exact hoperations ▸ nodup_keys_append h.operation_ids hfresh
  · rw [hassignments, hoperations]
    intro a ha
    obtain ⟨owner, howner, hid⟩ := h.owned a ha
    exact ⟨owner, List.mem_append_left _ howner, hid⟩
  · rw [hassignments, hoperations]
    intro other hother hundecided a ha
    obtain hold | hadded := List.mem_append.mp hother
    · exact h.undecided other hold hundecided a ha
    · obtain rfl := List.mem_singleton.mp hadded
      obtain ⟨owner, howner, hid⟩ := h.owned a ha
      exact fun heq => hfresh owner howner (hid.trans heq)

theorem Consistent.insert_assignments {db after : Store} (h : Consistent db) (op : OperationRow)
    {entries : List ((String × Int) × ResourceForRouting)} {canary : Option CanarySpec} {new : List AssignmentRow}
    (hop : op ∈ db.rows .operations) (hdecided : store.undecided op.status = false)
    (hfresh : ∀ a ∈ db.rows .assignments, a.operation_id ≠ op.id) (hnew : NewAssignments op.id entries canary new)
    (hoperations : after.rows .operations = db.rows .operations)
    (hassignments : after.rows .assignments = db.rows .assignments ++ new)
    (hids : ((after.rows .assignments).map AssignmentRow.id).Nodup) : Consistent after := by
  refine ⟨hids, hoperations ▸ h.operation_ids, ?_, ?_, hassignments ▸ h.shaped.append hfresh hnew⟩
  · rw [hassignments, hoperations]
    intro a ha
    obtain hold | hadded := List.mem_append.mp ha
    · exact h.owned a hold
    · exact ⟨op, hop, (hnew.operation a hadded).symm⟩
  · rw [hassignments, hoperations]
    intro other hother hundecided a ha heq
    obtain hold | hadded := List.mem_append.mp ha
    · exact h.undecided other hother hundecided a hold heq
    · have hid : other.id = op.id := heq.symm.trans (hnew.operation a hadded)
      obtain rfl := eq_of_key_eq h.operation_ids hother hop hid
      simp [hdecided] at hundecided

theorem awaits_undecided {op_id : String} {op : OperationRow} (h : awaits_approval op_id op = true) :
    op.id = op_id ∧ undecided op.status = true := by
  simp only [awaits_approval, Bool.and_eq_true, beq_iff_eq] at h
  exact ⟨h.1, by rw [h.2]; rfl⟩

/-- Every call keeps the store consistent. -/
theorem Consistent.after {crates : Crates} {db : Store} (h : Consistent db) (call : Call) :
    Consistent (call.after crates db) := by
  have hsame := Keeps.refl fun _ => False
  cases call_effect crates call h.assignment_ids with
  | unchanged hoperations hassignments =>
    refine h.advance (fun _ => False) ?_ ?_ ?_
    · exact hoperations ▸ Decides.refl _
    · exact hassignments ▸ hsame _
    · exact hassignments ▸ h.shaped
  | deferred op hstatus hfresh hoperations hassignments => exact h.insert_operation hfresh hoperations hassignments
  | created op new hstatus hfresh hnew hoperations hassignments hids =>
    have hmid : Consistent (db.set_rows .operations (db.rows .operations ++ [op])) :=
      h.insert_operation hfresh (by simp) (by simp)
    refine hmid.insert_assignments op (by simp) ?_ ?_ hnew (by simpa using hoperations)
      (by simpa using hassignments) (hids h.assignment_ids)
    · rw [hstatus]
      split <;> rfl
    · intro a ha heq
      obtain ⟨owner, howner, hid⟩ := h.owned a (by simpa using ha)
      exact hfresh owner howner (hid.trans heq)
  | approved op req new hop hawaits hnew hoperations hassignments hids =>
    obtain ⟨hid, hundecided⟩ := awaits_undecided hawaits
    have hmid : Consistent (db.set_rows .operations ((db.rows .operations).map
        (updated (awaits_approval req.op_id) (OperationRow.approve req new.length)))) := by
      refine h.advance (fun _ => False) ?_ ?_ ?_
      · simpa using approve_decides req new.length _
      · simpa using hsame _
      · simpa using h.shaped
    refine hmid.insert_assignments (OperationRow.approve req new.length op) ?_ ?_ ?_ hnew
      (by simpa using hoperations) (by simpa using hassignments) (hids h.assignment_ids)
    · rw [Db.set_rows_self]
      exact List.mem_map.mpr ⟨op, hop, updated_of_true hawaits⟩
    · simp only [OperationRow.approve]
      split <;> rfl
    · simpa [OperationRow.approve] using h.undecided op hop hundecided
  | rejected req hoperations hassignments =>
    refine h.advance (fun _ => False) ?_ ?_ ?_
    · exact hoperations ▸ reject_decides req _
    · exact hassignments ▸ hsame _
    · exact hassignments ▸ h.shaped
  | dispatched now g hcall hmoved hoperations hassignments =>
    have hadvances := redispatched_advances hmoved
    refine h.advance (fun _ => True) hoperations.decides ?_ ?_
    · exact hassignments ▸ hadvances.keeps fun _ _ hnone => absurd trivial hnone
    · exact hassignments ▸ h.shaped.map hadvances
  | completed rep a ha haccepts hoperations hassignments =>
    refine h.advance (· = a.operation_id) ?_ ?_ ?_
    · exact hoperations ▸ rolled_up_decides _ _ _ _
    · exact hassignments ▸ reported_keeps crates h.assignment_ids h.shaped ha haccepts
    · obtain ⟨recorded, canaried, hstages⟩ := report_stages crates h.assignment_ids h.shaped ha haccepts
      exact hassignments ▸ hstages.shaped

/-- Every call keeps the operations that are there, and decides some of them. -/
theorem operations_after (crates : Crates) {db : Store} (h : Consistent db) (call : Call) :
    ∃ kept new, (call.after crates db).rows .operations = kept ++ new ∧ Decides (db.rows .operations) kept := by
  cases call_effect crates call h.assignment_ids with
  | unchanged hoperations _ => exact ⟨_, [], hoperations.trans (List.append_nil _).symm, Decides.refl _⟩
  | deferred op _ _ hoperations _ | created op _ _ _ _ hoperations _ _ => exact ⟨_, [op], hoperations, Decides.refl _⟩
  | approved op req new _ _ _ hoperations _ _ =>
    exact ⟨_, [], hoperations.trans (List.append_nil _).symm, approve_decides req new.length _⟩
  | rejected req hoperations _ => exact ⟨_, [], hoperations.trans (List.append_nil _).symm, reject_decides req _⟩
  | dispatched now g _ _ hoperations _ => exact ⟨_, [], (List.append_nil _).symm, hoperations.decides⟩
  | completed rep a _ _ hoperations _ =>
    exact ⟨_, [], hoperations.trans (List.append_nil _).symm, rolled_up_decides _ _ _ _⟩

/-- What a call can do to the assignments of a consistent store. -/
inductive AssignmentEffect (crates : Crates) (db : Store) (call : Call) (after : List AssignmentRow) : Prop where
  | unchanged (hafter : after = db.rows .assignments)
  | added (op_id : String) (new : List AssignmentRow) (hfresh : ∀ a ∈ db.rows .assignments, a.operation_id ≠ op_id)
      (hnew : NewAssignments op_id (call.routed crates db) call.canary new)
      (hafter : after = db.rows .assignments ++ new)
  | dispatched (g : AssignmentRow → AssignmentRow) (hcall : call.redispatches = true)
      (hmoved : ∀ a ∈ db.rows .assignments, Redispatched a (g a)) (hafter : after = (db.rows .assignments).map g)
  | completed (rep : Report) (a : AssignmentRow) (ha : a ∈ db.rows .assignments)
      (haccepts : accepts_result rep a = true)
      (hafter : after = reported crates rep a.operation_id (db.rows .assignments))

theorem assignment_effect (crates : Crates) {db : Store} (h : Consistent db) (call : Call) :
    AssignmentEffect crates db call ((call.after crates db).rows .assignments) := by
  cases call_effect crates call h.assignment_ids with
  | unchanged _ hassignments | deferred _ _ _ _ hassignments | rejected _ _ hassignments =>
    exact .unchanged hassignments
  | created op new _ hfresh hnew _ hassignments _ =>
    refine .added op.id new (fun a ha heq => ?_) hnew hassignments
    obtain ⟨owner, howner, hid⟩ := h.owned a ha
    exact hfresh owner howner (hid.trans heq)
  | approved op req new hop hawaits hnew _ hassignments _ =>
    exact .added op.id new (h.undecided op hop (awaits_undecided hawaits).2) hnew hassignments
  | dispatched now g hcall hmoved _ hassignments => exact .dispatched g hcall hmoved hassignments
  | completed rep a ha haccepts _ hassignments => exact .completed rep a ha haccepts hassignments

/-- Every call keeps the assignments that are there, and those that are terminal as they are. -/
theorem assignments_after {crates : Crates} {db : Store} (h : Consistent db) (call : Call) :
    ∃ kept new, (call.after crates db).rows .assignments = kept ++ new ∧
      Keeps (fun _ => True) (db.rows .assignments) kept := by
  cases assignment_effect crates h call with
  | unchanged hafter => exact ⟨_, [], hafter.trans (List.append_nil _).symm, Keeps.refl _ _⟩
  | added op_id new _ _ hafter => exact ⟨_, new, hafter, Keeps.refl _ _⟩
  | dispatched g hcall hmoved hafter =>
    exact ⟨_, [], hafter.trans (List.append_nil _).symm,
      (redispatched_advances hmoved).keeps fun _ _ hnone => absurd trivial hnone⟩
  | completed rep a ha haccepts hafter =>
    obtain ⟨g, hg, hkeeps⟩ := reported_keeps crates h.assignment_ids h.shaped ha haccepts
    refine ⟨_, [], (hafter.trans hg).trans (List.append_nil _).symm, g, rfl, fun b hb => ⟨(hkeeps b hb).1, fun hfixed => ?_⟩⟩
    exact (hkeeps b hb).2 (.inl (hfixed.resolve_right fun hnone => hnone trivial))

theorem terminal_after {crates : Crates} {db : Store} (h : Consistent db) {a : AssignmentRow}
    (ha : a ∈ db.rows .assignments) (hterminal : layer_running a.status = false) (call : Call) :
    a ∈ (call.after crates db).rows .assignments := by
  obtain ⟨kept, new, hassignments, g, rfl, hg⟩ := assignments_after h call
  rw [hassignments]
  exact List.mem_append_left _ (List.mem_map.mpr ⟨a, ha, (hg a ha).2 (.inl hterminal)⟩)

theorem Consistent.run {crates : Crates} {allowed : Store → Call → Prop} {db after : Store} (h : Consistent db)
    (hrun : Run crates allowed db after) : Consistent after := by
  induction hrun with
  | refl => exact h
  | tail _ hstep ih =>
    obtain ⟨call, -, rfl⟩ := hstep
    exact ih.after call

theorem reachable_consistent {crates : Crates} {allowed : Store → Call → Prop} {db : Store}
    (h : Reachable crates allowed db) : Consistent db :=
  consistent_migrated.run h

/-- An operation stays what was submitted in every run, and is not returned to its approval. -/
theorem operation_run {crates : Crates} {allowed : Store → Call → Prop} {db after : Store} (h : Consistent db)
    (hrun : Run crates allowed db after) {op : OperationRow} (hop : op ∈ db.rows .operations) :
    ∃ op' ∈ after.rows .operations, SameOperation op op' ∧ (undecided op'.status = true → undecided op.status = true) := by
  induction hrun with
  | refl => exact ⟨op, hop, .refl op, id⟩
  | tail hbefore hstep ih =>
    obtain ⟨call, -, rfl⟩ := hstep
    obtain ⟨mid, hmid, hsame, hundecided⟩ := ih
    obtain ⟨kept, new, hoperations, g, rfl, hg⟩ := operations_after crates (h.run hbefore) call
    rw [hoperations]
    obtain ⟨hsame', hundecided'⟩ := hg mid hmid
    exact ⟨g mid, List.mem_append_left _ (List.mem_map_of_mem hmid), SameOperation.trans hsame hsame',
      fun h => hundecided (hundecided' h)⟩

/-- A terminal assignment stays as it is in every run. -/
theorem terminal_run {crates : Crates} {allowed : Store → Call → Prop} {db after : Store} (h : Consistent db)
    (hrun : Run crates allowed db after) {a : AssignmentRow} (ha : a ∈ db.rows .assignments)
    (hterminal : layer_running a.status = false) : a ∈ after.rows .assignments := by
  induction hrun with
  | refl => exact ha
  | tail hbefore hstep ih =>
    obtain ⟨call, -, rfl⟩ := hstep
    exact terminal_after (h.run hbefore) ih hterminal call

/-- The assignments of an operation. -/
def rows_of (op_id : String) (rows : List AssignmentRow) : List AssignmentRow :=
  rows.filter fun a => a.operation_id == op_id

theorem initial_status_running (layer : Int) (batch : Option Int) :
    layer_running (initial_assignment_status layer batch) = true := by
  simp only [initial_assignment_status]
  split
  · split <;> rfl
  · rfl

@[simp] theorem mem_rows_of {op_id : String} {rows : List AssignmentRow} {a : AssignmentRow} :
    a ∈ rows_of op_id rows ↔ a ∈ rows ∧ a.operation_id = op_id := by
  simp [rows_of]

theorem rows_of_append_of_ne {op_id other : String} {rows new : List AssignmentRow}
    (hnew : ∀ a ∈ new, a.operation_id = other) (hne : other ≠ op_id) :
    rows_of op_id (rows ++ new) = rows_of op_id rows := by
  have hnone : new.filter (fun a => a.operation_id == op_id) = [] := by
    refine List.filter_eq_nil_iff.mpr fun a ha => ?_
    simpa [hnew a ha] using hne
  rw [rows_of, List.filter_append, hnone, List.append_nil, rows_of]

theorem rows_of_map {g : AssignmentRow → AssignmentRow} {rows : List AssignmentRow}
    (hg : ∀ a ∈ rows, SameAssignment a (g a)) (op_id : String) :
    rows_of op_id (rows.map g) = (rows_of op_id rows).map g := by
  rw [rows_of, List.filter_map, rows_of]
  refine congrArg (List.map g) (List.filter_congr fun a ha => ?_)
  simp [(hg a ha).operation_id]

/-- The assignments of an operation stay when the change touches others only
or when all of them are terminal. -/
theorem Keeps.rows_of_eq {touched : String → Prop} {before after : List AssignmentRow} (h : Keeps touched before after)
    {op_id : String} (hfixed : ¬ touched op_id ∨ ∀ a ∈ rows_of op_id before, layer_running a.status = false) :
    rows_of op_id after = rows_of op_id before := by
  obtain ⟨g, rfl, hg⟩ := h
  rw [rows_of_map fun a ha => (hg a ha).1]
  conv_rhs => rw [← List.map_id (rows_of op_id before)]
  refine List.map_congr_left fun a ha => ?_
  obtain ⟨hrow, rfl⟩ := mem_rows_of.mp ha
  exact (hg a hrow).2 (hfixed.elim .inr fun hterminal => .inl (hterminal a ha))

/-- What holds of the assignments whatever a call makes of them, and of those that a
submission or an approval makes, holds of all of them after the call. -/
theorem every_assignment_after {crates : Crates} {db : Store} (hconsistent : Consistent db) (call : Call)
    {P : AssignmentRow → Prop} (hkept : ∀ a ∈ db.rows .assignments, ∀ b, SameAssignment a b → P b)
    (hcreated : ∀ req out layers created, call = .create_operation req →
      CreateEffect crates req db out (call.after crates db) layers created → ∀ a ∈ created, P a)
    (happroved : ∀ req count op routing_list layers created, call = .approve_operation req →
      ApproveEffect crates req db.rows count (call.after crates db).rows op routing_list layers created →
        ∀ a ∈ created, P a) : ∀ a ∈ (call.after crates db).rows .assignments, P a := by
  have hmap {g : AssignmentRow → AssignmentRow} (hg : ∀ a ∈ db.rows .assignments, SameAssignment a (g a))
      (hafter : (call.after crates db).rows .assignments = (db.rows .assignments).map g) :
      ∀ a ∈ (call.after crates db).rows .assignments, P a := by
    rw [hafter]
    exact List.forall_mem_map.mpr fun a ha => hkept a ha _ (hg a ha)
  have hsame (hafter : (call.after crates db).rows .assignments = db.rows .assignments) :=
    hmap (fun a _ => SameAssignment.refl a) (hafter.trans (List.map_id' _).symm)
  cases assignment_effect crates hconsistent call with
  | unchanged hafter => exact hsame hafter
  | dispatched g _ hmoved hafter => exact hmap (fun a ha => (redispatched_advances hmoved).same ha) hafter
  | completed rep a ha haccepts hafter =>
    obtain ⟨g, hg, hkeeps⟩ := reported_keeps crates hconsistent.assignment_ids hconsistent.shaped ha haccepts
    exact hmap (fun b hb => (hkeeps b hb).1) (hafter.trans hg)
  | added op_id new _ hnew hafter =>
    have hold : ∀ a ∈ db.rows .assignments, P a := fun a ha => hkept a ha a (SameAssignment.refl a)
    cases call with
    | create_operation req =>
      obtain ⟨e, -, hrows⟩ | ⟨out, after, hrun, hexec⟩ := exec_cases (create_operation crates req) db
      · exact hsame (congrFun hrows _)
      · obtain ⟨layers, created, heffect⟩ := create_operation_spec hrun
        obtain rfl : after = Call.after crates (.create_operation req) db := by rw [Call.after, hexec]
        rw [heffect.assignments]
        exact List.forall_mem_append.mpr ⟨hold, hcreated req out layers created rfl heffect⟩
    | approve_operation req =>
      obtain ⟨e, -, hrows⟩ | ⟨count, after, hrun, hexec⟩ := exec_cases (approve_operation crates req) db
      · exact hsame (congrFun hrows _)
      · obtain ⟨op, routing_list, layers, created, heffect⟩ := approve_operation_spec hrun
        obtain rfl : after = Call.after crates (.approve_operation req) db := by rw [Call.after, hexec]
        rw [heffect.assignments]
        exact List.forall_mem_append.mpr ⟨hold, happroved req count op routing_list layers created rfl heffect⟩
    | _ =>
      rw [hafter]
      refine List.forall_mem_append.mpr ⟨hold, fun a ha => ?_⟩
      obtain ⟨r, hr⟩ := hnew.routed a ha
      cases hr

/-- The time at which a call stamps the assignments that it makes. -/
def Call.stamp : Call → Option jiff.Timestamp
  | .create_operation req => some req.now
  | .approve_operation req => some req.now
  | _ => none

/-- No call that makes assignments comes after `now`, nor before the year 0000. -/
def stamped_by (now : jiff.Timestamp) : Store → Call → Prop := fun _ call =>
  ∀ t, call.stamp = some t → 0 ≤ t.nanos ∧ t.nanos ≤ now.nanos

/-- What every assignment is made with. -/
structure Stamped (now : jiff.Timestamp) (a : AssignmentRow) : Prop where
  kind : a.kind = "apply"
  expires_at : a.expires_at = none
  created_at : ∃ t : jiff.Timestamp, a.created_at = t.to_string ∧ 0 ≤ t.nanos ∧ t.nanos ≤ now.nanos

variable {crates : Crates} {now : jiff.Timestamp} {db : Store} {call : Call}

theorem Stamped.same {a b : AssignmentRow} (h : Stamped now a) (hsame : SameAssignment a b) : Stamped now b :=
  ⟨hsame.kind.trans h.kind, hsame.expires_at.trans h.expires_at, hsame.created_at ▸ h.created_at⟩

private theorem stamped_of_buckets {α : Type} {op_id : String} {t : jiff.Timestamp}
    {values : List α → Except ApiError (List serde_json.Value)} {batch : String → Int → Option Int}
    {buckets : Buckets α} {created : List AssignmentRow}
    (h : List.Forall₂ (AssignmentOf crates op_id t.to_string values batch) buckets created)
    (ht : 0 ≤ t.nanos ∧ t.nanos ≤ now.nanos) : ∀ a ∈ created, Stamped now a := by
  induction h with
  | nil => simp
  | cons hrow _ ih =>
    refine List.forall_mem_cons.mpr ⟨?_, ih⟩
    obtain ⟨id, resources, -, rfl⟩ := hrow
    exact ⟨rfl, rfl, t, rfl, ht⟩

/-- Every call keeps the assignments stamped. -/
theorem stamped_after (hconsistent : Consistent db) (hcall : stamped_by now db call)
    (h : ∀ a ∈ db.rows .assignments, Stamped now a) : ∀ a ∈ (call.after crates db).rows .assignments, Stamped now a := by
  refine every_assignment_after hconsistent call (fun a ha b hsame => (h a ha).same hsame) ?_ ?_
  · rintro req out layers created rfl heffect
    cases happroval : req.requires_approval with
    | true => simp [heffect.deferred happroval]
    | false => exact stamped_of_buckets (heffect.dispatched happroval) (hcall req.now rfl)
  · rintro req count op routing_list layers created rfl heffect
    exact stamped_of_buckets heffect.dispatched (hcall req.now rfl)

/-- In every run up to `now` the assignments bear the times of the calls that made them. -/
theorem stamped_run (hreach : Reachable crates (stamped_by now) db) : ∀ a ∈ db.rows .assignments, Stamped now a := by
  suffices Consistent db ∧ ∀ a ∈ db.rows .assignments, Stamped now a from this.2
  induction hreach with
  | refl => exact ⟨consistent_migrated, fun a ha => nomatch ha⟩
  | tail _ hstep ih =>
    obtain ⟨call, hcall, rfl⟩ := hstep
    exact ⟨ih.1.after call, stamped_after ih.1 hcall ih.2⟩

end iac_controlplane.store
