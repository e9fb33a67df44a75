import Iac.Controlplane.Store.Schema
import Iac.Sql.Query

open sql

namespace iac_controlplane.store

/-- An agent may hold the assignment or ask for it. -/
def dispatchable : AssignmentStatus → Bool
  | .pending | .fetched => true
  | _ => false

def layer_running : AssignmentStatus → Bool
  | .pending | .fetched | .pending_layer | .pending_canary => true
  | _ => false

theorem running_of_dispatchable {status : AssignmentStatus} (h : dispatchable status = true) :
    layer_running status = true := by
  cases status <;> simp_all [dispatchable, layer_running]

def failed_flavor : AssignmentStatus → Bool
  | .failed | .partially_applied => true
  | _ => false

/-- `NOT (layer = ? AND batch = 0)` under the three-valued logic of SQL: with a
NULL batch it holds in other layers and is unknown, so no match, in this one. -/
def not_canary_of (layer : Int) (a : AssignmentRow) : Bool :=
  match a.batch with
  | some batch => !(a.layer == layer && batch == 0)
  | none => a.layer != layer

def AssignmentRow.cancel (now : String) (a : AssignmentRow) : AssignmentRow :=
  { a with status := .cancelled, completed_at := some now }

def AssignmentRow.promote (a : AssignmentRow) : AssignmentRow :=
  { a with status := .pending }

def cancelled_with_canary (op_id : String) (layer : Int) (a : AssignmentRow) : Bool :=
  a.operation_id == op_id && layer_running a.status && not_canary_of layer a

def promoted_after_canary (op_id : String) (layer : Int) (a : AssignmentRow) : Bool :=
  a.operation_id == op_id && a.layer == layer && a.status == .pending_canary

def cancelled_with_layer (op_id : String) (a : AssignmentRow) : Bool :=
  a.operation_id == op_id && a.status == .pending_layer

def promoted_after_layer (op_id : String) (layer : Int) (a : AssignmentRow) : Bool :=
  a.operation_id == op_id && a.layer == layer && a.status == .pending_layer

def waiting_layers (op_id : String) (rows : List AssignmentRow) : List Int :=
  distinct AssignmentRow.layer
    (rows.filter fun a => a.operation_id == op_id && a.status == .pending_canary)

def canary_counts (op_id : String) (layer : Int) (rows : List AssignmentRow) : List (AssignmentStatus × Nat) :=
  group_count AssignmentRow.status
    (rows.filter fun a => a.operation_id == op_id && a.layer == layer && a.batch == some 0)

def next_waiting_layer (op_id : String) (rows : List AssignmentRow) : Option Int :=
  ((rows.filter fun a => a.operation_id == op_id && a.status == .pending_layer).map AssignmentRow.layer).min?

def layer_counts (op_id : String) (layer : Int) (rows : List AssignmentRow) : List (AssignmentStatus × Nat) :=
  group_count AssignmentRow.status (rows.filter fun a => a.operation_id == op_id && a.layer == layer)

def operation_counts (op_id : String) (rows : List AssignmentRow) : List (AssignmentStatus × Nat) :=
  group_count AssignmentRow.status (rows.filter fun a => a.operation_id == op_id)

/-- The loop of `advance_canary` over the layers with a waiting baseline. -/
def advance_canary_layers (op_id now : String) : List Int → Tx Unit
  | [] => pure ()
  | layer :: waiting => do
    let rows ← sql_select fun db => canary_counts op_id layer (db .assignments)
    let still_running := count_in dispatchable rows
    let failed_count := count_in failed_flavor rows
    if failed_count > 0 then
      let _ ← sql_update .assignments (cancelled_with_canary op_id layer) (AssignmentRow.cancel now)
      return ()
    else if still_running > 0 then
      advance_canary_layers op_id now waiting
    else do
      let _ ← sql_update .assignments (promoted_after_canary op_id layer) AssignmentRow.promote
      advance_canary_layers op_id now waiting

def advance_canary (op_id now : String) : Tx Unit := do
  let waiting_layers ← sql_select fun db => waiting_layers op_id (db .assignments)
  if waiting_layers.isEmpty then
    return ()
  else
    advance_canary_layers op_id now waiting_layers

def advance_phased_apply (op_id now : String) : Tx Unit := do
  advance_canary op_id now
  let next_layer ← sql_select fun db => next_waiting_layer op_id (db .assignments)
  match next_layer with
  | none => return ()
  | some next_layer => do
    let prev_layer := next_layer - 1
    let rows ← sql_select fun db => layer_counts op_id prev_layer (db .assignments)
    let still_running := count_in layer_running rows
    let failed_count := count_in failed_flavor rows
    if still_running > 0 then
      return ()
    else if failed_count > 0 then
      let _ ← sql_update .assignments (cancelled_with_layer op_id) (AssignmentRow.cancel now)
      return ()
    else
      let _ ← sql_update .assignments (promoted_after_layer op_id next_layer) AssignmentRow.promote
      return ()

/-- The terminal status that the counts of the terminal assignments give. -/
def final_status (rows : List (AssignmentStatus × Nat)) : OperationStatus :=
  let succeeded := count_in (· == .succeeded) rows
  let partial_ := count_in (· == .partially_applied) rows
  let failed := count_in (· == .failed) rows
  let cancelled := count_in (· == .cancelled) rows
  let any_failure := failed + partial_ + cancelled > 0
  if any_failure then
    if succeeded > 0 ∨ partial_ > 0 then .partially_applied else .failed
  else
    .succeeded

def roll_up_operation (op_id now : String) : Tx Unit := do
  let rows ← sql_select fun db => operation_counts op_id (db .assignments)
  let pending := count_in (· == .pending) rows
  let fetched := count_in (· == .fetched) rows
  let pending_layer := count_in (· == .pending_layer) rows
  let pending_canary := count_in (· == .pending_canary) rows
  if pending + fetched + pending_layer + pending_canary > 0 then
    return ()
  else
    let _ ← sql_update .operations (fun op => op.id == op_id) fun op =>
      { op with status := final_status rows, finished_at := some now }
    return ()

/-- What `advance_canary_layers` makes of the assignment rows. -/
def canary_layers_advanced (op_id now : String) : List Int → List AssignmentRow → List AssignmentRow
  | [], rows => rows
  | layer :: waiting, rows =>
    if count_in failed_flavor (canary_counts op_id layer rows) > 0 then
      rows.map (updated (cancelled_with_canary op_id layer) (AssignmentRow.cancel now))
    else if count_in dispatchable (canary_counts op_id layer rows) > 0 then
      canary_layers_advanced op_id now waiting rows
    else
      canary_layers_advanced op_id now waiting
        (rows.map (updated (promoted_after_canary op_id layer) AssignmentRow.promote))

/-- What `advance_canary` makes of the assignment rows. -/
def canary_advanced (op_id now : String) (rows : List AssignmentRow) : List AssignmentRow :=
  canary_layers_advanced op_id now (waiting_layers op_id rows) rows

/-- What `advance_phased_apply` makes of the rows that `advance_canary` left. -/
def layers_advanced (op_id now : String) (rows : List AssignmentRow) : List AssignmentRow :=
  match next_waiting_layer op_id rows with
  | none => rows
  | some next_layer =>
    if count_in layer_running (layer_counts op_id (next_layer - 1) rows) > 0 then rows
    else if count_in failed_flavor (layer_counts op_id (next_layer - 1) rows) > 0 then
      rows.map (updated (cancelled_with_layer op_id) (AssignmentRow.cancel now))
    else rows.map (updated (promoted_after_layer op_id next_layer) AssignmentRow.promote)

private theorem run_advance_canary_layers (op_id now : String) (waiting : List Int) (db : Store) :
    (advance_canary_layers op_id now waiting).run db =
      (.ok (), db.set_rows .assignments (canary_layers_advanced op_id now waiting (db.rows .assignments))) := by
  induction waiting generalizing db with
  | nil => simp [advance_canary_layers, canary_layers_advanced, Db.set_rows_rows]
  | cons layer waiting ih =>
    rw [advance_canary_layers, run_bind_ok (run_query _ _), canary_layers_advanced]
    dsimp only
    split_ifs
    · rw [run_bind_ok (run_update_where _ _ _ _), run_pure]
    · exact ih db
    · rw [run_bind_ok (run_update_where _ _ _ _), ih, Db.set_rows_set_rows, Db.set_rows_self]

private theorem run_advance_canary (op_id now : String) (db : Store) :
    (advance_canary op_id now).run db =
      (.ok (), db.set_rows .assignments (canary_advanced op_id now (db.rows .assignments))) := by
  rw [advance_canary, run_bind_ok (run_query _ _), canary_advanced]
  split
  · rename_i hnone
    rw [List.isEmpty_iff.mp hnone, canary_layers_advanced, Db.set_rows_rows, run_pure]
  · exact run_advance_canary_layers op_id now _ db

/-- `advance_phased_apply` always succeeds and rewrites assignments only: the
canary gate first and the layer gate on what it left. -/
theorem run_advance_phased_apply (op_id now : String) (db : Store) :
    (advance_phased_apply op_id now).run db =
      (.ok (), db.set_rows .assignments
        (layers_advanced op_id now (canary_advanced op_id now (db.rows .assignments)))) := by
  generalize hmid : canary_advanced op_id now (db.rows .assignments) = mid
  rw [advance_phased_apply, run_bind_ok (run_advance_canary op_id now db), hmid, run_bind_ok (run_query _ _),
    Db.set_rows_self, layers_advanced]
  cases next_waiting_layer op_id mid with
  | none => rfl
  | some next_layer =>
    dsimp only
    rw [run_bind_ok (run_query _ _), Db.set_rows_self]
    split_ifs
    · rfl
    · rw [run_bind_ok (run_update_where _ _ _ _), run_pure, Db.set_rows_set_rows, Db.set_rows_self]
    · rw [run_bind_ok (run_update_where _ _ _ _), run_pure, Db.set_rows_set_rows, Db.set_rows_self]

/-- What the canary gate does to the rows of an operation whose baseline waits
in layer 0 only: nothing, cancel all but the canary, or release the baseline. -/
inductive CanaryGate (op_id now : String) (rows : List AssignmentRow) : List AssignmentRow → Prop where
  | settled (hnone : ∀ a ∈ rows, a.operation_id = op_id → a.status ≠ .pending_canary) : CanaryGate op_id now rows rows
  | running (hrunning : ∃ a ∈ rows, a.operation_id = op_id ∧ a.layer = 0 ∧ a.batch = some 0 ∧ dispatchable a.status)
      (hclean : ∀ a ∈ rows, a.operation_id = op_id → a.layer = 0 → a.batch = some 0 → failed_flavor a.status = false) :
      CanaryGate op_id now rows rows
  | cancel (hfailed : ∃ a ∈ rows, a.operation_id = op_id ∧ a.layer = 0 ∧ a.batch = some 0 ∧ failed_flavor a.status) :
      CanaryGate op_id now rows (rows.map (updated (cancelled_with_canary op_id 0) (AssignmentRow.cancel now)))
  | promote (hwaiting : ∃ a ∈ rows, a.operation_id = op_id ∧ a.layer = 0 ∧ a.status = .pending_canary)
      (hdone : ∀ a ∈ rows, a.operation_id = op_id → a.layer = 0 → a.batch = some 0 →
        dispatchable a.status = false ∧ failed_flavor a.status = false) :
      CanaryGate op_id now rows (rows.map (updated (promoted_after_canary op_id 0) AssignmentRow.promote))

/-- What the layer gate does to the rows of an operation: nothing, cancel every
waiting layer, or release the lowest one. -/
inductive LayerGate (op_id now : String) (rows : List AssignmentRow) : List AssignmentRow → Prop where
  | settled (hnone : ∀ a ∈ rows, a.operation_id = op_id → a.status ≠ .pending_layer) : LayerGate op_id now rows rows
  | running {next_layer : Int}
      (hwaiting : ∃ a ∈ rows, a.operation_id = op_id ∧ a.layer = next_layer ∧ a.status = .pending_layer)
      (hrunning : ∃ a ∈ rows, a.operation_id = op_id ∧ a.layer = next_layer - 1 ∧ layer_running a.status)
      (hlowest : ∀ a ∈ rows, a.operation_id = op_id → a.status = .pending_layer → next_layer ≤ a.layer) :
      LayerGate op_id now rows rows
  | cancel {next_layer : Int}
      (hfailed : ∃ a ∈ rows, a.operation_id = op_id ∧ a.layer = next_layer - 1 ∧ failed_flavor a.status)
      (hdone : ∀ a ∈ rows, a.operation_id = op_id → a.layer = next_layer - 1 → layer_running a.status = false) :
      LayerGate op_id now rows (rows.map (updated (cancelled_with_layer op_id) (AssignmentRow.cancel now)))
  | promote {next_layer : Int}
      (hwaiting : ∃ a ∈ rows, a.operation_id = op_id ∧ a.layer = next_layer ∧ a.status = .pending_layer)
      (hlowest : ∀ a ∈ rows, a.operation_id = op_id → a.status = .pending_layer → next_layer ≤ a.layer)
      (hdone : ∀ a ∈ rows, a.operation_id = op_id → a.layer = next_layer - 1 →
        layer_running a.status = false ∧ failed_flavor a.status = false) :
      LayerGate op_id now rows (rows.map (updated (promoted_after_layer op_id next_layer) AssignmentRow.promote))

private theorem canary_counts_pos {op_id : String} {layer : Int} {rows : List AssignmentRow}
    (group : AssignmentStatus → Bool) :
    0 < count_in group (canary_counts op_id layer rows) ↔
      ∃ a ∈ rows, a.operation_id = op_id ∧ a.layer = layer ∧ a.batch = some 0 ∧ group a.status := by
  rw [canary_counts, count_in_pos_iff]
  simp [and_assoc]

private theorem layer_counts_pos {op_id : String} {layer : Int} {rows : List AssignmentRow}
    (group : AssignmentStatus → Bool) :
    0 < count_in group (layer_counts op_id layer rows) ↔
      ∃ a ∈ rows, a.operation_id = op_id ∧ a.layer = layer ∧ group a.status := by
  rw [layer_counts, count_in_pos_iff]
  simp [and_assoc]

private theorem waiting_layers_cases {op_id : String} {rows : List AssignmentRow}
    (hfirst : ∀ a ∈ rows, a.operation_id = op_id → a.status = .pending_canary → a.layer = 0) :
    (waiting_layers op_id rows = [] ∧ ∀ a ∈ rows, a.operation_id = op_id → a.status ≠ .pending_canary) ∨
      waiting_layers op_id rows = [0] ∧
        ∃ a ∈ rows, a.operation_id = op_id ∧ a.layer = 0 ∧ a.status = .pending_canary := by
  have hmem (l : Int) : l ∈ waiting_layers op_id rows ↔
      ∃ a ∈ rows, a.operation_id = op_id ∧ a.status = .pending_canary ∧ a.layer = l := by
    simp [waiting_layers, mem_distinct, and_assoc]
  have hnodup : (waiting_layers op_id rows).Nodup := List.nodup_dedup _
  have hzero : ∀ l ∈ waiting_layers op_id rows, l = 0 := by
    intro l hl
    obtain ⟨a, ha, hop, hstatus, rfl⟩ := (hmem l).mp hl
    exact hfirst a ha hop hstatus
  rcases hlist : waiting_layers op_id rows with - | ⟨l, rest⟩
  · refine .inl ⟨rfl, fun a ha hop hstatus => ?_⟩
    have hin := (hmem a.layer).mpr ⟨a, ha, hop, hstatus, rfl⟩
    simp [hlist] at hin
  · rw [hlist] at hnodup hzero hmem
    obtain rfl := hzero l List.mem_cons_self
    obtain ⟨a, ha, hop, hstatus, hlayer⟩ := (hmem 0).mp List.mem_cons_self
    refine .inr ⟨?_, a, ha, hop, hlayer, hstatus⟩
    cases rest with
    | nil => rfl
    | cons l' rest =>
      obtain rfl := hzero l' (by simp)
      simp at hnodup

theorem canary_advanced_cases {op_id : String} (now : String) {rows : List AssignmentRow}
    (hfirst : ∀ a ∈ rows, a.operation_id = op_id → a.status = .pending_canary → a.layer = 0) :
    CanaryGate op_id now rows (canary_advanced op_id now rows) := by
  rw [canary_advanced]
  obtain ⟨hlist, hnone⟩ | ⟨hlist, hwaiting⟩ := waiting_layers_cases hfirst
  · rw [hlist]
    exact .settled hnone
  · rw [hlist]
    simp only [canary_layers_advanced, gt_iff_lt, canary_counts_pos]
    split_ifs with hfailed hrunning
    · exact .cancel hfailed
    · refine .running hrunning fun a ha hop hlayer hbatch => ?_
      exact Bool.eq_false_iff.mpr fun h => hfailed ⟨a, ha, hop, hlayer, hbatch, h⟩
    · refine .promote hwaiting fun a ha hop hlayer hbatch => ⟨?_, ?_⟩
      · exact Bool.eq_false_iff.mpr fun h => hrunning ⟨a, ha, hop, hlayer, hbatch, h⟩
      · exact Bool.eq_false_iff.mpr fun h => hfailed ⟨a, ha, hop, hlayer, hbatch, h⟩

private theorem next_waiting_layer_eq_some {op_id : String} {rows : List AssignmentRow} {next_layer : Int}
    (h : next_waiting_layer op_id rows = some next_layer) :
    (∃ a ∈ rows, a.operation_id = op_id ∧ a.layer = next_layer ∧ a.status = .pending_layer) ∧
      ∀ a ∈ rows, a.operation_id = op_id → a.status = .pending_layer → next_layer ≤ a.layer := by
  obtain ⟨hmem, hle⟩ := List.min?_eq_some_iff.mp h
  constructor
  · simpa [and_assoc, and_comm, and_left_comm] using hmem
  · intro a ha hop hstatus
    exact hle a.layer (by simpa using ⟨a, ⟨ha, hop, hstatus⟩, rfl⟩)

theorem layers_advanced_cases (op_id now : String) (rows : List AssignmentRow) :
    LayerGate op_id now rows (layers_advanced op_id now rows) := by
  rw [layers_advanced]
  cases hnext : next_waiting_layer op_id rows with
  | none =>
    refine .settled fun a ha hop hstatus => ?_
    have hempty := List.min?_eq_none_iff.mp hnext
    simp at hempty
    exact hempty a ha hop hstatus
  | some next_layer =>
    obtain ⟨hwaiting, hlowest⟩ := next_waiting_layer_eq_some hnext
    simp only [gt_iff_lt, layer_counts_pos]
    split_ifs with hrunning hfailed
    · exact .running hwaiting hrunning hlowest
    · refine .cancel hfailed fun a ha hop hlayer => ?_
      exact Bool.eq_false_iff.mpr fun h => hrunning ⟨a, ha, hop, hlayer, h⟩
    · refine .promote hwaiting hlowest fun a ha hop hlayer => ⟨?_, ?_⟩
      · exact Bool.eq_false_iff.mpr fun h => hrunning ⟨a, ha, hop, hlayer, h⟩
      · exact Bool.eq_false_iff.mpr fun h => hfailed ⟨a, ha, hop, hlayer, h⟩

def OperationRow.settle (status : OperationStatus) (now : String) (op : OperationRow) : OperationRow :=
  { op with status, finished_at := some now }

/-- What `roll_up_operation` makes of the operation rows. -/
def rolled_up (op_id now : String) (rows : List AssignmentRow) (operations : List OperationRow) :
    List OperationRow :=
  if rows.any fun a => a.operation_id == op_id && layer_running a.status then operations
  else operations.map (updated (fun op => op.id == op_id)
    (OperationRow.settle (final_status (operation_counts op_id rows)) now))

private theorem operation_counts_pos {op_id : String} {rows : List AssignmentRow} (group : AssignmentStatus → Bool) :
    0 < count_in group (operation_counts op_id rows) ↔ ∃ a ∈ rows, a.operation_id = op_id ∧ group a.status := by
  rw [operation_counts, count_in_pos_iff]
  simp [and_assoc]

private theorem layer_running_iff (status : AssignmentStatus) :
    layer_running status = true ↔
      ((status = .pending ∨ status = .fetched) ∨ status = .pending_layer) ∨ status = .pending_canary := by
  cases status <;> simp [layer_running]

private theorem running_count_pos {op_id : String} {rows : List AssignmentRow} :
    0 < count_in (· == .pending) (operation_counts op_id rows) + count_in (· == .fetched) (operation_counts op_id rows) +
        count_in (· == .pending_layer) (operation_counts op_id rows) +
        count_in (· == .pending_canary) (operation_counts op_id rows) ↔
      (rows.any fun a => a.operation_id == op_id && layer_running a.status) = true := by
  simp only [Nat.add_pos_iff_pos_or_pos, operation_counts_pos, List.any_eq_true, Bool.and_eq_true, beq_iff_eq,
    layer_running_iff]
  simp only [← exists_or, ← and_or_left]

theorem run_roll_up_operation (op_id now : String) (db : Store) :
    (roll_up_operation op_id now).run db =
      (.ok (), db.set_rows .operations
        (rolled_up op_id now (db.rows .assignments) (db.rows .operations))) := by
  rw [roll_up_operation, run_bind_ok (run_query _ _), rolled_up]
  dsimp only
  simp only [gt_iff_lt, running_count_pos]
  split_ifs
  · simp [Db.set_rows]
  · rw [run_bind_ok (run_update_where _ _ _ _), run_pure]
    rfl

/-- The status a finished operation gets, read off its assignments. -/
theorem final_status_eq (op_id : String) (rows : List AssignmentRow) :
    final_status (operation_counts op_id rows) =
      if ∃ a ∈ rows, a.operation_id = op_id ∧ (failed_flavor a.status ∨ a.status = .cancelled) then
        if ∃ a ∈ rows, a.operation_id = op_id ∧ (a.status = .succeeded ∨ a.status = .partially_applied) then
          .partially_applied
        else .failed
      else .succeeded := by
  have hflavor (status : AssignmentStatus) : (failed_flavor status = true ∨ status = .cancelled) ↔
      (status = .failed ∨ status = .partially_applied) ∨ status = .cancelled := by
    cases status <;> simp [failed_flavor]
  simp only [final_status, gt_iff_lt, Nat.add_pos_iff_pos_or_pos, operation_counts_pos, beq_iff_eq, hflavor,
    ← exists_or, ← and_or_left]

end iac_controlplane.store
