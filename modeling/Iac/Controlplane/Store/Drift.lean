import Iac.Agent.Observe
import Iac.Controlplane.Store.Audit
import Iac.Sql.Leaves
import Iac.Sql.Query

open iac_core serde_json sql

namespace iac_controlplane.store

structure DriftEventRow where
  id : Nat
  agent_id : String
  resource_id : String
  kind : String
  severity : String
  diff_json : String
  detected_at : String
  received_at : String
  resolved_at : Option String := none
  resolution : Option String := none
  ignored_until : Option String := none

/-- The drift events beside the tables of the operations. -/
inductive DriftTable where
  | drift_events
  | of_store (t : Table)
  deriving DecidableEq, Repr

@[reducible] def DriftTable.Row : DriftTable → Type
  | .drift_events => DriftEventRow
  | .of_store t => store.Row t

/-- `UNIQUE (agent_id, resource_id, detected_at)`, which also covers resolved rows. -/
def DriftTable.clash : (t : DriftTable) → t.Row → t.Row → Bool
  | .drift_events, a, b => a.agent_id == b.agent_id && a.resource_id == b.resource_id && a.detected_at == b.detected_at
  | .of_store t, a, b => store.clash t a b

instance : sql.Schema DriftTable.Row := ⟨DriftTable.clash⟩

abbrev DriftStore := sql.Db DriftTable.Row

abbrev DriftTx (α : Type) := sql.Prog DriftTable.Row ApiError α

abbrev drift_update (which : DriftEventRow → Bool) (change : DriftEventRow → DriftEventRow) : DriftTx (List DriftEventRow) :=
  Prog.update_where DriftTable.drift_events which change

/-- An UPDATE that sets `detected_at`. -/
abbrev drift_move (which : DriftEventRow → Bool) (change : DriftEventRow → DriftEventRow) : DriftTx (List DriftEventRow) :=
  Prog.update_unique unique_violation DriftTable.drift_events which change

abbrev drift_insert (values : Nat → DriftEventRow) : DriftTx DriftEventRow :=
  Prog.insert_into unique_violation DriftTable.drift_events values

/-- A statement list of the store inside a transaction on drift events. -/
abbrev in_store {α : Type} (p : Tx α) : DriftTx α := p.along DriftTable.of_store

def DriftEventRow.unresolved (row : DriftEventRow) : Bool := row.resolved_at.isNone

/-- `WHERE agent_id = ? AND resource_id = ? AND resolved_at IS NULL`. -/
def concerns (agent_id rid : String) (row : DriftEventRow) : Bool :=
  row.agent_id == agent_id && row.resource_id == rid && row.unresolved

def change_kind_name : DiffKind → String
  | .NoChange => "no_change"
  | .Create => "create"
  | .Update => "update"
  | .Delete => "delete"

def change_value (c : FieldChange) : Value :=
  .object [("field", .string c.field), ("from", c.from_value.getD .null), ("to", c.to_value.getD .null),
    ("sensitive", .bool c.sensitive)]

/-- What serde writes for a `Diff`. -/
def diff_value (d : Diff) : Value :=
  .object [("kind", .string (change_kind_name d.kind)), ("changes", .array (d.changes.map change_value)),
    ("reasons", .array (d.reasons.map .string)), ("reversible", .bool d.reversible)]

def DriftEventRow.refresh (crates : Crates) (now : String) (item : iac_agent.DriftItem) (row : DriftEventRow) : DriftEventRow :=
  { row with
    kind := item.resource_id.kind, severity := item.severity, diff_json := crates.to_string (diff_value item.diff),
    detected_at := item.detected_at, received_at := now }

def drift_event_row (crates : Crates) (agent_id now : String) (item : iac_agent.DriftItem) (id : Nat) : DriftEventRow :=
  { id, agent_id, resource_id := item.resource_id.to_string, kind := item.resource_id.kind, severity := item.severity,
    diff_json := crates.to_string (diff_value item.diff), detected_at := item.detected_at, received_at := now }

/-- The loop of `record_drift`: an open row is refreshed, a first one inserted. -/
def record_items (crates : Crates) (agent_id now : String) : List iac_agent.DriftItem → Nat → DriftTx Nat
  | [], count => pure count
  | item :: items, count => do
    let updated ← drift_move (concerns agent_id item.resource_id.to_string) (DriftEventRow.refresh crates now item)
    if updated.length = 0 then do
      let _ ← drift_insert (drift_event_row crates agent_id now item)
      record_items crates agent_id now items (count + 1)
    else
      record_items crates agent_id now items (count + 1)

def record_drift (crates : Crates) (agent_id : String) (items : List iac_agent.DriftItem) (now : jiff.Timestamp) : DriftTx Nat :=
  if items.isEmpty then pure 0 else record_items crates agent_id now.to_string items 0

def DriftEventRow.stop (now : String) (row : DriftEventRow) : DriftEventRow :=
  { row with resolved_at := some now, resolution := some "agent stopped reporting" }

/-- Resolves the open rows of the agent that the push does not report. -/
def close_drift_not_in (agent_id : String) (current : List String) (now : jiff.Timestamp) : DriftTx Nat := do
  let res ← if current.isEmpty then
      drift_update (fun row => row.agent_id == agent_id && row.unresolved) (DriftEventRow.stop now.to_string)
    else
      drift_update
        (fun row => row.agent_id == agent_id && row.unresolved && !current.contains row.resource_id)
        (DriftEventRow.stop now.to_string)
  return res.length

def DriftEventRow.accept (now resolution : String) (row : DriftEventRow) : DriftEventRow :=
  { row with resolved_at := some now, resolution := some resolution, ignored_until := none }

def DriftEventRow.ignore (until_text : String) (row : DriftEventRow) : DriftEventRow :=
  { row with ignored_until := some until_text }

/-- `WHERE id = ? AND resolved_at IS NULL`. -/
def has_drift_id (drift_id : Int) (row : DriftEventRow) : Bool :=
  (row.id : Int) == drift_id && row.unresolved

/-- The transaction of a decision on one drift: it has to be there and open. -/
def decide_drift (crates : Crates) (drift_id : Int) (change : DriftEventRow → DriftEventRow) (rec : AuditRecord)
    (audit_now : jiff.Timestamp) : DriftTx Unit := do
  let res ← drift_update (has_drift_id drift_id) change
  if res.length = 0 then
    Prog.throw .NotFound
  else
    in_store (record_audit_on crates audit_now.to_string { rec with drift_id := some drift_id })

def accept_drift (crates : Crates) (drift_id : Int) (actor reason : String) (now audit_now : jiff.Timestamp) : DriftTx Unit :=
  decide_drift crates drift_id (DriftEventRow.accept now.to_string ("accepted: " ++ reason))
    { actor, kind := "drift.accepted", payload := json [("reason", .string reason)] } audit_now

def invalid_until (e : String) : ApiError := .BadRequest ("invalid " ++ "\x60" ++ "until" ++ "\x60: " ++ e)

/-- `parse` reads a timestamp. -/
def ignore_drift (crates : Crates) (parse : String → Except String jiff.Timestamp) (drift_id : Int)
    (actor until_text : String) (audit_now : jiff.Timestamp) : DriftTx Unit :=
  match parse until_text with
  | .error e => Prog.throw (invalid_until e)
  | .ok ts =>
    decide_drift crates drift_id (DriftEventRow.ignore ts.to_string)
      { actor, kind := "drift.ignored", payload := json [("until", .string ts.to_string)] } audit_now

structure DriftBulkFilter where
  agent_id : Option String
  kind : Option String
  severity : Option String

def DriftBulkFilter.is_empty (filter : DriftBulkFilter) : Bool :=
  filter.agent_id.isNone && filter.kind.isNone && filter.severity.isNone

/-- `WHERE resolved_at IS NULL` and the parts of the filter that are given. -/
def DriftBulkFilter.covers (filter : DriftBulkFilter) (row : DriftEventRow) : Bool :=
  row.unresolved && filter.agent_id.all (· == row.agent_id) && filter.kind.all (· == row.kind) &&
    filter.severity.all (· == row.severity)

def DriftBulkFilter.to_value (filter : DriftBulkFilter) : Value :=
  json [("agent_id", of_option filter.agent_id), ("kind", of_option filter.kind), ("severity", of_option filter.severity)]

/-- The transaction of a decision on every open drift that the filter covers. -/
def decide_drift_bulk (crates : Crates) (filter : DriftBulkFilter) (change : DriftEventRow → DriftEventRow)
    (rec : Nat → AuditRecord) (audit_now : jiff.Timestamp) : DriftTx Nat := do
  let res ← drift_update filter.covers change
  if 0 < res.length then do
    in_store (record_audit_on crates audit_now.to_string (rec res.length))
    return res.length
  else
    return res.length

def accept_drift_bulk (crates : Crates) (filter : DriftBulkFilter) (actor reason : String)
    (now audit_now : jiff.Timestamp) : DriftTx Nat :=
  decide_drift_bulk crates filter (DriftEventRow.accept now.to_string ("accepted (bulk): " ++ reason))
    (fun affected =>
      { actor, kind := "drift.accepted_bulk",
        payload := json [("reason", .string reason), ("matched", of_nat affected), ("filter", filter.to_value)] })
    audit_now

def ignore_drift_bulk (crates : Crates) (parse : String → Except String jiff.Timestamp) (filter : DriftBulkFilter)
    (actor until_text : String) (audit_now : jiff.Timestamp) : DriftTx Nat :=
  match parse until_text with
  | .error e => Prog.throw (invalid_until e)
  | .ok ts =>
    decide_drift_bulk crates filter (DriftEventRow.ignore ts.to_string)
      (fun affected =>
        { actor, kind := "drift.ignored_bulk",
          payload := json [("until", .string until_text), ("matched", of_nat affected), ("filter", filter.to_value)] })
      audit_now

/-- The columns under the UNIQUE constraint. -/
def DriftEventRow.key (row : DriftEventRow) : String × String × String :=
  (row.agent_id, row.resource_id, row.detected_at)

/-- What holds of the drift events of every run: the ids come from the sequence,
the constraint is kept, and an agent has one open row for each resource at most. -/
structure DriftTracked (seq : Nat) (rows : List DriftEventRow) : Prop where
  ids : (rows.map DriftEventRow.id).Nodup
  below : ∀ row ∈ rows, row.id < seq
  keys : (rows.map DriftEventRow.key).Nodup
  one_open : ∀ a ∈ rows, ∀ b ∈ rows, a.unresolved = true → b.unresolved = true → a.agent_id = b.agent_id →
    a.resource_id = b.resource_id → a = b

theorem concerns_iff {agent_id rid : String} {row : DriftEventRow} : concerns agent_id rid row = true ↔
    row.agent_id = agent_id ∧ row.resource_id = rid ∧ row.unresolved = true := by
  simp [concerns, and_assoc]

/-- `detected_at` of the item is taken by a resolved row of its resource. -/
def Clashes (agent_id : String) (item : iac_agent.DriftItem) (rows : List DriftEventRow) : Prop :=
  ∃ row ∈ rows, row.agent_id = agent_id ∧ row.resource_id = item.resource_id.to_string ∧
    row.detected_at = item.detected_at ∧ row.unresolved = false

section Rows

variable {seq : Nat} {rows : List DriftEventRow} {crates : Crates} {agent_id now : String} {item : iac_agent.DriftItem}

theorem DriftTracked.nil : DriftTracked seq [] :=
  ⟨List.nodup_nil, by simp, List.nodup_nil, by simp⟩

theorem DriftTracked.mono (h : DriftTracked seq rows) {more : Nat} (hle : seq ≤ more) : DriftTracked more rows :=
  ⟨h.ids, fun row hrow => (h.below row hrow).trans_le hle, h.keys, h.one_open⟩

/-- A change that leaves the keys and opens nothing keeps the rows tracked. -/
theorem DriftTracked.map (h : DriftTracked seq rows) {g : DriftEventRow → DriftEventRow} (hid : ∀ row, (g row).id = row.id)
    (hkey : ∀ row, (g row).key = row.key) (hopen : ∀ row, (g row).unresolved = true → row.unresolved = true) :
    DriftTracked seq (rows.map g) := by
  refine ⟨?_, ?_, ?_, ?_⟩
  · rw [map_key_map fun row _ => hid row]
    exact h.ids
  · exact List.forall_mem_map.mpr fun row hrow => (hid row).symm ▸ h.below row hrow
  · rw [map_key_map fun row _ => hkey row]
    exact h.keys
  · intro a' ha' b' hb' hopen_a hopen_b hagent hresource
    obtain ⟨a, ha, rfl⟩ := List.mem_map.mp ha'
    obtain ⟨b, hb, rfl⟩ := List.mem_map.mp hb'
    have hagents : ∀ row, (g row).agent_id = row.agent_id := fun row => (Prod.mk.inj (hkey row)).1
    have hresources : ∀ row, (g row).resource_id = row.resource_id := fun row => (Prod.mk.inj (Prod.mk.inj (hkey row)).2).1
    rw [hagents, hagents] at hagent
    rw [hresources, hresources] at hresource
    rw [h.one_open a ha b hb (hopen a hopen_a) (hopen b hopen_b) hagent hresource]

theorem DriftTracked.change (h : DriftTracked seq rows) {which : DriftEventRow → Bool} {change : DriftEventRow → DriftEventRow}
    (hid : ∀ row, (change row).id = row.id) (hkey : ∀ row, (change row).key = row.key)
    (hopen : ∀ row, (change row).unresolved = true → row.unresolved = true) :
    DriftTracked seq (rows.map (updated which change)) := by
  apply h.map
  · intro row
    cases hwhich : which row with
    | false => rw [updated_of_false hwhich]
    | true => rw [updated_of_true hwhich, hid]
  · intro row
    cases hwhich : which row with
    | false => rw [updated_of_false hwhich]
    | true => rw [updated_of_true hwhich, hkey]
  · intro row hopened
    cases hwhich : which row with
    | false => rwa [updated_of_false hwhich] at hopened
    | true =>
      rw [updated_of_true hwhich] at hopened
      exact hopen row hopened

/-- Refreshing the open row of a resource violates the constraint exactly when the item clashes. -/
theorem DriftTracked.refresh_keys_iff (h : DriftTracked seq rows)
    (hany : rows.any (concerns agent_id item.resource_id.to_string) = true) :
    ((rows.map (updated (concerns agent_id item.resource_id.to_string) (DriftEventRow.refresh crates now item))).map
      DriftEventRow.key).Nodup ↔ ¬ Clashes agent_id item rows := by
  obtain ⟨found, hfound, hconcerns⟩ := List.any_eq_true.mp hany
  obtain ⟨hagent, hresource, hopen⟩ := concerns_iff.mp hconcerns
  have hkey : ∀ row, concerns agent_id item.resource_id.to_string row = true →
      (updated (concerns agent_id item.resource_id.to_string) (DriftEventRow.refresh crates now item) row).key =
        (agent_id, item.resource_id.to_string, item.detected_at) := by
    intro row hrow
    obtain ⟨hagent, hresource, -⟩ := concerns_iff.mp hrow
    rw [updated_of_true hrow, DriftEventRow.key, DriftEventRow.refresh, hagent, hresource]
  have hother : ∀ row ∈ rows, row.agent_id = agent_id → row.resource_id = item.resource_id.to_string →
      row ≠ found → row.unresolved = false := by
    intro row hrow hrow_agent hrow_resource hne
    by_contra hnot
    exact hne (h.one_open row hrow found hfound (by simpa using hnot) hopen (hrow_agent.trans hagent.symm)
      (hrow_resource.trans hresource.symm))
  rw [List.map_map, List.nodup_map_iff_inj_on h.ids.of_map]
  constructor
  · rintro hinj ⟨row, hrow, hrow_agent, hrow_resource, hdetected, hresolved⟩
    have hnot : concerns agent_id item.resource_id.to_string row = false := by simp [concerns, hresolved]
    have heq := hinj row hrow found hfound (by
      rw [Function.comp_apply, Function.comp_apply, hkey found hconcerns, updated_of_false hnot, DriftEventRow.key,
        hrow_agent, hrow_resource, hdetected])
    rw [heq, hconcerns] at hnot
    cases hnot
  · intro hfree a ha b hb heq
    rw [Function.comp_apply, Function.comp_apply] at heq
    have hclash : ∀ row ∈ rows, concerns agent_id item.resource_id.to_string row = false →
        row.key ≠ (agent_id, item.resource_id.to_string, item.detected_at) := by
      intro row hrow hnot hsame
      obtain ⟨hrow_agent, hrest⟩ := Prod.mk.inj hsame
      obtain ⟨hrow_resource, hdetected⟩ := Prod.mk.inj hrest
      refine hfree ⟨row, hrow, hrow_agent, hrow_resource, hdetected, hother row hrow hrow_agent hrow_resource ?_⟩
      rintro rfl
      rw [hconcerns] at hnot
      cases hnot
    cases ha_concerns : concerns agent_id item.resource_id.to_string a with
    | true =>
      cases hb_concerns : concerns agent_id item.resource_id.to_string b with
      | true =>
        obtain ⟨ha_agent, ha_resource, ha_open⟩ := concerns_iff.mp ha_concerns
        obtain ⟨hb_agent, hb_resource, hb_open⟩ := concerns_iff.mp hb_concerns
        exact h.one_open a ha b hb ha_open hb_open (ha_agent.trans hb_agent.symm) (ha_resource.trans hb_resource.symm)
      | false =>
        rw [hkey a ha_concerns, updated_of_false hb_concerns] at heq
        exact absurd heq.symm (hclash b hb hb_concerns)
    | false =>
      rw [updated_of_false ha_concerns] at heq
      cases hb_concerns : concerns agent_id item.resource_id.to_string b with
      | true =>
        rw [hkey b hb_concerns] at heq
        exact absurd heq (hclash a ha ha_concerns)
      | false =>
        rw [updated_of_false hb_concerns] at heq
        exact List.inj_on_of_nodup_map h.keys ha hb heq

theorem DriftTracked.refresh (h : DriftTracked seq rows) (hany : rows.any (concerns agent_id item.resource_id.to_string) = true)
    (hfree : ¬ Clashes agent_id item rows) :
    DriftTracked seq (rows.map (updated (concerns agent_id item.resource_id.to_string)
      (DriftEventRow.refresh crates now item))) := by
  have hcolumns : ∀ row, ∀ refreshed, refreshed = updated (concerns agent_id item.resource_id.to_string)
      (DriftEventRow.refresh crates now item) row → refreshed.id = row.id ∧ refreshed.agent_id = row.agent_id ∧
        refreshed.resource_id = row.resource_id ∧ refreshed.unresolved = row.unresolved := by
    rintro row _ rfl
    simp only [updated]
    split <;> exact ⟨rfl, rfl, rfl, rfl⟩
  refine ⟨?_, ?_, (h.refresh_keys_iff hany).mpr hfree, ?_⟩
  · rw [map_key_map fun row _ => (hcolumns row _ rfl).1]
    exact h.ids
  · exact List.forall_mem_map.mpr fun row hrow => (hcolumns row _ rfl).1.symm ▸ h.below row hrow
  · intro a' ha' b' hb' hopen_a hopen_b hagent hresource
    obtain ⟨a, ha, rfl⟩ := List.mem_map.mp ha'
    obtain ⟨b, hb, rfl⟩ := List.mem_map.mp hb'
    rw [(hcolumns a _ rfl).2.2.2] at hopen_a
    rw [(hcolumns b _ rfl).2.2.2] at hopen_b
    rw [(hcolumns a _ rfl).2.1, (hcolumns b _ rfl).2.1] at hagent
    rw [(hcolumns a _ rfl).2.2.1, (hcolumns b _ rfl).2.2.1] at hresource
    rw [h.one_open a ha b hb hopen_a hopen_b hagent hresource]

/-- Without an open row of the resource, the item clashes exactly when its row cannot be inserted. -/
theorem clashes_iff_of_none (hnone : rows.any (concerns agent_id item.resource_id.to_string) = false) (id : Nat) :
    rows.any (DriftTable.clash .drift_events (drift_event_row crates agent_id now item id)) = true ↔
      Clashes agent_id item rows := by
  rw [List.any_eq_true]
  refine exists_congr fun row => and_congr_right fun hrow => ?_
  have hnot := List.any_eq_false.mp hnone row hrow
  simp only [DriftTable.clash, drift_event_row, Bool.and_eq_true, beq_iff_eq, and_assoc]
  constructor
  · rintro ⟨hagent, hresource, hdetected⟩
    refine ⟨hagent.symm, hresource.symm, hdetected.symm, ?_⟩
    simpa [concerns, ← hagent, ← hresource] using hnot
  · rintro ⟨hagent, hresource, hdetected, -⟩
    exact ⟨hagent.symm, hresource.symm, hdetected.symm⟩

theorem DriftTracked.append (h : DriftTracked seq rows) (hnone : rows.any (concerns agent_id item.resource_id.to_string) = false)
    (hfree : ¬ Clashes agent_id item rows) :
    DriftTracked (seq + 1) (rows ++ [drift_event_row crates agent_id now item seq]) := by
  have hnew : ∀ row ∈ rows, ¬ (row.unresolved = true ∧ row.agent_id = agent_id ∧
      row.resource_id = item.resource_id.to_string) := by
    rintro row hrow ⟨hopen, hagent, hresource⟩
    exact List.any_eq_false.mp hnone row hrow (concerns_iff.mpr ⟨hagent, hresource, hopen⟩)
  refine ⟨nodup_keys_append h.ids fun row hrow => (h.below row hrow).ne, ?_, nodup_keys_append h.keys ?_, ?_⟩
  · intro row hrow
    obtain hold | hadded := List.mem_append.mp hrow
    · exact (h.below row hold).trans (Nat.lt_succ_self _)
    · obtain rfl := List.mem_singleton.mp hadded
      exact Nat.lt_succ_self _
  · intro row hrow hkey
    obtain ⟨hagent, hrest⟩ := Prod.mk.inj hkey
    obtain ⟨hresource, hdetected⟩ := Prod.mk.inj hrest
    refine hfree ⟨row, hrow, hagent, hresource, hdetected, ?_⟩
    by_contra hnot
    exact hnew row hrow ⟨by simpa using hnot, hagent, hresource⟩
  · intro a ha b hb hopen_a hopen_b hagent hresource
    rcases List.mem_append.mp ha with ha | ha <;> rcases List.mem_append.mp hb with hb | hb
    · exact h.one_open a ha b hb hopen_a hopen_b hagent hresource
    · obtain rfl := List.mem_singleton.mp hb
      exact absurd ⟨hopen_a, hagent, hresource⟩ (hnew a ha)
    · obtain rfl := List.mem_singleton.mp ha
      exact absurd ⟨hopen_b, hagent.symm, hresource.symm⟩ (hnew b hb)
    · rw [List.mem_singleton.mp ha, List.mem_singleton.mp hb]

end Rows

end iac_controlplane.store
