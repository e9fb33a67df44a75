import Iac.Collections.Fallible
import Iac.Collections.Undo
import Iac.Controlplane.Webhook
import Mathlib.Data.List.DropRight

open undo
open iac_controlplane.webhook (AuditEvent audit_event)

namespace iac_controlplane.store

structure AuditFilter where
  since : Option String := none
  since_id : Option Int := none
  kind : Option String := none
  actor : Option String := none
  operation_id : Option String := none
  agent_id : Option String := none
  limit : Option Int := none

/-- The conditions that the query adds for the filter. -/
def AuditFilter.selects (filter : AuditFilter) (row : AuditEventRow) : Bool :=
  filter.since.all (fun s => s ≤ row.timestamp) && filter.since_id.all (fun id => id < (row.id : Int)) &&
    filter.kind.all (fun k => row.kind == k) && filter.actor.all (fun a => row.actor == a) &&
    filter.operation_id.all (fun op => row.operation_id == some op) && filter.agent_id.all (fun ag => row.agent_id == some ag)

/-- `unwrap_or(200).clamp(1, 1000)`. -/
def AuditFilter.row_limit (filter : AuditFilter) : Nat :=
  (max 1 (min (filter.limit.getD 200) 1000)).toNat

/-- `ORDER BY id DESC LIMIT ?`. -/
def list_rows (filter : AuditFilter) (rows : List AuditEventRow) : List AuditEventRow :=
  (newest_first AuditEventRow.id (rows.filter filter.selects)).take filter.row_limit

/-- The event of a row; a payload that does not parse is an error. -/
def listed_event (crates : Crates) (row : AuditEventRow) : Except ApiError AuditEvent := do
  let payload ← json_error (crates.from_str row.payload_json)
  return { id := row.id, kind := row.kind, severity := row.severity, payload }

def list_audit (crates : Crates) (filter : AuditFilter) (rows : List AuditEventRow) : Except ApiError (List AuditEvent) :=
  (list_rows filter rows).mapM (listed_event crates)

section Spec

variable {crates : Crates} {filter : AuditFilter} {rows : List AuditEventRow}

theorem row_limit_pos : 0 < filter.row_limit := by
  have hclamp : 1 ≤ max 1 (min (filter.limit.getD 200) 1000) := le_max_left _ _
  rw [AuditFilter.row_limit]
  omega

/-- The query answers with the newest rows that it selects. -/
theorem list_rows_eq (hsorted : rows.Pairwise fun a b => a.id < b.id) :
    list_rows filter rows = ((rows.filter filter.selects).rtake filter.row_limit).reverse := by
  rw [list_rows, newest_first_of_perm (hsorted.sublist List.filter_sublist) (.refl _), List.rtake_eq_reverse_take_reverse,
    List.reverse_reverse]

theorem listed_event_ok {row : AuditEventRow} {event : AuditEvent} (h : listed_event crates row = .ok event) :
    event = audit_event crates row := by
  obtain ⟨payload, hpayload, hevent⟩ := fallible.bind_eq_ok_iff.mp h
  obtain rfl := Except.ok.inj hevent
  rw [audit_event, json_error_ok_iff.mp hpayload]

/-- The list is ok when the payloads on it parse. -/
theorem list_audit_ok (h : ∀ row ∈ rows, ∃ payload, crates.from_str row.payload_json = .ok payload) :
    ∃ events, list_audit crates filter rows = .ok events := by
  have hevents : ∀ row ∈ list_rows filter rows, ∃ event, listed_event crates row = .ok event ∧ True := fun row hrow => by
    have hmem := (newest_first_perm _).mem_iff.mp (List.mem_of_mem_take hrow)
    obtain ⟨payload, hpayload⟩ := h row (List.mem_filter.mp hmem).1
    exact ⟨_, fallible.bind_eq_ok_iff.mpr ⟨payload, json_error_ok_iff.mpr hpayload, rfl⟩, trivial⟩
  obtain ⟨events, hevents, -⟩ := fallible.exists_mapM_ok_iff.mpr hevents
  exact ⟨events, hevents⟩

private theorem map_of_forall₂ {listed : List AuditEventRow} {events : List AuditEvent}
    (h : List.Forall₂ (fun row event => listed_event crates row = .ok event) listed events) :
    events = listed.map (audit_event crates) := by
  induction h with
  | nil => rfl
  | cons hhead htail ih => rw [List.map_cons, listed_event_ok hhead, ih]

/-- Sorted by id again, they are the events of the newest rows in the order of the table. -/
theorem sorted_list_audit (hsorted : rows.Pairwise fun a b => a.id < b.id) {events : List AuditEvent}
    (h : list_audit crates filter rows = .ok events) : (events.insertionSort fun a b => a.id ≤ b.id) =
      ((rows.filter filter.selects).rtake filter.row_limit).map (audit_event crates) := by
  let page := (rows.filter filter.selects).rtake filter.row_limit
  have hpage : page.Pairwise fun a b => a.id < b.id :=
    (hsorted.sublist List.filter_sublist).sublist (List.drop_sublist _ _)
  have hevents : (page.map (audit_event crates)).Pairwise fun a b => a.id < b.id := List.pairwise_map.mpr hpage
  have hperm : (events.insertionSort fun a b => a.id ≤ b.id).Perm (page.map (audit_event crates)) := by
    rw [map_of_forall₂ (fallible.mapM_ok_iff.mp h), list_rows_eq hsorted, List.map_reverse]
    exact (List.perm_insertionSort _ _).trans (List.reverse_perm _)
  have hids : ((page.map (audit_event crates)).map AuditEvent.id).Nodup :=
    (List.pairwise_map.mpr hevents).imp Nat.ne_of_lt
  refine hperm.eq_of_pairwise (fun a b ha hb hab hba => ?_) (List.pairwise_insertionSort _ _) (hevents.imp Nat.le_of_lt)
  exact List.inj_on_of_nodup_map hids (hperm.mem_iff.mp ha) hb (Nat.le_antisymm hab hba)

end Spec

end iac_controlplane.store
