import Iac.Controlplane.Store.Drift

open iac_core sql

namespace iac_controlplane.store

variable {crates : Crates} {agent_id now : String} {item : iac_agent.DriftItem} {items done : List iac_agent.DriftItem}

/-- The rows after one round of the loop of `record_drift`. -/
def recorded_one (crates : Crates) (agent_id now : String) (item : iac_agent.DriftItem) (id : Nat)
    (rows : List DriftEventRow) : List DriftEventRow :=
  if rows.any (concerns agent_id item.resource_id.to_string) then
    rows.map (updated (concerns agent_id item.resource_id.to_string) (DriftEventRow.refresh crates now item))
  else rows ++ [drift_event_row crates agent_id now item id]

section Rounds

variable {db : DriftStore} {count : Nat}

private theorem clashing_iff {rows : List (DriftTable.Row .drift_events)} :
    clashing DriftTable.drift_events rows = false ↔ (rows.map DriftEventRow.key).Nodup := by
  apply clashing_eq_false_iff
  intro a b
  change DriftTable.clash .drift_events a b = false ↔ _
  simp [DriftTable.clash, DriftEventRow.key]

private theorem none_updated {which : DriftEventRow → Bool} {rows : List DriftEventRow}
    (change : DriftEventRow → DriftEventRow) (h : rows.any which = false) :
    rows.map (updated which change) = rows ∧ rows.filter which = [] :=
  ⟨map_updated_eq_self fun row hrow => by simpa using List.any_eq_false.mp h row hrow,
    List.filter_eq_nil_iff.mpr (List.any_eq_false.mp h)⟩

/-- A round with an item that does not clash goes on from the recorded rows. -/
theorem record_round (h : DriftTracked (db.seq .drift_events) (db.rows .drift_events))
    (hfree : ¬ Clashes agent_id item (db.rows .drift_events)) :
    ∃ mid : DriftStore, (record_items crates agent_id now (item :: items) count).run db =
        (record_items crates agent_id now items (count + 1)).run mid ∧
      mid.rows .drift_events =
        recorded_one crates agent_id now item (db.seq .drift_events) (db.rows .drift_events) ∧
      DriftTracked (mid.seq .drift_events) (mid.rows .drift_events) := by
  rw [record_items, run_bind, run_update_unique]
  cases hany : (db.rows .drift_events).any (concerns agent_id item.resource_id.to_string) with
  | true =>
    rw [clashing_iff.mpr ((h.refresh_keys_iff hany).mpr hfree)]
    obtain ⟨row, hrow, hconcerns⟩ := List.any_eq_true.mp hany
    have hsome : ((db.rows .drift_events).filter (concerns agent_id item.resource_id.to_string)).length ≠ 0 :=
      List.length_pos_iff.mpr (List.ne_nil_of_mem (List.mem_filter.mpr ⟨hrow, hconcerns⟩)) |>.ne'
    refine ⟨db.set_rows .drift_events ((db.rows .drift_events).map (updated
      (concerns agent_id item.resource_id.to_string) (DriftEventRow.refresh crates now item))), ?_, ?_, ?_⟩
    · simp only [Bool.false_eq_true, if_false, List.length_map]
      rw [if_neg hsome]
    · rw [Db.set_rows_self, recorded_one, if_pos hany]
    · rw [Db.set_rows_self]
      exact h.refresh hany hfree
  | false =>
    obtain ⟨hsame, hnone⟩ := none_updated (DriftEventRow.refresh crates now item) hany
    have hinsert : ((db.rows .drift_events).any (Schema.clash DriftTable.drift_events
        (drift_event_row crates agent_id now item (db.seq .drift_events)))) = false := by
      rw [Bool.eq_false_iff]
      exact fun hclash => hfree ((clashes_iff_of_none hany _).mp hclash)
    rw [hsame, clashing_iff.mpr h.keys, Db.set_rows_rows]
    refine ⟨(db.next_id .drift_events).set_rows .drift_events (db.rows .drift_events ++
      [drift_event_row crates agent_id now item (db.seq .drift_events)]), ?_, ?_, ?_⟩
    · simp only [Bool.false_eq_true, if_false, hnone, List.map_nil, List.length_nil, if_true]
      rw [run_bind, run_insert_into, hinsert]
      rfl
    · rw [Db.set_rows_self, recorded_one, hany]
      rfl
    · rw [Db.set_rows_self, Db.set_rows_seq]
      have hseq : (db.next_id .drift_events).seq .drift_events = db.seq .drift_events + 1 := by simp [Db.next_id]
      rw [hseq]
      exact h.append hany hfree

/-- A round with an item that clashes is the last one. -/
theorem record_round_refused (h : DriftTracked (db.seq .drift_events) (db.rows .drift_events))
    (hclash : Clashes agent_id item (db.rows .drift_events)) :
    ∃ after, (record_items crates agent_id now (item :: items) count).run db = (.error unique_violation, after) := by
  rw [record_items, run_bind, run_update_unique]
  cases hany : (db.rows .drift_events).any (concerns agent_id item.resource_id.to_string) with
  | true =>
    have hrefused : clashing DriftTable.drift_events ((db.rows .drift_events).map (updated
        (concerns agent_id item.resource_id.to_string) (DriftEventRow.refresh crates now item))) = true := by
      rw [← Bool.not_eq_false, clashing_iff, h.refresh_keys_iff hany, not_not]
      exact hclash
    rw [hrefused]
    exact ⟨_, rfl⟩
  | false =>
    obtain ⟨hsame, hnone⟩ := none_updated (DriftEventRow.refresh crates now item) hany
    have hinsert : ((db.rows .drift_events).any (Schema.clash DriftTable.drift_events
        (drift_event_row crates agent_id now item (db.seq .drift_events)))) = true :=
      (clashes_iff_of_none hany _).mpr hclash
    rw [hsame, clashing_iff.mpr h.keys, Db.set_rows_rows]
    simp only [Bool.false_eq_true, if_false, hnone, List.map_nil, List.length_nil, if_true]
    rw [run_bind, run_insert_into, hinsert]
    exact ⟨_, rfl⟩

end Rounds

/-- The row is one of the agent's open ones. -/
def opened_for (agent_id : String) (row : DriftEventRow) : Bool :=
  row.agent_id == agent_id && row.unresolved

/-- The last item of the batch for the resource. -/
def last_item (items : List iac_agent.DriftItem) (rid : String) : Option iac_agent.DriftItem :=
  items.reverse.find? fun item => item.resource_id.to_string == rid

/-- The row reports what the item does. -/
structure Holds (crates : Crates) (item : iac_agent.DriftItem) (row : DriftEventRow) : Prop where
  resource_id : row.resource_id = item.resource_id.to_string
  kind : row.kind = item.resource_id.kind
  severity : row.severity = item.severity
  diff_json : row.diff_json = crates.to_string (diff_value item.diff)
  detected_at : row.detected_at = item.detected_at

/-- The row takes the place of the open row of its resource, and is ignored as
long, or there was none and it is new. -/
def Continues (agent_id : String) (before : List DriftEventRow) (row : DriftEventRow) : Prop :=
  (∃ old ∈ before, concerns agent_id row.resource_id old = true ∧ row.id = old.id ∧
      row.ignored_until = old.ignored_until) ∨
    (∀ old ∈ before, concerns agent_id row.resource_id old = false) ∧ row.ignored_until = none

/-- The rows of another agent and the resolved ones are those of before. -/
def SameOthers (agent_id : String) (before after : List DriftEventRow) : Prop :=
  after.filter (fun row => !opened_for agent_id row) = before.filter fun row => !opened_for agent_id row

/-- The rows `rows` that the loop of `record_drift` makes of `before` with the items `done`. -/
structure DriftRecorded (crates : Crates) (agent_id : String) (done : List iac_agent.DriftItem)
    (before rows : List DriftEventRow) : Prop where
  others : SameOthers agent_id before rows
  last : ∀ row ∈ rows, opened_for agent_id row = true →
    match last_item done row.resource_id with
    | some item => Holds crates item row
    | none => row ∈ before
  covered : ∀ item ∈ done, rows.any (concerns agent_id item.resource_id.to_string) = true
  continues : ∀ row ∈ rows, opened_for agent_id row = true → Continues agent_id before row
  persists : ∀ old ∈ before, opened_for agent_id old = true → rows.any (concerns agent_id old.resource_id) = true

theorem opened_of_concerns {rid : String} {row : DriftEventRow} (h : concerns agent_id rid row = true) :
    opened_for agent_id row = true ∧ row.resource_id = rid := by
  obtain ⟨hagent, hresource, hopen⟩ := concerns_iff.mp h
  exact ⟨by simp [opened_for, hagent, hopen], hresource⟩

theorem concerns_of_opened {row : DriftEventRow} (h : opened_for agent_id row = true) :
    concerns agent_id row.resource_id row = true := by
  simp only [opened_for, Bool.and_eq_true, beq_iff_eq] at h
  exact concerns_iff.mpr ⟨h.1, rfl, h.2⟩

theorem last_item_concat (done : List iac_agent.DriftItem) (item : iac_agent.DriftItem) (rid : String) :
    last_item (done ++ [item]) rid =
      if item.resource_id.to_string = rid then some item else last_item done rid := by
  rw [last_item, List.reverse_append, List.reverse_singleton, List.singleton_append, List.find?_cons]
  cases hsame : item.resource_id.to_string == rid with
  | true => rw [if_pos (beq_iff_eq.mp hsame)]
  | false =>
    rw [if_neg (beq_eq_false_iff_ne.mp hsame)]
    rfl

theorem last_item_eq_none_iff {rid : String} :
    last_item items rid = none ↔ ∀ item ∈ items, item.resource_id.to_string ≠ rid := by
  simp [last_item]

theorem DriftRecorded.nil (before : List DriftEventRow) : DriftRecorded crates agent_id [] before before where
  others := rfl
  last _ hrow _ := hrow
  covered := by simp
  continues row hrow hopen := .inl ⟨row, hrow, concerns_of_opened hopen, rfl, rfl⟩
  persists old hold hopen := List.any_eq_true.mpr ⟨old, hold, concerns_of_opened hopen⟩

/-- An UPDATE of rows outside the filter that leaves them outside keeps the filtered rows. -/
theorem filter_map_updated {R : Type} {which kept : R → Bool} {change : R → R} {rows : List R}
    (h : ∀ row, which row = true → kept row = false ∧ kept (change row) = false) :
    (rows.map (updated which change)).filter kept = rows.filter kept := by
  induction rows with
  | nil => rfl
  | cons row rows ih =>
    rw [List.map_cons, List.filter_cons, List.filter_cons, ih]
    cases hwhich : which row with
    | false => rw [updated_of_false hwhich]
    | true =>
      rw [updated_of_true hwhich]
      simp [(h row hwhich).1, (h row hwhich).2]

section Items

variable {before rows : List DriftEventRow}

private theorem refresh_opened (row : DriftEventRow) :
    opened_for agent_id (row.refresh crates now item) = opened_for agent_id row := rfl

private theorem concerns_refresh (rid rid' : String) (row : DriftEventRow) :
    concerns agent_id rid (updated (concerns agent_id rid') (DriftEventRow.refresh crates now item) row) =
      concerns agent_id rid row := by
  rw [updated]
  split <;> rfl

private theorem DriftRecorded.refresh (h : DriftRecorded crates agent_id done before rows)
    (hany : rows.any (concerns agent_id item.resource_id.to_string) = true) :
    DriftRecorded crates agent_id (done ++ [item]) before (rows.map (updated
      (concerns agent_id item.resource_id.to_string) (DriftEventRow.refresh crates now item))) := by
  have hany_map (rid : String) : ((rows.map (updated (concerns agent_id item.resource_id.to_string)
      (DriftEventRow.refresh crates now item))).any (concerns agent_id rid)) = rows.any (concerns agent_id rid) := by
    rw [List.any_map]
    exact congrArg rows.any (funext fun row => concerns_refresh rid _ row)
  constructor
  case others =>
    refine (filter_map_updated fun row hrow => ?_).trans h.others
    rw [refresh_opened, (opened_of_concerns hrow).1]
    exact ⟨rfl, rfl⟩
  case last =>
    refine List.forall_mem_map.mpr fun row hrow => ?_
    cases hconcerns : concerns agent_id item.resource_id.to_string row with
    | true =>
      rw [updated_of_true hconcerns]
      intro _
      have hresource : (row.refresh crates now item).resource_id = item.resource_id.to_string :=
        (opened_of_concerns hconcerns).2
      rw [last_item_concat, if_pos hresource.symm]
      exact ⟨hresource, rfl, rfl, rfl, rfl⟩
    | false =>
      rw [updated_of_false hconcerns]
      intro hopen
      have hother : item.resource_id.to_string ≠ row.resource_id := by
        intro heq
        rw [heq, concerns_of_opened hopen] at hconcerns
        cases hconcerns
      rw [last_item_concat, if_neg hother]
      exact h.last row hrow hopen
  case covered =>
    intro other hother
    rw [hany_map]
    obtain hdone | hnew := List.mem_append.mp hother
    · exact h.covered other hdone
    · rw [List.mem_singleton.mp hnew]
      exact hany
  case continues =>
    refine List.forall_mem_map.mpr fun row hrow => ?_
    cases hconcerns : concerns agent_id item.resource_id.to_string row with
    | true =>
      rw [updated_of_true hconcerns, refresh_opened]
      exact h.continues row hrow
    | false =>
      rw [updated_of_false hconcerns]
      exact h.continues row hrow
  case persists =>
    intro old hold hopen
    rw [hany_map]
    exact h.persists old hold hopen

private theorem DriftRecorded.append (h : DriftRecorded crates agent_id done before rows)
    (hnone : rows.any (concerns agent_id item.resource_id.to_string) = false) (id : Nat) :
    DriftRecorded crates agent_id (done ++ [item]) before (rows ++ [drift_event_row crates agent_id now item id]) := by
  have hopened : opened_for agent_id (drift_event_row crates agent_id now item id) = true := by
    simp [opened_for, drift_event_row, DriftEventRow.unresolved]
  have hnew : concerns agent_id item.resource_id.to_string (drift_event_row crates agent_id now item id) = true :=
    concerns_of_opened hopened
  constructor
  case others =>
    rw [SameOthers, List.filter_append, List.filter_singleton, hopened]
    exact (List.append_nil _).trans h.others
  case last =>
    intro row hrow hopen
    obtain hold | hadded := List.mem_append.mp hrow
    · have hother : item.resource_id.to_string ≠ row.resource_id := by
        intro heq
        refine List.any_eq_false.mp hnone row hold ?_
        rw [heq]
        exact concerns_of_opened hopen
      rw [last_item_concat, if_neg hother]
      exact h.last row hold hopen
    · obtain rfl := List.mem_singleton.mp hadded
      have hresource : (drift_event_row crates agent_id now item id).resource_id = item.resource_id.to_string := rfl
      rw [last_item_concat, if_pos hresource.symm]
      exact ⟨rfl, rfl, rfl, rfl, rfl⟩
  case covered =>
    intro other hother
    rw [List.any_append, Bool.or_eq_true]
    obtain hdone | hlast := List.mem_append.mp hother
    · exact .inl (h.covered other hdone)
    · rw [List.mem_singleton.mp hlast]
      exact .inr (List.any_eq_true.mpr ⟨_, List.mem_singleton_self _, hnew⟩)
  case continues =>
    intro row hrow hopen
    obtain hold | hadded := List.mem_append.mp hrow
    · exact h.continues row hold hopen
    · obtain rfl := List.mem_singleton.mp hadded
      refine .inr ⟨fun old hold => ?_, rfl⟩
      by_contra hnot
      rw [Bool.not_eq_false] at hnot
      obtain ⟨hopen_old, hresource⟩ := opened_of_concerns hnot
      have hkept := h.persists old hold hopen_old
      rw [hresource] at hkept
      exact Bool.eq_false_iff.mp hnone hkept
  case persists =>
    intro old hold hopen
    rw [List.any_append, h.persists old hold hopen, Bool.true_or]

/-- One more round of the loop. -/
theorem DriftRecorded.round (h : DriftRecorded crates agent_id done before rows) (item : iac_agent.DriftItem) (id : Nat) :
    DriftRecorded crates agent_id (done ++ [item]) before (recorded_one crates agent_id now item id rows) := by
  rw [recorded_one]
  split
  · next hany => exact h.refresh hany
  · next hnone => exact h.append (Bool.eq_false_iff.mpr hnone) id

theorem clashes_congr {after : List DriftEventRow} (h : SameOthers agent_id before after) :
    Clashes agent_id item after ↔ Clashes agent_id item before := by
  have hfilter (rows : List DriftEventRow) : Clashes agent_id item rows ↔
      Clashes agent_id item (rows.filter fun row => !opened_for agent_id row) := by
    refine exists_congr fun row => ?_
    rw [List.mem_filter]
    constructor
    · rintro ⟨hrow, hagent, hresource, hdetected, hresolved⟩
      exact ⟨⟨hrow, by simp [opened_for, hresolved]⟩, hagent, hresource, hdetected, hresolved⟩
    · rintro ⟨⟨hrow, -⟩, hagent, hresource, hdetected, hresolved⟩
      exact ⟨hrow, hagent, hresource, hdetected, hresolved⟩
  rw [hfilter after, hfilter before, h]

end Items

section Batches

variable {before : List DriftEventRow}

/-- The loop goes through a batch without clashes. -/
theorem record_items_run {db : DriftStore} {count : Nat} (htracked : DriftTracked (db.seq .drift_events) (db.rows .drift_events))
    (hrecorded : DriftRecorded crates agent_id done before (db.rows .drift_events))
    (hfree : ∀ item ∈ items, ¬ Clashes agent_id item before) :
    ∃ after : DriftStore, (record_items crates agent_id now items count).run db = (.ok (count + items.length), after) ∧
      DriftRecorded crates agent_id (done ++ items) before (after.rows .drift_events) ∧
      DriftTracked (after.seq .drift_events) (after.rows .drift_events) := by
  induction items generalizing db count done with
  | nil =>
    rw [List.append_nil]
    exact ⟨db, rfl, hrecorded, htracked⟩
  | cons item items ih =>
    obtain ⟨hitem, hrest⟩ := List.forall_mem_cons.mp hfree
    obtain ⟨mid, hround, hrows, hmid⟩ := record_round htracked (mt (clashes_congr hrecorded.others).mp hitem)
    obtain ⟨after, hrun, hall, hafter⟩ := ih hmid (hrows ▸ hrecorded.round item _) hrest
    refine ⟨after, ?_, ?_, hafter⟩
    · rw [hround, hrun, List.length_cons, Nat.add_assoc, Nat.add_comm 1]
    · rw [← List.singleton_append, ← List.append_assoc]
      exact hall

/-- The loop stops at the first clash. -/
theorem record_items_refused {db : DriftStore} {count : Nat}
    (htracked : DriftTracked (db.seq .drift_events) (db.rows .drift_events))
    (hrecorded : DriftRecorded crates agent_id done before (db.rows .drift_events))
    (hclash : ∃ item ∈ items, Clashes agent_id item before) :
    ∃ after, (record_items crates agent_id now items count).run db = (.error unique_violation, after) := by
  induction items generalizing db count done with
  | nil => simp at hclash
  | cons item items ih =>
    by_cases hitem : Clashes agent_id item before
    · exact record_round_refused htracked ((clashes_congr hrecorded.others).mpr hitem)
    · have hrest : ∃ item ∈ items, Clashes agent_id item before := by
        obtain ⟨other, hother, hclash⟩ := hclash
        refine ⟨other, (List.mem_cons.mp hother).resolve_left ?_, hclash⟩
        rintro rfl
        exact hitem hclash
      obtain ⟨mid, hround, hrows, hmid⟩ := record_round htracked (mt (clashes_congr hrecorded.others).mp hitem)
      rw [hround]
      exact ih hmid (hrows ▸ hrecorded.round item _) hrest

/-- The open rows of the agent that the push does not report. -/
def unreported (agent_id : String) (current : List String) (row : DriftEventRow) : Bool :=
  opened_for agent_id row && !current.contains row.resource_id

theorem run_close_drift_not_in (current : List String) (now : jiff.Timestamp) (db : DriftStore) :
    ∃ n, (close_drift_not_in agent_id current now).run db = (.ok n, db.set_rows .drift_events
      ((db.rows .drift_events).map (updated (unreported agent_id current) (DriftEventRow.stop now.to_string)))) := by
  rw [close_drift_not_in]
  split
  · next hempty =>
    rw [List.isEmpty_iff.mp hempty]
    have hwhich : (unreported agent_id []) = fun row => row.agent_id == agent_id && row.unresolved := by
      funext row
      simp [unreported, opened_for]
    rw [hwhich, run_bind_ok (run_update_where _ _ _ _)]
    exact ⟨_, rfl⟩
  · rw [run_bind_ok (run_update_where _ _ _ _)]
    exact ⟨_, rfl⟩

/-- The drift events after a push: one open row of the agent for each resource
of the batch, with its last item, and all other rows as they were. -/
structure Reconciled (crates : Crates) (agent_id : String) (items : List iac_agent.DriftItem)
    (before after : List DriftEventRow) : Prop where
  one_each : ((after.filter (opened_for agent_id)).map DriftEventRow.resource_id).Nodup
  reported : ∀ rid, rid ∈ (after.filter (opened_for agent_id)).map DriftEventRow.resource_id ↔
    ∃ item ∈ items, item.resource_id.to_string = rid
  last : ∀ row ∈ after, opened_for agent_id row = true →
    ∃ item, last_item items row.resource_id = some item ∧ Holds crates item row
  continues : ∀ row ∈ after, opened_for agent_id row = true → Continues agent_id before row
  others : ∀ row, row.agent_id ≠ agent_id → (row ∈ after ↔ row ∈ before)
  resolved : ∀ row ∈ before, row.unresolved = false → row ∈ after

private theorem mem_closed {rows : List DriftEventRow} {current : List String} {row : DriftEventRow} {closed_at : String} :
    row ∈ rows.map (updated (unreported agent_id current) (DriftEventRow.stop closed_at)) ∧
        opened_for agent_id row = true ↔
      row ∈ rows ∧ opened_for agent_id row = true ∧ row.resource_id ∈ current := by
  constructor
  · rintro ⟨hrow, hopen⟩
    obtain ⟨old, hold, rfl⟩ := List.mem_map.mp hrow
    cases hwhich : unreported agent_id current old with
    | true =>
      rw [updated_of_true hwhich] at hopen
      simp [opened_for, DriftEventRow.stop, DriftEventRow.unresolved] at hopen
    | false =>
      rw [updated_of_false hwhich] at hopen ⊢
      rw [unreported, hopen, Bool.true_and, Bool.not_eq_false', List.contains_iff_mem] at hwhich
      exact ⟨hold, hopen, hwhich⟩
  · rintro ⟨hrow, hopen, hmem⟩
    refine ⟨List.mem_map.mpr ⟨row, hrow, updated_of_false ?_⟩, hopen⟩
    simp [unreported, hmem]

/-- The push leaves a row alone that is not one of the agent's open rows. -/
private theorem mem_closed_of_other {rows : List DriftEventRow} {current : List String} {row : DriftEventRow}
    {closed_at : String} (h : SameOthers agent_id before rows) (hrow : row ∈ before)
    (hother : opened_for agent_id row = false) :
    row ∈ rows.map (updated (unreported agent_id current) (DriftEventRow.stop closed_at)) := by
  have hkept : row ∈ rows.filter fun row => !opened_for agent_id row := by
    rw [h]
    exact List.mem_filter.mpr ⟨hrow, by simp [hother]⟩
  refine List.mem_map.mpr ⟨row, List.mem_of_mem_filter hkept, updated_of_false ?_⟩
  rw [unreported, hother, Bool.false_and]

private theorem opened_for_other {row : DriftEventRow} (h : row.agent_id ≠ agent_id) :
    opened_for agent_id row = false := by
  simp [opened_for, h]

private theorem nodup_opened {seq : Nat} {rows : List DriftEventRow} (h : DriftTracked seq rows) :
    ((rows.filter (opened_for agent_id)).map DriftEventRow.resource_id).Nodup := by
  apply List.Nodup.map_on
  · intro a ha b hb hresource
    obtain ⟨ha, hopen_a⟩ := List.mem_filter.mp ha
    obtain ⟨hb, hopen_b⟩ := List.mem_filter.mp hb
    simp only [opened_for, Bool.and_eq_true, beq_iff_eq] at hopen_a hopen_b
    exact h.one_open a ha b hb hopen_a.2 hopen_b.2 (hopen_a.1.trans hopen_b.1.symm) hresource
  · exact h.ids.of_map.filter _

theorem DriftTracked.stop {seq : Nat} {rows : List DriftEventRow} (h : DriftTracked seq rows)
    (which : DriftEventRow → Bool) (closed_at : String) :
    DriftTracked seq (rows.map (updated which (DriftEventRow.stop closed_at))) := by
  apply h.change
  · exact fun row => rfl
  · exact fun row => rfl
  · intro row hopen
    simp [DriftEventRow.stop, DriftEventRow.unresolved] at hopen

theorem DriftRecorded.close {rows : List DriftEventRow} {seq : Nat} (h : DriftRecorded crates agent_id items before rows)
    (htracked : DriftTracked seq rows) (closed_at : String) :
    Reconciled crates agent_id items before (rows.map (updated
      (unreported agent_id (items.map fun item => item.resource_id.to_string)) (DriftEventRow.stop closed_at))) := by
  have hopen_rows {row : DriftEventRow} (hrow : row ∈ rows.map (updated (unreported agent_id
      (items.map fun item => item.resource_id.to_string)) (DriftEventRow.stop closed_at)))
      (hopen : opened_for agent_id row = true) :
      row ∈ rows ∧ ∃ item ∈ items, item.resource_id.to_string = row.resource_id := by
    obtain ⟨hold, -, hreported⟩ := mem_closed.mp ⟨hrow, hopen⟩
    exact ⟨hold, List.mem_map.mp hreported⟩
  constructor
  case one_each => exact nodup_opened (htracked.stop _ closed_at)
  case reported =>
    intro rid
    constructor
    · intro hrid
      obtain ⟨row, hrow, rfl⟩ := List.mem_map.mp hrid
      obtain ⟨hrow, hopen⟩ := List.mem_filter.mp hrow
      exact (hopen_rows hrow hopen).2
    · rintro ⟨item, hitem, rfl⟩
      obtain ⟨row, hrow, hconcerns⟩ := List.any_eq_true.mp (h.covered item hitem)
      obtain ⟨hopen, hresource⟩ := opened_of_concerns hconcerns
      have hreported : row.resource_id ∈ items.map fun item => item.resource_id.to_string :=
        List.mem_map.mpr ⟨item, hitem, hresource.symm⟩
      obtain ⟨hkept, -⟩ := mem_closed.mpr ⟨hrow, hopen, hreported⟩
      exact List.mem_map.mpr ⟨row, List.mem_filter.mpr ⟨hkept, hopen⟩, hresource⟩
  case last =>
    intro row hrow hopen
    obtain ⟨hold, item, hitem, hresource⟩ := hopen_rows hrow hopen
    have hlast := h.last row hold hopen
    cases hfound : last_item items row.resource_id with
    | none => exact absurd hresource (last_item_eq_none_iff.mp hfound item hitem)
    | some found =>
      rw [hfound] at hlast
      exact ⟨found, rfl, hlast⟩
  case continues =>
    intro row hrow hopen
    exact h.continues row (hopen_rows hrow hopen).1 hopen
  case others =>
    intro row hagent
    constructor
    · intro hrow
      obtain ⟨old, hold, rfl⟩ := List.mem_map.mp hrow
      have hold_agent : old.agent_id ≠ agent_id := by
        rw [updated] at hagent
        split at hagent <;> exact hagent
      have hwhich : unreported agent_id (items.map fun item => item.resource_id.to_string) old = false := by
        rw [unreported, opened_for_other hold_agent, Bool.false_and]
      rw [updated_of_false hwhich]
      have hkept : old ∈ rows.filter fun row => !opened_for agent_id row :=
        List.mem_filter.mpr ⟨hold, by simp [opened_for_other hold_agent]⟩
      rw [h.others] at hkept
      exact List.mem_of_mem_filter hkept
    · exact fun hrow => mem_closed_of_other h.others hrow (opened_for_other hagent)
  case resolved =>
    intro row hrow hresolved
    exact mem_closed_of_other h.others hrow (by simp [opened_for, hresolved])

end Batches

end iac_controlplane.store
