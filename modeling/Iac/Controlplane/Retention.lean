import Iac.Controlplane.Store.Schema
import Iac.Core.Timestamp.Order
import Iac.Sql.Query
import Iac.Sql.Window
import Mathlib.Data.PNat.Defs
import Mathlib.Data.Prod.Lex
import Mathlib.Data.String.Basic

open iac_controlplane.store sql

namespace iac_controlplane.retention

/-- The most hours that a `Span` holds. -/
def max_span_hours : Nat := 175307616

/-- The text of the time so many days ago. `later` is what the clock reads when
that time is out of range. -/
def cutoff_string (now later : jiff.Timestamp) (days : Nat) : String :=
  let hours := days * 24
  let span := if hours ≤ max_span_hours then hours else 0
  match now.minus_seconds (span * 3600) with
  | some cutoff => cutoff.to_string
  | none => later.to_string

def delete_older_than (t : Table) (column : Row t → String) (now later : jiff.Timestamp) (days : Nat) : Tx Nat := do
  let cutoff := cutoff_string now later days
  let deleted ← sql_delete t fun row => decide (column row < cutoff)
  return deleted.length

structure ObservationRow where
  id : Nat
  agent_id : String
  resource_id : String
  kind : String
  observed_at : String
  present : Bool
  spec_json : String
  facts_json : String
  received_at : String

variable {R K L : Type} [DecidableEq K] [LinearOrder L]

/-- `DELETE … WHERE id IN (…)`: the rows it leaves and how many it removed. -/
def delete_ids (id : R → Nat) (ids : List Nat) (rows : List R) : List R × Nat :=
  (rows.filter fun row => !ids.contains (id row), (rows.filter fun row => ids.contains (id row)).length)

/-- The delete without a LIMIT. -/
def delete_beyond (w : Window R K L) (id : R → Nat) (max_per_resource : Nat) (rows : List R) : List R × Nat :=
  delete_ids id ((w.beyond max_per_resource rows).map id) rows

/-- One chunk. Without an ORDER BY the LIMIT takes whichever rows are scanned first. -/
def delete_chunk (w : Window R K L) (id : R → Nat) (CHUNK_SIZE : ℕ+) (scan : Scan R) (max_per_resource : Nat)
    (rows : List R) : List R × Nat :=
  delete_ids id (((scan.order (w.beyond max_per_resource rows)).take CHUNK_SIZE).map id) rows

/-- The loop over the chunks, with the rows scanned anew for each of them. -/
def prune_per_resource (w : Window R K L) (id : R → Nat) (CHUNK_SIZE : ℕ+) (scans : Nat → Scan R)
    (max_per_resource : Nat) (total : Nat) : Nat → List R → Option (List R × Nat)
  | 0, _ => none
  | fuel + 1, rows =>
    let (left, n) := delete_chunk w id CHUNK_SIZE (scans 0) max_per_resource rows
    if n < CHUNK_SIZE then some (left, total + n)
    else prune_per_resource w id CHUNK_SIZE (fun round => scans (round + 1)) max_per_resource (total + n) fuel left

/-- `PARTITION BY agent_id, resource_id ORDER BY observed_at DESC, id DESC`. -/
def observations_window : Window ObservationRow (String × String) (String ×ₗ Nat) where
  partition row := (row.agent_id, row.resource_id)
  order row := toLex (row.observed_at, row.id)

/-- `PARTITION BY resource_id ORDER BY id DESC`. -/
def desired_states_window : Window DesiredStateRow String Nat where
  partition row := row.resource_id
  order row := row.id

def prune_observations_per_resource (CHUNK_SIZE : ℕ+) (scans : Nat → Scan ObservationRow) (max_per_resource : Nat)
    (fuel : Nat) (rows : List ObservationRow) : Option (List ObservationRow × Nat) :=
  prune_per_resource observations_window (·.id) CHUNK_SIZE scans max_per_resource 0 fuel rows

def prune_desired_states_per_resource (CHUNK_SIZE : ℕ+) (scans : Nat → Scan DesiredStateRow) (max_per_resource : Nat)
    (fuel : Nat) (rows : List DesiredStateRow) : Option (List DesiredStateRow × Nat) :=
  prune_per_resource desired_states_window (·.id) CHUNK_SIZE scans max_per_resource 0 fuel rows

end iac_controlplane.retention

namespace iac_controlplane.retention

variable {R K L L' : Type} [DecidableEq K] [LinearOrder L] [LinearOrder L'] {w : Window R K L} {age : Window R K L'}
  {id : R → Nat} {max_per_resource : Nat}

/-- What capping the partitions of `rows` is for: the newest rows of every
partition are left, as by the one delete, and the others are counted. -/
structure Capped (w : Window R K L) (age : Window R K L') (id : R → Nat) (max_per_resource : Nat) (rows left : List R)
    (removed : Nat) : Prop where
  as_one_delete : (left, removed) = delete_beyond w id max_per_resource rows
  newest : ∀ k, (left.filter fun row => age.partition row = k).Perm
    ((age.partition_rows k rows).take (min (rows.filter fun row => age.partition row = k).length max_per_resource))
  counted : removed + left.length = rows.length

/-- The rounds of `prune` end, with the newest rows of every partition left. -/
def PrunesToNewest (w : Window R K L) (age : Window R K L') (id : R → Nat) (max_per_resource : Nat) (rows : List R)
    (prune : Nat → Option (List R × Nat)) : Prop :=
  ∃ rounds left removed, Capped w age id max_per_resource rows left removed ∧ ∀ fuel ≥ rounds, prune fuel = some (left, removed)

/-- Observations by the instants of their times. -/
def observations_age (instant : ObservationRow → jiff.Timestamp) : Window ObservationRow (String × String) (Int ×ₗ Nat) where
  partition row := (row.agent_id, row.resource_id)
  order row := toLex ((instant row).nanos, row.id)

/-- No row that is not among the newest ones has a time that is the time of one of these cut short. -/
def NoneCutShort (instant : ObservationRow → jiff.Timestamp) (max_per_resource : Nat) (rows : List ObservationRow) : Prop :=
  ∀ kept ∈ rows, ∀ other ∈ rows, (other.agent_id, other.resource_id) = (kept.agent_id, kept.resource_id) →
    (observations_age instant).row_number rows kept ≤ max_per_resource →
    max_per_resource < (observations_age instant).row_number rows other → ¬ jiff.Truncates (instant other) (instant kept)

theorem delete_ids_length (ids : List Nat) (rows : List R) :
    (delete_ids id ids rows).2 + (delete_ids id ids rows).1.length = rows.length :=
  (List.length_eq_length_filter_add _).symm

/-- With unique ids, deleting the ids of some of the rows deletes these rows. -/
private theorem contains_map_id_iff {rows chosen : List R} (hids : (rows.map id).Nodup) (hchosen : chosen ⊆ rows)
    {row : R} (hrow : row ∈ rows) : (chosen.map id).contains (id row) = true ↔ row ∈ chosen := by
  rw [List.contains_iff_mem, List.mem_map]
  constructor
  · rintro ⟨other, hother, heq⟩
    exact eq_of_key_eq hids (hchosen hother) hrow heq ▸ hother
  · exact fun h => ⟨row, h, rfl⟩

private theorem delete_ids_removed {rows chosen : List R} (hids : (rows.map id).Nodup) (hchosen : chosen ⊆ rows)
    (hnodup : chosen.Nodup) : (delete_ids id (chosen.map id) rows).2 = chosen.length := by
  apply List.Perm.length_eq
  refine (List.perm_ext_iff_of_nodup (hids.of_map.filter _) hnodup).mpr fun row => ?_
  rw [List.mem_filter]
  constructor
  · exact fun h => (contains_map_id_iff hids hchosen h.1).mp h.2
  · exact fun h => ⟨hchosen h, (contains_map_id_iff hids hchosen (hchosen h)).mpr h⟩

theorem delete_beyond_eq {rows : List R} (hids : (rows.map id).Nodup) :
    delete_beyond w id max_per_resource rows =
      (w.within max_per_resource rows, (w.beyond max_per_resource rows).length) := by
  have hsub : w.beyond max_per_resource rows ⊆ rows := List.filter_subset_self _
  refine Prod.ext ?_ (delete_ids_removed hids hsub (hids.of_map.filter _))
  apply List.filter_congr
  intro row hrow
  have hiff := contains_map_id_iff hids hsub hrow
  rw [Window.beyond, List.mem_filter, decide_eq_true_eq] at hiff
  rw [Bool.eq_iff_iff, Bool.not_eq_true', ← Bool.not_eq_true, decide_eq_true_eq, ← not_lt]
  exact not_congr (hiff.trans (and_iff_right hrow))

section Chunk

variable {CHUNK_SIZE : ℕ+} {rows : List R}

/-- A chunk removes what it can of the rows beyond the cap, and no others. -/
theorem delete_chunk_spec (hids : (rows.map id).Nodup) (hrank : (rows.map w.order).Nodup) (scan : Scan R) :
    ∃ left, delete_chunk w id CHUNK_SIZE scan max_per_resource rows =
        (left, min (CHUNK_SIZE : Nat) (w.beyond max_per_resource rows).length) ∧
      left.Sublist rows ∧ w.within max_per_resource left = w.within max_per_resource rows ∧
      (w.beyond max_per_resource left).length = (w.beyond max_per_resource rows).length - CHUNK_SIZE := by
  have hperm := scan.perm (w.beyond max_per_resource rows)
  have hbeyond : (scan.order (w.beyond max_per_resource rows)).take CHUNK_SIZE ⊆ w.beyond max_per_resource rows :=
    fun row hrow => hperm.subset (List.mem_of_mem_take hrow)
  have hsub := List.Subset.trans hbeyond (List.filter_subset_self rows)
  have hnodup : ((scan.order (w.beyond max_per_resource rows)).take CHUNK_SIZE).Nodup :=
    (hperm.nodup_iff.mpr (hids.of_map.filter _)).sublist (List.take_sublist _ _)
  have hn := delete_ids_removed hids hsub hnodup
  rw [List.length_take, hperm.length_eq] at hn
  have hwithin : w.within max_per_resource (delete_chunk w id CHUNK_SIZE scan max_per_resource rows).1 =
      w.within max_per_resource rows := by
    apply w.within_filter hrank
    intro row hrow hin
    rw [Bool.not_eq_true', ← Bool.not_eq_true]
    intro hchosen
    have hmem := hbeyond ((contains_map_id_iff hids hsub hrow).mp hchosen)
    have hout := (List.mem_filter.mp hmem).2
    simp only [decide_eq_true_eq] at hout
    omega
  refine ⟨_, Prod.ext rfl hn, List.filter_sublist, hwithin, ?_⟩
  have hrows := @Window.within_length_add_beyond_length _ _ _ _ _ w max_per_resource rows
  have hleft := @Window.within_length_add_beyond_length _ _ _ _ _ w max_per_resource
    (delete_chunk w id CHUNK_SIZE scan max_per_resource rows).1
  have hcount := @delete_ids_length _ id
    (((scan.order (w.beyond max_per_resource rows)).take CHUNK_SIZE).map id) rows
  rw [hn] at hcount
  rw [hwithin, delete_chunk] at hleft
  rw [delete_chunk]
  grind

/-- The chunks end and leave what one delete would: the number of rows beyond the cap
goes down by a chunk at a time. -/
theorem prune_per_resource_eq {scans : Nat → Scan R} {total fuel : Nat} (hids : (rows.map id).Nodup)
    (hrank : (rows.map w.order).Nodup) (hfuel : (w.beyond max_per_resource rows).length < fuel) :
    prune_per_resource w id CHUNK_SIZE scans max_per_resource total fuel rows =
      some (w.within max_per_resource rows, total + (w.beyond max_per_resource rows).length) := by
  induction fuel generalizing rows scans total with
  | zero => omega
  | succ fuel ih =>
    obtain ⟨left, hchunk, hsublist, hwithin, hbeyond⟩ := delete_chunk_spec hids hrank (scans 0)
    rw [prune_per_resource, hchunk]
    have hpositive := CHUNK_SIZE.pos
    by_cases hlast : (w.beyond max_per_resource rows).length < CHUNK_SIZE
    · have hall : w.within max_per_resource left = left := Window.within_eq_self (by omega)
      simp [Nat.min_eq_right hlast.le, hlast, ← hwithin, hall]
    · have hmin : min (CHUNK_SIZE : Nat) (w.beyond max_per_resource rows).length = CHUNK_SIZE :=
        Nat.min_eq_left (not_lt.mp hlast)
      have hrest := @ih _ (fun round => scans (round + 1)) (total + CHUNK_SIZE)
        (hids.sublist (hsublist.map id)) (hrank.sublist (hsublist.map w.order)) (by omega)
      rw [hwithin, hbeyond] at hrest
      simp only [hmin, Nat.lt_irrefl, if_false, hrest]
      congr 2
      omega

end Chunk

/-- The newest rows are left exactly when they are the first ones of the statement's order. -/
theorem prunes_to_newest_iff {CHUNK_SIZE : ℕ+} {scans : Nat → Scan R} {rows : List R} (hids : (rows.map id).Nodup)
    (hrank : (rows.map w.order).Nodup) (hage : (rows.map age.order).Nodup) :
    PrunesToNewest w age id max_per_resource rows
        (fun fuel => prune_per_resource w id CHUNK_SIZE scans max_per_resource 0 fuel rows) ↔
      w.within max_per_resource rows = age.within max_per_resource rows := by
  have hrun (fuel : Nat) (hfuel : (w.beyond max_per_resource rows).length < fuel) :
      prune_per_resource w id CHUNK_SIZE scans max_per_resource 0 fuel rows =
        some (w.within max_per_resource rows, (w.beyond max_per_resource rows).length) := by
    have heq := @prune_per_resource_eq _ _ _ _ _ w id max_per_resource CHUNK_SIZE rows scans 0 fuel hids hrank hfuel
    simpa using heq
  have hnewest (k : K) : ((age.within max_per_resource rows).filter fun row => age.partition row = k).Perm
      ((age.partition_rows k rows).take (min (rows.filter fun row => age.partition row = k).length max_per_resource)) := by
    have hcap : (age.partition_rows k rows).take (min (rows.filter fun row => age.partition row = k).length
        max_per_resource) = (age.partition_rows k rows).take max_per_resource := by
      rw [← List.take_take, ← (age.partition_rows_perm k).length_eq]
      exact List.take_of_length_le (List.length_take_le' _ _)
    rw [hcap]
    exact Window.within_partition_perm hage max_per_resource k
  constructor
  · rintro ⟨rounds, left, removed, hcapped, hends⟩
    have hresult := (hends (max rounds ((w.beyond max_per_resource rows).length + 1)) (le_max_left _ _)).symm.trans
      (hrun _ (lt_of_lt_of_le (Nat.lt_succ_self _) (le_max_right _ _)))
    obtain ⟨rfl, -⟩ := Prod.mk.inj (Option.some.inj hresult)
    apply List.filter_congr
    intro row hrow
    have hmem := ((hcapped.newest (age.partition row)).trans (hnewest (age.partition row)).symm).mem_iff (a := row)
    simpa [Window.within, hrow] using hmem
  · intro heq
    refine ⟨(w.beyond max_per_resource rows).length + 1, w.within max_per_resource rows,
      (w.beyond max_per_resource rows).length, ⟨(delete_beyond_eq hids).symm, ?_, ?_⟩, fun fuel hfuel => hrun fuel hfuel⟩
    · rw [heq]
      exact hnewest
    · have hlength := @Window.within_length_add_beyond_length _ _ _ _ _ w max_per_resource rows
      omega

omit [LinearOrder L] in
theorem ranked_by_id {id : R → Nat} {rank : R → L} {rows : List R} (hids : (rows.map id).Nodup) :
    (rows.map fun row => toLex (rank row, id row)).Nodup := by
  refine List.Nodup.of_map (fun rank => (ofLex rank).2) ?_
  rwa [List.map_map]

/-- The observations with the least texts are the oldest ones unless a time is cut short. -/
theorem observations_within_iff {instant : ObservationRow → jiff.Timestamp} {rows : List ObservationRow}
    (hids : (rows.map (·.id)).Nodup)
    (hobserved : ∀ row ∈ rows, 0 ≤ (instant row).nanos ∧ row.observed_at = (instant row).to_string) :
    observations_window.within max_per_resource rows = (observations_age instant).within max_per_resource rows ↔
      NoneCutShort instant max_per_resource rows := by
  have hage : (rows.map (observations_age instant).order).Nodup := ranked_by_id hids
  have hpartition : observations_window.partition = (observations_age instant).partition := rfl
  refine (Window.within_eq_within_iff hpartition hage).trans ?_
  refine forall₂_congr fun kept hkept => forall₂_congr fun other hother => forall₃_congr fun hsame hin hout => ?_
  have hnewer := Window.order_lt_of_within hsame.symm hin hout
  obtain ⟨hera, htext⟩ := hobserved kept hkept
  obtain ⟨hera', htext'⟩ := hobserved other hother
  simp only [observations_window, observations_age, Prod.Lex.toLex_lt_toLex] at hnewer ⊢
  rw [htext, htext', jiff.to_string_lt_iff (.inl hera')]
  obtain hlt | ⟨heq, hid⟩ := hnewer
  · have hback : ¬ jiff.Truncates (instant kept) (instant other) := fun h => lt_asymm hlt h.nanos_lt
    have hne : (instant other).to_string ≠ (instant kept).to_string := fun h =>
      hlt.ne (congrArg jiff.Timestamp.nanos (jiff.to_string_injective h))
    simp [hlt, hback, hne]
  · rw [jiff.eq_of_nanos_eq heq]
    refine iff_of_true (.inr ⟨rfl, hid⟩) fun h => lt_irrefl _ h.nanos_lt

/-- Both functions end, leave of every partition the newest rows up to the cap, as one
delete without a LIMIT would, and answer with the number of rows removed, exactly when
no time of an observation to be removed is that of one to be kept cut short. -/
theorem retention_keeps_the_newest_iff (CHUNK_SIZE : ℕ+) (max_per_resource : Nat) {observations : List ObservationRow}
    {desired_states : List DesiredStateRow} (hobservations : (observations.map (·.id)).Nodup)
    (hdesired_states : (desired_states.map (·.id)).Nodup) {instant : ObservationRow → jiff.Timestamp}
    (hobserved : ∀ row ∈ observations, 0 ≤ (instant row).nanos ∧ row.observed_at = (instant row).to_string)
    (scans : Nat → Scan ObservationRow) (scans' : Nat → Scan DesiredStateRow) :
    (PrunesToNewest observations_window (observations_age instant) (·.id) max_per_resource observations
        (fun fuel => prune_observations_per_resource CHUNK_SIZE scans max_per_resource fuel observations) ∧
      PrunesToNewest desired_states_window desired_states_window (·.id) max_per_resource desired_states
        (fun fuel => prune_desired_states_per_resource CHUNK_SIZE scans' max_per_resource fuel desired_states)) ↔
      NoneCutShort instant max_per_resource observations := by
  rw [← observations_within_iff hobservations hobserved]
  refine (and_iff_left ?_).trans (prunes_to_newest_iff hobservations (ranked_by_id hobservations) (ranked_by_id hobservations))
  exact (prunes_to_newest_iff hdesired_states hdesired_states hdesired_states).mpr rfl

section Samples

theorem half_seconds_in_range (halves : Fin 100) : jiff.min_nanos ≤ 62167219200000000000 + (halves : Int) * 500000000 ∧
    62167219200000000000 + (halves : Int) * 500000000 ≤ jiff.max_nanos := by
  have hlt := halves.isLt
  simp only [jiff.min_nanos, jiff.max_nanos]
  omega

/-- The Unix epoch and so many half seconds. -/
def half_seconds (halves : Fin 100) : jiff.Timestamp where
  nanos := 62167219200000000000 + halves * 500000000
  in_range := half_seconds_in_range halves

/-- An observation of one file of one host. -/
def motd_observation (id : Nat) (halves : Fin 100) : ObservationRow where
  id := id
  agent_id := "web"
  resource_id := "File/prod/motd"
  kind := "File"
  observed_at := (half_seconds halves).to_string
  present := true
  spec_json := ""
  facts_json := ""
  received_at := (half_seconds halves).to_string

/-- The instants of observations with as many ids. -/
def instants (halves : List (Fin 100)) (row : ObservationRow) : jiff.Timestamp :=
  half_seconds (halves.getD row.id 0)

def motd_observations (halves : List (Fin 100)) : List ObservationRow :=
  halves.zipIdx.map fun entry => motd_observation entry.2 entry.1

theorem motd_observed (halves : List (Fin 100)) : ∀ row ∈ motd_observations halves,
    0 ≤ (instants halves row).nanos ∧ row.observed_at = (instants halves row).to_string := by
  intro row hrow
  obtain ⟨⟨n, id⟩, hentry, rfl⟩ := List.mem_map.mp hrow
  have hget : halves.getD id 0 = n := by
    rw [List.getD_eq_getElem?_getD, (List.mk_mem_zipIdx_iff_getElem?).mp hentry]
    rfl
  refine ⟨by simp only [instants, half_seconds]; omega, ?_⟩
  rw [instants]
  exact congrArg (fun halves => (half_seconds halves).to_string) hget.symm

/-- Four observations of one file capped at one: the id decides between the two newest. -/
theorem latest_observation_is_kept :
    (prune_observations_per_resource 2 (fun _ => Scan.insertion) 1 4 (motd_observations [0, 4, 2, 4])).map
        (fun result => (result.1.map (·.id), result.2)) = some ([3], 3) ∧
      ((PrunesToNewest observations_window (observations_age (instants [0, 4, 2, 4])) (·.id) 1 (motd_observations [0, 4, 2, 4])
          (fun fuel => prune_observations_per_resource 2 (fun _ => Scan.insertion) 1 fuel (motd_observations [0, 4, 2, 4])) ∧
        PrunesToNewest desired_states_window desired_states_window (·.id) 1 []
          (fun fuel => prune_desired_states_per_resource 2 (fun _ => Scan.insertion) 1 fuel [])) ↔
        NoneCutShort (instants [0, 4, 2, 4]) 1 (motd_observations [0, 4, 2, 4])) :=
  ⟨by set_option maxRecDepth 4000 in decide, retention_keeps_the_newest_iff 2 1 (by decide) (by decide) (motd_observed _) _ _⟩

/-- Of two observations of one second the later one is deleted: its text has a fraction and comes first. -/
theorem latest_observation_is_deleted :
    (prune_observations_per_resource 5000 (fun _ => Scan.insertion) 1 2 (motd_observations [0, 1])).map
        (fun result => result.1.map fun row => (row.id, row.observed_at)) = some [(0, "1970-01-01T00:00:00Z")] ∧
      ¬ PrunesToNewest observations_window (observations_age (instants [0, 1])) (·.id) 1 (motd_observations [0, 1])
        (fun fuel => prune_observations_per_resource 5000 (fun _ => Scan.insertion) 1 fuel (motd_observations [0, 1])) := by
  refine ⟨by set_option maxRecDepth 4000 in decide, fun hnewest => ?_⟩
  have hids : ((motd_observations [0, 1]).map (·.id)).Nodup := by decide
  have heq := (prunes_to_newest_iff hids (ranked_by_id hids) (ranked_by_id hids)).mp hnewest
  have hkept := congrArg (List.map (·.id)) heq
  revert hkept
  set_option maxRecDepth 4000 in decide

end Samples

end iac_controlplane.retention
