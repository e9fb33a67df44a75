import Iac.Agent.Observe
import Iac.Core.Text
import Iac.Collections.Run
import Iac.Providers.Sysctl
import Iac.Sql.Query

open iac_controlplane.secrets iac_core serde_json

namespace iac_agent

variable {Host : Type}

/-- Rows with ids of their own, at most one of them open for a resource. -/
structure WellFormed (rows : List DriftRow) : Prop where
  ids : (rows.map DriftRow.id).Nodup
  open_once : ((rows.filter DriftRow.is_open).map DriftRow.resource_id).Nodup

/-- What an item tells of the drift of its resource. -/
def DriftRow.report (row : DriftRow) : String × String × Diff :=
  (row.severity, row.detected_at, row.diff)

def open_row (rows : List DriftRow) (resource_id : String) : Option DriftRow :=
  rows.find? (open_for resource_id)

theorem open_for_iff {resource_id : String} {row : DriftRow} :
    open_for resource_id row = true ↔ row.resource_id = resource_id ∧ row.is_open = true := by
  simp [open_for]

theorem mem_of_open_row {rows : List DriftRow} {resource_id : String} {row : DriftRow}
    (h : open_row rows resource_id = some row) : row ∈ rows ∧ row.resource_id = resource_id ∧ row.is_open = true :=
  ⟨List.mem_of_find?_eq_some h, open_for_iff.mp (List.find?_some h)⟩

theorem WellFormed.open_row_eq {rows : List DriftRow} (h : WellFormed rows) {row : DriftRow} (hrow : row ∈ rows)
    (hopen : row.is_open = true) : open_row rows row.resource_id = some row := by
  cases hfound : open_row rows row.resource_id with
  | none =>
    have hnone := List.find?_eq_none.mp hfound row hrow
    exact absurd (open_for_iff.mpr ⟨rfl, hopen⟩) hnone
  | some other =>
    obtain ⟨hother, hid, hother_open⟩ := mem_of_open_row hfound
    exact congrArg some (sql.eq_of_key_eq h.open_once (List.mem_filter.mpr ⟨hother, hother_open⟩)
      (List.mem_filter.mpr ⟨hrow, hopen⟩) hid)

/-- A change of rows that keeps what they are about. -/
structure KeepsRows (f : DriftRow → DriftRow) : Prop where
  id : ∀ row, (f row).id = row.id
  resource_id : ∀ row, (f row).resource_id = row.resource_id
  resolved_at : ∀ row, (f row).resolved_at = row.resolved_at

theorem KeepsRows.is_open {f : DriftRow → DriftRow} (hf : KeepsRows f) (row : DriftRow) :
    (f row).is_open = row.is_open := by
  unfold DriftRow.is_open
  rw [hf.resolved_at]

theorem WellFormed.map {f : DriftRow → DriftRow} {rows : List DriftRow} (h : WellFormed rows) (hf : KeepsRows f) :
    WellFormed (rows.map f) := by
  refine ⟨?_, ?_⟩
  · rw [sql.map_key_map fun row _ => hf.id row]
    exact h.ids
  · have hopen : DriftRow.is_open ∘ f = DriftRow.is_open := funext hf.is_open
    rw [List.filter_map, hopen, sql.map_key_map fun row _ => hf.resource_id row]
    exact h.open_once

theorem open_row_map {f : DriftRow → DriftRow} (hf : KeepsRows f) (rows : List DriftRow) (resource_id : String) :
    open_row (rows.map f) resource_id = (open_row rows resource_id).map f := by
  have hsame : open_for resource_id ∘ f = open_for resource_id := by
    funext row
    simp only [Function.comp_apply, open_for, hf.resource_id, hf.is_open]
  unfold open_row
  rw [List.find?_map, hsame]

private theorem le_foldl_max (ids : List Nat) (start : Nat) :
    start ≤ ids.foldl max start ∧ ∀ id ∈ ids, id ≤ ids.foldl max start := by
  induction ids generalizing start with
  | nil => simp
  | cons id ids ih =>
    obtain ⟨hstart, hmem⟩ := ih (max start id)
    simp only [List.foldl_cons, List.mem_cons, forall_eq_or_imp]
    refine ⟨by omega, by omega, hmem⟩

theorem next_id_fresh {rows : List DriftRow} {row : DriftRow} (hrow : row ∈ rows) : row.id ≠ next_id rows := by
  have hle := (le_foldl_max (rows.map DriftRow.id) 0).2 row.id (List.mem_map_of_mem hrow)
  unfold next_id
  omega

/-- The rows after a drift is opened: one open for its resource, the others as they were. -/
theorem open_drift_spec {rows : List DriftRow} (h : WellFormed rows) (now : String) (id : ResourceId)
    (severity : String) (diff : Diff) :
    WellFormed (open_drift now id severity diff rows) ∧
      (open_row (open_drift now id severity diff rows) id.to_string).map DriftRow.report = some (severity, now, diff) ∧
      ∀ other, other ≠ id.to_string → open_row (open_drift now id severity diff rows) other = open_row rows other := by
  unfold open_drift
  cases hnewest : ((rows.filter (open_for id.to_string)).insertionSort fun a b => b.detected_at ≤ a.detected_at) with
  | nil =>
    have hnone : rows.filter (open_for id.to_string) = [] := by
      have hperm := List.perm_insertionSort (fun a b : DriftRow => b.detected_at ≤ a.detected_at)
        (rows.filter (open_for id.to_string))
      rw [hnewest] at hperm
      exact hperm.symm.eq_nil
    have hclosed : ∀ row ∈ rows, open_for id.to_string row = false := by
      simpa [List.filter_eq_nil_iff] using hnone
    simp only [List.head?_nil, Option.map_none]
    refine ⟨⟨?_, ?_⟩, ?_, fun other hother => ?_⟩
    · exact sql.nodup_keys_append h.ids fun row hrow => next_id_fresh hrow
    · rw [List.filter_append]
      refine sql.nodup_keys_append h.open_once fun row hrow heq => ?_
      obtain ⟨hmem, hopen⟩ := List.mem_filter.mp hrow
      have hopen_for := open_for_iff.mpr ⟨heq, hopen⟩
      rw [hclosed row hmem] at hopen_for
      cases hopen_for
    · have hfind : rows.find? (open_for id.to_string) = none :=
        List.find?_eq_none.mpr fun row hrow => by simp [hclosed row hrow]
      unfold open_row
      rw [List.find?_append, hfind]
      simp [open_for, DriftRow.is_open, DriftRow.report]
    · unfold open_row
      rw [List.find?_append]
      simp [open_for, hother.symm]
  | cons newest older =>
    have hmem : newest ∈ rows.filter (open_for id.to_string) := by
      have hperm := List.perm_insertionSort (fun a b : DriftRow => b.detected_at ≤ a.detected_at)
        (rows.filter (open_for id.to_string))
      rw [hnewest] at hperm
      exact hperm.mem_iff.mp List.mem_cons_self
    obtain ⟨hrow, hopen_for⟩ := List.mem_filter.mp hmem
    obtain ⟨hid, hopen⟩ := open_for_iff.mp hopen_for
    simp only [List.head?_cons, Option.map_some]
    have hkeeps : KeepsRows fun row => if row.id == newest.id then row.bump now severity diff else row := by
      refine ⟨fun row => ?_, fun row => ?_, fun row => ?_⟩ <;> split <;> rfl
    refine ⟨h.map hkeeps, ?_, fun other hother => ?_⟩
    · rw [open_row_map hkeeps, ← hid, h.open_row_eq hrow hopen]
      simp [DriftRow.bump, DriftRow.report]
    · rw [open_row_map hkeeps]
      cases hother_row : open_row rows other with
      | none => rfl
      | some row =>
        obtain ⟨hrow', hid', -⟩ := mem_of_open_row hother_row
        have hne : row.id ≠ newest.id := by
          intro heq
          obtain rfl := sql.eq_of_key_eq h.ids hrow' hrow heq
          exact hother (hid'.symm.trans hid)
        simp [hne]

/-- A change that only takes rows out of what `p` selects. -/
private theorem filter_map_dropping {f : DriftRow → DriftRow} {p q : DriftRow → Bool} (hp : ∀ row, p (f row) = q row)
    (hf : ∀ row, q row = true → f row = row) (rows : List DriftRow) :
    (rows.map f).filter p = rows.filter q ∧ (rows.map f).find? p = rows.find? q := by
  have hcomp : p ∘ f = q := funext hp
  refine ⟨?_, ?_⟩
  · rw [List.filter_map, hcomp]
    conv_rhs => rw [← List.map_id (rows.filter q)]
    exact List.map_congr_left fun row hrow => hf row (List.mem_filter.mp hrow).2
  · rw [List.find?_map, hcomp]
    cases hfound : rows.find? q with
    | none => rfl
    | some row => exact congrArg some (hf row (List.find?_some hfound))

/-- The rows after the drifts of a resource are closed. -/
theorem close_open_drift_for_spec {rows : List DriftRow} (h : WellFormed rows) (now : String) (id : ResourceId)
    (resolution : String) :
    WellFormed (close_open_drift_for now id resolution rows) ∧
      open_row (close_open_drift_for now id resolution rows) id.to_string = none ∧
      ∀ other, other ≠ id.to_string →
        open_row (close_open_drift_for now id resolution rows) other = open_row rows other := by
  let close (row : DriftRow) : DriftRow :=
    if open_for id.to_string row then { row with resolved_at := some now, resolution := some resolution } else row
  have hstays (row : DriftRow) (hne : open_for id.to_string row = false) : close row = row := by
    simp [close, hne]
  have hcloses (row : DriftRow) (hopen_for : open_for id.to_string row = true) : (close row).is_open = false := by
    simp [close, hopen_for, DriftRow.is_open]
  have hresource_id (row : DriftRow) : (close row).resource_id = row.resource_id := by
    simp only [close]
    split <;> rfl
  have hopen (row : DriftRow) : (close row).is_open = (row.is_open && !open_for id.to_string row) := by
    cases hclosed : open_for id.to_string row with
    | false => simp [hstays row hclosed]
    | true => simp [hcloses row hclosed]
  refine ⟨⟨?_, ?_⟩, ?_, fun other hother => ?_⟩
  · unfold close_open_drift_for
    rw [sql.map_key_map fun row _ => by split <;> rfl]
    exact h.ids
  · have hfilter := (filter_map_dropping (f := close) hopen (fun row hrow => hstays row (by simp_all)) rows).1
    change (((rows.map close).filter DriftRow.is_open).map DriftRow.resource_id).Nodup
    rw [hfilter, ← List.filter_filter]
    exact h.open_once.sublist (List.Sublist.map _ (List.filter_sublist.filter _))
  · refine List.find?_eq_none.mpr fun row hrow => ?_
    obtain ⟨old, -, rfl⟩ := List.mem_map.mp hrow
    change ¬ open_for id.to_string (close old) = true
    cases hclosed : open_for id.to_string old with
    | false => simp [hstays old hclosed, hclosed]
    | true => simp [open_for, hcloses old hclosed]
  · refine (filter_map_dropping (f := close) (fun row => ?_) (fun row hrow => hstays row ?_) rows).2
    · simp only [open_for, hresource_id, hopen]
      by_cases hid : row.resource_id = other
      · simp [hid, hother]
      · have hne : (row.resource_id == other) = false := by simpa using hid
        simp [hne]
    · obtain ⟨hid, -⟩ := open_for_iff.mp hrow
      simp [open_for, hid, hother]

/-- The drift that stays open for a resource with this outcome. -/
def after_outcome (now : String) (outcome : Outcome) (before : Option (String × String × Diff)) :
    Option (String × String × Diff) :=
  match outcome with
  | .failed _ => before
  | .clear => none
  | .drift diff => some (severity_for diff, now, diff)

theorem record_outcome_spec {rows : List DriftRow} (h : WellFormed rows) (now : String) (r : Resource)
    (outcome : Outcome) (summary : ObserveCycleSummary) :
    WellFormed (record_outcome now r outcome rows summary).1 ∧
      (open_row (record_outcome now r outcome rows summary).1 r.id.to_string).map DriftRow.report =
        after_outcome now outcome ((open_row rows r.id.to_string).map DriftRow.report) ∧
      ∀ other, other ≠ r.id.to_string →
        open_row (record_outcome now r outcome rows summary).1 other = open_row rows other := by
  cases outcome with
  | failed error => exact ⟨h, rfl, fun _ _ => rfl⟩
  | clear =>
    obtain ⟨hwell, hnone, hothers⟩ := close_open_drift_for_spec h now r.id "drift cleared"
    exact ⟨hwell, congrArg (Option.map DriftRow.report) hnone, hothers⟩
  | drift diff => exact open_drift_spec h now r.id (severity_for diff) diff

/-- The rows after a cycle: each observed resource has the drift its outcome
leaves, and the drifts of the others stay. -/
theorem observe_loop_spec {registry : ProviderRegistry Host} {host : Host} {now : String} {resources : List Resource}
    (hids : (resources.map fun r => r.id.to_string).Nodup) {rows : List DriftRow} (h : WellFormed rows)
    (summary : ObserveCycleSummary) :
    WellFormed (observe_loop registry host now resources rows summary).1 ∧
      (∀ r ∈ resources, (open_row (observe_loop registry host now resources rows summary).1 r.id.to_string).map
          DriftRow.report =
        after_outcome now (observe_resource registry host r) ((open_row rows r.id.to_string).map DriftRow.report)) ∧
      ∀ other, (∀ r ∈ resources, r.id.to_string ≠ other) →
        open_row (observe_loop registry host now resources rows summary).1 other = open_row rows other := by
  induction resources generalizing rows summary with
  | nil => exact ⟨h, by simp, fun _ _ => rfl⟩
  | cons r resources ih =>
    obtain ⟨hfresh, hrest⟩ := List.nodup_cons.mp hids
    obtain ⟨hwell, hreport, hothers⟩ := record_outcome_spec h now r (observe_resource registry host r) summary
    have hne : ∀ r' ∈ resources, r'.id.to_string ≠ r.id.to_string :=
      fun r' hr' heq => hfresh (List.mem_map.mpr ⟨r', hr', heq⟩)
    obtain ⟨hwell', hreports, hkept⟩ := ih hrest hwell
      (record_outcome now r (observe_resource registry host r) rows summary).2
    refine ⟨hwell', ?_, fun other hother => ?_⟩
    · intro r' hr'
      obtain rfl | hmem := List.mem_cons.mp hr'
      · unfold observe_loop
        rw [hkept _ hne, hreport]
      · unfold observe_loop
        rw [hreports r' hmem, hothers _ (hne r' hmem)]
    · unfold observe_loop
      rw [hkept other fun r' hr' => hother r' (List.mem_cons_of_mem _ hr'),
        hothers other (hother r List.mem_cons_self).symm]

private theorem mem_upsert {k : String} {r : Resource} {m : List (String × Resource)} {e : String × Resource}
    (he : e ∈ sorted_map.upsert k (fun _ => r) m) : e = (k, r) ∨ e ∈ m := by
  induction m with
  | nil => simpa [sorted_map.upsert] using he
  | cons head rest ih =>
    obtain ⟨k', v⟩ := head
    simp only [sorted_map.upsert] at he
    split_ifs at he with hlt heq
    · obtain rfl | hmem := List.mem_cons.mp he
      · exact .inl rfl
      · exact .inr hmem
    · obtain rfl | hmem := List.mem_cons.mp he
      · exact .inl (by rw [heq])
      · exact .inr (List.mem_cons_of_mem _ hmem)
    · obtain rfl | hmem := List.mem_cons.mp he
      · exact .inr List.mem_cons_self
      · exact (ih hmem).imp_right (List.mem_cons_of_mem _)

/-- The resources of a cycle have ids of their own. -/
theorem observation_resources_nodup (manifests : List Resource) (desired_state : List Value) :
    ((observation_resources manifests desired_state).map fun r => r.id.to_string).Nodup := by
  have hfold (resources : List Resource) (m : List (String × Resource)) (hsorted : sorted_map.Sorted m)
      (hkeys : ∀ e ∈ m, e.1 = e.2.id.to_string) :
      let by_id := resources.foldl (fun by_id r => sorted_map.upsert r.id.to_string (fun _ => r) by_id) m
      sorted_map.Sorted by_id ∧ ∀ e ∈ by_id, e.1 = e.2.id.to_string := by
    induction resources generalizing m with
    | nil => exact ⟨hsorted, hkeys⟩
    | cons r resources ih =>
      refine ih _ hsorted.upsert fun e he => ?_
      obtain rfl | hmem := mem_upsert he
      · rfl
      · exact hkeys e hmem
  obtain ⟨hsorted, hkeys⟩ := hfold (manifests ++ desired_state.filterMap Resource.of_value) [] sorted_map.sorted_nil
    (by simp)
  have hmap : (observation_resources manifests desired_state).map (fun r => r.id.to_string) =
      ((manifests ++ desired_state.filterMap Resource.of_value).foldl
        (fun by_id r => sorted_map.upsert r.id.to_string (fun _ => r) by_id) []).map Prod.fst := by
    unfold observation_resources
    rw [List.map_map]
    exact List.map_congr_left fun e he => (hkeys e he).symm
  rw [hmap]
  exact (List.pairwise_map.mpr hsorted).imp fun hlt => ne_of_lt hlt

theorem split_once_eq {c : Char} {s before after : List Char} (h : split_once c s = some (before, after)) :
    s = before ++ c :: after := by
  induction s generalizing before with
  | nil => cases h
  | cons d rest ih =>
    unfold split_once at h
    split_ifs at h with hd
    · obtain ⟨rfl, rfl⟩ := Prod.mk.inj (Option.some.inj h)
      rw [hd, List.nil_append]
    · obtain ⟨⟨first, second⟩, hsplit, hhalves⟩ := Option.map_eq_some_iff.mp h
      obtain ⟨rfl, rfl⟩ := Prod.mk.inj hhalves
      rw [ih hsplit, List.cons_append]

theorem parse_to_string {s : String} {id : ResourceId} (h : ResourceId.parse s = some id) : id.to_string = s := by
  unfold ResourceId.parse at h
  obtain ⟨⟨kind, rest⟩, hkind, h⟩ := Option.bind_eq_some_iff.mp h
  obtain ⟨⟨environment, name⟩, henvironment, h⟩ := Option.bind_eq_some_iff.mp h
  simp only at h
  split_ifs at h
  obtain rfl := Option.some.inj h
  apply String.toList_inj.mp
  rw [split_once_eq hkind, split_once_eq henvironment]
  simp [ResourceId.to_string]

/-- The drifts open in both runs are the same, as stored and as pushed. -/
def SameDrifts (a b : List DriftRow) : Prop :=
  (∀ x ∈ list_open_drifts a, ∀ y ∈ list_open_drifts b, x.resource_id = y.resource_id → x.report = y.report) ∧
    ∀ x ∈ drift_items a, ∀ y ∈ drift_items b, x.resource_id = y.resource_id → x = y

mutual

/-- A text, a whole number or a key of the value contains the secret. -/
def mentions (secret : String) : Value → Bool
  | .string s => str.contains s.toList secret.toList
  | .number (.PosInt n) => str.contains (toString n).toList secret.toList
  | .number (.NegInt n) => str.contains (toString n).toList secret.toList
  | .array items => items_mention secret items
  | .object fields => fields_mention secret fields
  | _ => false

def items_mention (secret : String) : List Value → Bool
  | [] => false
  | item :: items => mentions secret item || items_mention secret items

def fields_mention (secret : String) : List (String × Value) → Bool
  | [] => false
  | (key, value) :: fields => str.contains key.toList secret.toList || mentions secret value || fields_mention secret fields

end

/-- No `from` or `to` of the changes contains the secret. -/
def Conceals (secret : String) (diff : Diff) : Prop :=
  ∀ change ∈ diff.changes, ∀ value, change.from_value = some value ∨ change.to_value = some value →
    mentions secret value = false

/-- No open drift shows the secret, as stored or as pushed. -/
def Secretless (secret : String) (rows : List DriftRow) : Prop :=
  (∀ row ∈ list_open_drifts rows, Conceals secret row.diff) ∧ ∀ item ∈ drift_items rows, Conceals secret item.diff

/-- The drifts of two runs with the secrets `alpha` and `beta` are the same and show neither. -/
structure KeepSecrets (alpha beta : String) (a b : List DriftRow) : Prop where
  same : SameDrifts a b
  left : Secretless alpha a
  right : Secretless beta b

/-- What the provider itself tells of the resource, by its observe and its diff: the change, if there is one. -/
def reported (provider : Provider Host) (host : Host) (r : Resource) : Except String (Option Diff) :=
  (provider.observe host r).bind fun observed =>
    (provider.diff r observed).map fun diff => if diff.is_change then some diff else none

/-- A change that the provider finds on either host shows no secret, and on the
other host it finds the same change or none. -/
structure Blind (provider : Provider Host) (h₁ h₂ : Host) (alpha beta : String) (r : Resource) : Prop where
  left : ∀ diff, reported provider h₁ r = .ok (some diff) → Conceals alpha diff ∧
    (reported provider h₂ r = .ok (some diff) ∨ reported provider h₂ r = .ok none)
  right : ∀ diff, reported provider h₂ r = .ok (some diff) → Conceals beta diff ∧
    (reported provider h₁ r = .ok (some diff) ∨ reported provider h₁ r = .ok none)

/-- The backends of the secrets, with this value behind the one reference. -/
def secrets_with (secrets : SecretRegistry) (sref : SecretRef) (value : String) : SecretRegistry :=
  fun other => if other = sref then .ok value else secrets other

/-- An outcome of a cycle is what the provider of the kind reports. -/
theorem observe_resource_cases (registry : ProviderRegistry Host) (host : Host) (r : Resource) :
    (registry r.kind = none ∧ ∃ error, observe_resource registry host r = .failed error) ∨
      ∃ provider, registry r.kind = some provider ∧
        ((∃ diff, reported provider host r = .ok (some diff) ∧ observe_resource registry host r = .drift diff) ∨
          (reported provider host r = .ok none ∧ observe_resource registry host r = .clear) ∨
          ((∃ e, reported provider host r = .error e) ∧ ∃ error, observe_resource registry host r = .failed error)) := by
  cases hprovider : registry r.kind with
  | none => exact .inl ⟨rfl, _, by rw [observe_resource, hprovider]⟩
  | some provider =>
    refine .inr ⟨provider, rfl, ?_⟩
    cases hobserved : provider.observe host r with
    | error e =>
      refine .inr (.inr ⟨⟨e, by rw [reported, hobserved]; rfl⟩, r.id.to_string ++ ": observe failed: " ++ e, ?_⟩)
      simp [observe_resource, hprovider, hobserved]
    | ok observed =>
      cases hdiff : provider.diff r observed with
      | error e =>
        refine .inr (.inr ⟨⟨e, by rw [reported, hobserved, Except.bind, hdiff]; rfl⟩,
          r.id.to_string ++ ": diff failed: " ++ e, ?_⟩)
        simp [observe_resource, hprovider, hobserved, hdiff]
      | ok diff =>
        have hreported : reported provider host r = .ok (if diff.is_change then some diff else none) := by
          rw [reported, hobserved, Except.bind, hdiff, Except.map]
        have houtcome : observe_resource registry host r = if diff.is_change then .drift diff else .clear := by
          simp [observe_resource, hprovider, hobserved, hdiff]
        cases hchange : diff.is_change with
        | true => exact .inl ⟨diff, by rw [hreported, hchange]; rfl, by rw [houtcome, hchange]; rfl⟩
        | false => exact .inr (.inl ⟨by rw [hreported, hchange]; rfl, by rw [houtcome, hchange]; rfl⟩)

theorem mem_list_open_drifts {rows : List DriftRow} {row : DriftRow} :
    row ∈ list_open_drifts rows ↔ row ∈ rows ∧ row.is_open = true := by
  unfold list_open_drifts
  rw [(List.perm_insertionSort _ _).mem_iff, List.mem_filter]

/-- The items are the same when the rows are. -/
theorem SameDrifts.of_rows {a b : List DriftRow}
    (h : ∀ x ∈ list_open_drifts a, ∀ y ∈ list_open_drifts b, x.resource_id = y.resource_id → x.report = y.report) :
    SameDrifts a b := by
  refine ⟨h, fun x hx y hy hid => ?_⟩
  obtain ⟨row, hrow, hx⟩ := List.mem_filterMap.mp hx
  obtain ⟨row', hrow', hy⟩ := List.mem_filterMap.mp hy
  obtain ⟨rid, hrid, rfl⟩ := Option.map_eq_some_iff.mp hx
  obtain ⟨rid', hrid', rfl⟩ := Option.map_eq_some_iff.mp hy
  obtain rfl : rid = rid' := hid
  have hreport := h row hrow row' hrow' ((parse_to_string hrid).symm.trans (parse_to_string hrid'))
  obtain ⟨hseverity, hrest⟩ := Prod.mk.inj hreport
  obtain ⟨hdetected, hdiff⟩ := Prod.mk.inj hrest
  rw [hseverity, hdetected, hdiff]

theorem SameDrifts.symm {a b : List DriftRow} (h : SameDrifts a b) : SameDrifts b a :=
  ⟨fun x hx y hy hid => (h.1 y hy x hx hid.symm).symm, fun x hx y hy hid => (h.2 y hy x hx hid.symm).symm⟩

theorem SameDrifts.report_eq {a b : List DriftRow} (h : SameDrifts a b) {resource_id : String}
    {left right : String × String × Diff} (hleft : (open_row a resource_id).map DriftRow.report = some left)
    (hright : (open_row b resource_id).map DriftRow.report = some right) : left = right := by
  obtain ⟨x, hx, rfl⟩ := Option.map_eq_some_iff.mp hleft
  obtain ⟨y, hy, rfl⟩ := Option.map_eq_some_iff.mp hright
  obtain ⟨hx, hx_id, hx_open⟩ := mem_of_open_row hx
  obtain ⟨hy, hy_id, hy_open⟩ := mem_of_open_row hy
  exact h.1 x (mem_list_open_drifts.mpr ⟨hx, hx_open⟩) y (mem_list_open_drifts.mpr ⟨hy, hy_open⟩) (hx_id.trans hy_id.symm)

/-- The store after a cycle that found a drift of the resource with no fields. -/
def stale_drift (id : ResourceId) (reversible : Bool) : DriftRow where
  id := 1
  resource_id := id.to_string
  kind := id.kind
  severity := "warning"
  diff := ⟨.Update, [], [], reversible⟩
  detected_at := ""

theorem Secretless.of_rows {secret : String} {rows : List DriftRow}
    (h : ∀ row ∈ list_open_drifts rows, Conceals secret row.diff) :
    Secretless secret rows := by
  refine ⟨h, fun item hitem => ?_⟩
  obtain ⟨row, hrow, hitem⟩ := List.mem_filterMap.mp hitem
  obtain ⟨rid, -, rfl⟩ := Option.map_eq_some_iff.mp hitem
  exact h row hrow

theorem Secretless.report {secret : String} {rows : List DriftRow} (h : Secretless secret rows) {resource_id : String}
    {report : String × String × Diff} (hreport : (open_row rows resource_id).map DriftRow.report = some report) :
    Conceals secret report.2.2 := by
  obtain ⟨row, hrow, rfl⟩ := Option.map_eq_some_iff.mp hreport
  obtain ⟨hmem, -, hopen⟩ := mem_of_open_row hrow
  exact h.1 row (mem_list_open_drifts.mpr ⟨hmem, hopen⟩)

theorem KeepSecrets.symm {alpha beta : String} {a b : List DriftRow} (h : KeepSecrets alpha beta a b) :
    KeepSecrets beta alpha b a :=
  ⟨h.same.symm, h.right, h.left⟩

/-- Whatever drifts were open before the cycle, none of which shows a secret, the
drifts after it keep the secrets. -/
def CycleKeepsSecrets (registry : ProviderRegistry Host) (h₁ h₂ : Host) (alpha beta : String)
    (resources : List Resource) : Prop :=
  ∀ now rows, WellFormed rows → Secretless alpha rows → Secretless beta rows →
    KeepSecrets alpha beta (observe_resources_blocking registry h₁ now resources rows).1
      (observe_resources_blocking registry h₂ now resources rows).1

theorem CycleKeepsSecrets.symm {registry : ProviderRegistry Host} {h₁ h₂ : Host} {alpha beta : String}
    {resources : List Resource} (h : CycleKeepsSecrets registry h₁ h₂ alpha beta resources) :
    CycleKeepsSecrets registry h₂ h₁ beta alpha resources :=
  fun now rows hwell hbeta halpha => (h now rows hwell halpha hbeta).symm

private theorem reports_of_keeps {registry : ProviderRegistry Host} {h₁ h₂ : Host} {alpha beta : String}
    {resources : List Resource} (hids : (resources.map fun r => r.id.to_string).Nodup)
    (hkeeps : CycleKeepsSecrets registry h₁ h₂ alpha beta resources) {r : Resource} (hr : r ∈ resources)
    {provider : Provider Host} (hprovider : registry r.kind = some provider) {diff : Diff}
    (hreported : reported provider h₁ r = .ok (some diff)) :
    Conceals alpha diff ∧ (reported provider h₂ r = .ok (some diff) ∨ reported provider h₂ r = .ok none) := by
  have hreport (host : Host) {rows : List DriftRow} (h : WellFormed rows) :=
    (@observe_loop_spec Host registry host "" resources hids rows h ⟨resources.length, 0, []⟩).2.1 r hr
  have hdrift : observe_resource registry h₁ r = .drift diff := by
    obtain ⟨hnone, -⟩ | ⟨other, hother, hcases⟩ := observe_resource_cases registry h₁ r
    · rw [hprovider] at hnone
      cases hnone
    · obtain rfl := Option.some.inj (hprovider.symm.trans hother)
      obtain ⟨found, hfound, hdrift⟩ | ⟨hnone, -⟩ | ⟨⟨e, herror⟩, -⟩ := hcases
      · obtain rfl := Option.some.inj (Except.ok.inj (hreported.symm.trans hfound))
        exact hdrift
      · cases hreported.symm.trans hnone
      · cases hreported.symm.trans herror
  have hempty : WellFormed [] := ⟨List.nodup_nil, List.nodup_nil⟩
  have hnothing (secret : String) : Secretless secret [] := .of_rows fun row hrow => by simp [list_open_drifts] at hrow
  have hkept := hkeeps "" [] hempty (hnothing alpha) (hnothing beta)
  have hleft := hreport h₁ hempty
  rw [hdrift] at hleft
  refine ⟨hkept.left.report hleft, ?_⟩
  obtain ⟨hnone, -⟩ | ⟨other, hother, hcases⟩ := observe_resource_cases registry h₂ r
  · rw [hprovider] at hnone
    cases hnone
  · obtain rfl := Option.some.inj (hprovider.symm.trans hother)
    obtain ⟨diff', hfound, hdrift'⟩ | ⟨hnone, -⟩ | ⟨-, error, hfailed⟩ := hcases
    · have hright := hreport h₂ hempty
      rw [hdrift'] at hright
      have heq := hkept.same.report_eq hleft hright
      simp only [Prod.mk.injEq] at heq
      exact .inl (by rw [hfound, heq.2.2])
    · exact .inr hnone
    · -- the drift of an earlier cycle stays open where the resource cannot be observed
      have hstale : WellFormed [stale_drift r.id (!diff.reversible)] :=
        ⟨List.nodup_singleton _, (List.nodup_singleton _).sublist (List.Sublist.map _ List.filter_sublist)⟩
      have hclean (secret : String) : Secretless secret [stale_drift r.id (!diff.reversible)] := by
        refine .of_rows fun row hrow change hchange => ?_
        obtain rfl := List.mem_singleton.mp (mem_list_open_drifts.mp hrow).1
        cases hchange
      have hstale_left := hreport h₁ hstale
      have hstale_right := hreport h₂ hstale
      have hopen : open_row [stale_drift r.id (!diff.reversible)] r.id.to_string =
          some (stale_drift r.id (!diff.reversible)) := by
        simp [open_row, open_for, stale_drift, DriftRow.is_open]
      rw [hdrift] at hstale_left
      rw [hfailed, hopen] at hstale_right
      have heq := (hkeeps "" _ hstale (hclean alpha) (hclean beta)).same.report_eq hstale_left hstale_right
      simp only [DriftRow.report, stale_drift, Prod.mk.injEq] at heq
      have hreversible := congrArg Diff.reversible heq.2.2
      simp at hreversible

/-- What a row that is open after the cycle tells: what the cycle has found, or what was open before. -/
private theorem report_cases {registry : ProviderRegistry Host} {host : Host} {now : String} {resources : List Resource}
    (hids : (resources.map fun r => r.id.to_string).Nodup) {rows : List DriftRow} (h : WellFormed rows) {row : DriftRow}
    (hrow : row ∈ list_open_drifts (observe_resources_blocking registry host now resources rows).1) :
    (∃ r ∈ resources, r.id.to_string = row.resource_id ∧ ∃ provider diff, registry r.kind = some provider ∧
        reported provider host r = .ok (some diff) ∧ row.report = (severity_for diff, now, diff)) ∨
      (∃ r ∈ resources, r.id.to_string = row.resource_id ∧ (∀ provider, registry r.kind = some provider →
          ∃ e, reported provider host r = .error e) ∧ (open_row rows row.resource_id).map DriftRow.report = some row.report) ∨
      (∀ r ∈ resources, r.id.to_string ≠ row.resource_id) ∧ open_row rows row.resource_id = some row := by
  unfold observe_resources_blocking at hrow
  obtain ⟨hwell, hreports, hothers⟩ := @observe_loop_spec Host registry host now resources hids rows h ⟨resources.length, 0, []⟩
  obtain ⟨hmem, hopen⟩ := mem_list_open_drifts.mp hrow
  have hopen_row := hwell.open_row_eq hmem hopen
  by_cases hobserved : ∃ r ∈ resources, r.id.to_string = row.resource_id
  · obtain ⟨r, hr, hid⟩ := hobserved
    have hreport := hreports r hr
    rw [hid, hopen_row, Option.map_some] at hreport
    obtain ⟨hnone, error, hfailed⟩ | ⟨provider, hprovider, hcases⟩ := observe_resource_cases registry host r
    · rw [hfailed] at hreport
      refine .inr (.inl ⟨r, hr, hid, fun provider hprovider => ?_, hreport.symm⟩)
      cases hnone.symm.trans hprovider
    · obtain ⟨diff, hfound, hdrift⟩ | ⟨-, hclear⟩ | ⟨⟨e, herror⟩, error, hfailed⟩ := hcases
      · rw [hdrift] at hreport
        exact .inl ⟨r, hr, hid, provider, diff, hprovider, hfound, Option.some.inj hreport⟩
      · rw [hclear] at hreport
        cases hreport
      · rw [hfailed] at hreport
        refine .inr (.inl ⟨r, hr, hid, fun other hother => ?_, hreport.symm⟩)
        obtain rfl := Option.some.inj (hprovider.symm.trans hother)
        exact ⟨e, herror⟩
  · have hnone : ∀ r ∈ resources, r.id.to_string ≠ row.resource_id := fun r hr heq => hobserved ⟨r, hr, heq⟩
    exact .inr (.inr ⟨hnone, (hothers _ hnone).symm.trans hopen_row⟩)

/-- A cycle whose providers show no secret leaves no drift that does. -/
private theorem secretless_of_reports {registry : ProviderRegistry Host} {host : Host} {now secret : String}
    {resources : List Resource} (hids : (resources.map fun r => r.id.to_string).Nodup)
    (hreports : ∀ r ∈ resources, ∀ provider, registry r.kind = some provider → ∀ diff,
      reported provider host r = .ok (some diff) → Conceals secret diff)
    {rows : List DriftRow} (h : WellFormed rows) (hrows : Secretless secret rows) :
    Secretless secret (observe_resources_blocking registry host now resources rows).1 := by
  refine .of_rows fun row hrow => ?_
  obtain ⟨r, hr, -, provider, diff, hprovider, hfound, hreport⟩ | ⟨r, -, -, -, hold⟩ | ⟨-, hold⟩ := report_cases hids h hrow
  · have hdiff : row.diff = diff := congrArg (fun report => report.2.2) hreport
    rw [hdiff]
    exact hreports r hr provider hprovider diff hfound
  · exact hrows.report hold
  · exact hrows.report (congrArg (Option.map DriftRow.report) hold)

/-- Providers that report the same leave the same drifts. -/
private theorem same_drifts_of_blind {registry : ProviderRegistry Host} {h₁ h₂ : Host} {alpha beta : String}
    {resources : List Resource} (hids : (resources.map fun r => r.id.to_string).Nodup)
    (hblind : ∀ r ∈ resources, ∀ provider, registry r.kind = some provider → Blind provider h₁ h₂ alpha beta r)
    (now : String) {rows : List DriftRow} (h : WellFormed rows) :
    SameDrifts (observe_resources_blocking registry h₁ now resources rows).1
      (observe_resources_blocking registry h₂ now resources rows).1 := by
  have hunique {r r' : Resource} (hr : r ∈ resources) (hr' : r' ∈ resources) (hid : r.id.to_string = r'.id.to_string) :
      r = r' :=
    List.inj_on_of_nodup_map hids hr hr' hid
  apply SameDrifts.of_rows
  intro x hx y hy hxy
  obtain ⟨r, hr, hid, provider, diff, hprovider, hfound, hreport⟩ | ⟨r, hr, hid, hfails, hold⟩ | ⟨hnone, hold⟩ :=
      report_cases hids h hx <;>
    obtain ⟨r', hr', hid', provider', diff', hprovider', hfound', hreport'⟩ | ⟨r', hr', hid', hfails', hold'⟩ |
      ⟨hnone', hold'⟩ :=
      report_cases hids h hy
  · obtain rfl := hunique hr hr' (hid.trans (hxy.trans hid'.symm))
    obtain rfl := Option.some.inj (hprovider.symm.trans hprovider')
    obtain ⟨-, hsame | hclear⟩ := (hblind r hr provider hprovider).left diff hfound
    · obtain rfl := Option.some.inj (Except.ok.inj (hsame.symm.trans hfound'))
      rw [hreport, hreport']
    · cases hclear.symm.trans hfound'
  · obtain rfl := hunique hr hr' (hid.trans (hxy.trans hid'.symm))
    obtain ⟨e, herror⟩ := hfails' provider hprovider
    obtain ⟨-, hsame | hclear⟩ := (hblind r hr provider hprovider).left diff hfound
    · cases hsame.symm.trans herror
    · cases hclear.symm.trans herror
  · exact absurd (hid.trans hxy) (hnone' r hr)
  · obtain rfl := hunique hr hr' (hid.trans (hxy.trans hid'.symm))
    obtain ⟨e, herror⟩ := hfails provider' hprovider'
    obtain ⟨-, hsame | hclear⟩ := (hblind r hr provider' hprovider').right diff' hfound'
    · cases hsame.symm.trans herror
    · cases hclear.symm.trans herror
  · rw [hxy] at hold
    exact Option.some.inj (hold.symm.trans hold')
  · exact absurd (hid.trans hxy) (hnone' r hr)
  · exact absurd (hid'.trans hxy.symm) (hnone r' hr')
  · exact absurd (hid'.trans hxy.symm) (hnone r' hr')
  · rw [hxy] at hold
    rw [Option.some.inj (hold.symm.trans hold')]

/-- Two runs that differ in the value of one secret, up to the observation of
the host, store and push the same drifts, none of which shows the secret,
exactly when the providers themselves do not tell the two hosts apart and report
no field that shows it. -/
theorem drifts_keep_secrets (registry : ProviderRegistry Host) (secrets : SecretRegistry) (sref : SecretRef)
    (alpha beta : String) (host : Host) (disturb : Host → Host) (manifests : List Resource) (stored : List Value) :
    let h₁ := disturb (dispatched_host registry (secrets_with secrets sref alpha) stored host)
    let h₂ := disturb (dispatched_host registry (secrets_with secrets sref beta) stored host)
    let resources := observation_resources manifests stored
    CycleKeepsSecrets registry h₁ h₂ alpha beta resources ↔
      ∀ r ∈ resources, ∀ provider, registry r.kind = some provider → Blind provider h₁ h₂ alpha beta r := by
  intro h₁ h₂ resources
  have hids := observation_resources_nodup manifests stored
  constructor
  · intro hkeeps r hr provider hprovider
    exact ⟨fun diff => reports_of_keeps hids hkeeps hr hprovider, fun diff => reports_of_keeps hids hkeeps.symm hr hprovider⟩
  · intro hblind now rows hwell halpha hbeta
    refine ⟨same_drifts_of_blind hids hblind now hwell, secretless_of_reports hids ?_ hwell halpha,
      secretless_of_reports hids ?_ hwell hbeta⟩
    · exact fun r hr provider hprovider diff hfound => ((hblind r hr provider hprovider).left diff hfound).1
    · exact fun r hr provider hprovider diff hfound => ((hblind r hr provider hprovider).right diff hfound).1

section Samples

/-- A kernel parameter whose value is a secret. -/
def secret_parameter : Value :=
  json [("apiVersion", .string "iac.example/v1"), ("kind", .string "sysctl.setting"),
    ("metadata", json [("environment", .string "prod"), ("name", .string "domain")]),
    ("spec", json [("key", .string "kernel.domainname"), ("value", .string "$\x7bsecret://env/DOMAIN\x7d")])]

/-- The registry of the agent with the one provider. -/
def sysctl_registry : ProviderRegistry iac_providers.sysctl.Kernel := fun kind =>
  if kind = "sysctl.setting" then some iac_providers.sysctl.provider else none

/-- A host that has the parameter. -/
def sysctl_host : iac_providers.sysctl.Kernel where
  parameter path :=
    if path = "/proc/sys/kernel/domainname" then some (iac_providers.sysctl.read_fields "(none)".toList) else none
  refusal _ _ := none

/-- The secret that the parameter refers to. -/
def domain_ref : SecretRef := ⟨"env", "DOMAIN", none⟩

/-- The host after the parameter is dispatched with this secret. -/
def host_with (secret : String) : iac_providers.sysctl.Kernel :=
  dispatched_host sysctl_registry (secrets_with (fun _ => .error .NotFound) domain_ref secret) [secret_parameter] sysctl_host

/-- The texts that the changes of an outcome come from. -/
def revealed (outcome : Outcome) : List String :=
  match outcome with
  | .drift diff => diff.changes.filterMap fun change => change.from_value.bind Value.as_str
  | _ => []

/-- The desired state has the reference where the host has the secret, so the
drift shows the secret, and another one in the other run. -/
theorem drift_reveals_the_secret :
    (∀ r ∈ observation_resources [] [secret_parameter],
      revealed (observe_resource sysctl_registry (host_with "alpha") r) = ["alpha"] ∧
        revealed (observe_resource sysctl_registry (host_with "beta") r) = ["beta"]) ∧
    ¬ CycleKeepsSecrets sysctl_registry (host_with "alpha") (host_with "beta") "alpha" "beta"
      (observation_resources [] [secret_parameter]) := by
  have hrevealed : ∀ r ∈ observation_resources [] [secret_parameter],
      revealed (observe_resource sysctl_registry (host_with "alpha") r) = ["alpha"] ∧
        revealed (observe_resource sysctl_registry (host_with "beta") r) = ["beta"] := by
    decide
  refine ⟨hrevealed, fun hkeeps => ?_⟩
  have hne : observation_resources [] [secret_parameter] ≠ [] := by
    rw [ne_eq, ← List.length_eq_zero_iff]
    decide
  obtain ⟨r, hr⟩ := List.exists_mem_of_ne_nil _ hne
  have halpha := (hrevealed r hr).1
  obtain ⟨-, error, hfailed⟩ | ⟨provider, hprovider, ⟨diff, hfound, hdrift⟩ | ⟨-, hclear⟩ | ⟨-, error, hfailed⟩⟩ :=
    observe_resource_cases sysctl_registry (host_with "alpha") r
  · rw [hfailed] at halpha
    cases halpha
  · -- the secret stands in the `from` of a change
    rw [hdrift] at halpha
    obtain ⟨change, hchange, hfrom⟩ := List.mem_filterMap.mp (halpha ▸ List.mem_singleton_self "alpha" :
      "alpha" ∈ revealed (.drift diff))
    obtain ⟨value, hvalue, htext⟩ := Option.bind_eq_some_iff.mp hfrom
    have hconceals := (reports_of_keeps (observation_resources_nodup [] [secret_parameter]) hkeeps hr hprovider hfound).1
    have hmentions := hconceals change hchange value (.inl hvalue)
    cases value with
    | string s =>
      obtain rfl : s = "alpha" := Option.some.inj htext
      revert hmentions
      decide
    | _ => cases htext
  · rw [hclear] at halpha
    cases halpha
  · rw [hfailed] at halpha
    cases halpha

end Samples

end iac_agent

open iac_core serde_json

namespace iac_agent

variable {Host : Type}

/-- What a cycle meets: the clock, the host and its providers, the manifests
unless they cannot be loaded, and the desired state unless the server is down. -/
structure DriftCycle (Host : Type) where
  now : String
  registry : ProviderRegistry Host
  host : Host
  manifests : Option (List Resource)
  desired_state : Option (List Value)

/-- The resources of the cycle; without the server, those of the manifests. -/
def DriftCycle.resources (cycle : DriftCycle Host) : Option (List Resource) :=
  cycle.manifests.map fun manifests => observation_resources manifests (cycle.desired_state.getD [])

/-- A cycle whose manifests cannot be loaded ends before it observes. -/
def observe_once (rows : List DriftRow) (cycle : DriftCycle Host) : List DriftRow :=
  match cycle.resources with
  | none => rows
  | some resources => (observe_resources_blocking cycle.registry cycle.host cycle.now resources rows).1

/-- The rows that some cycles leave in a new store. -/
def AfterDriftCycles (Host : Type) (rows : List DriftRow) : Prop :=
  transition.Run (fun rows (cycle : DriftCycle Host) => some (observe_once rows cycle)) (fun _ _ => True) [] rows

/-- The open rows are what the cycle observed: no resource has two, each listed
resource has the one its outcome leaves, and no other resource has any. -/
structure Mirrors (cycle : DriftCycle Host) (resources : List Resource) (before after : List DriftRow) : Prop where
  open_once : ((after.filter DriftRow.is_open).map DriftRow.resource_id).Nodup
  listed : ∀ r ∈ resources, (open_row after r.id.to_string).map DriftRow.report =
    after_outcome cycle.now (observe_resource cycle.registry cycle.host r)
      ((open_row before r.id.to_string).map DriftRow.report)
  unlisted : ∀ row ∈ after, row.is_open = true → ∃ r ∈ resources, r.id.to_string = row.resource_id

/-- A cycle keeps the rows well formed, whatever it meets. -/
theorem WellFormed.observe_once {rows : List DriftRow} (h : WellFormed rows) (cycle : DriftCycle Host) :
    WellFormed (observe_once rows cycle) := by
  unfold iac_agent.observe_once
  cases hresources : cycle.resources with
  | none => exact h
  | some resources =>
    obtain ⟨manifests, -, rfl⟩ := Option.map_eq_some_iff.mp hresources
    exact (observe_loop_spec (observation_resources_nodup _ _) h _).1

theorem AfterDriftCycles.well_formed {rows : List DriftRow} (h : AfterDriftCycles Host rows) : WellFormed rows := by
  refine transition.Run.invariant h ⟨List.nodup_nil, List.nodup_nil⟩ fun rows after cycle hrows _ hstep => ?_
  exact Option.some.inj hstep ▸ hrows.observe_once cycle

/-- After every cycle of every run the open rows are what it observed exactly
when all rows open before it are of resources that are still listed. -/
theorem cycle_mirrors_iff {rows : List DriftRow} (hrun : AfterDriftCycles Host rows) (cycle : DriftCycle Host)
    {resources : List Resource} (hresources : cycle.resources = some resources) :
    Mirrors cycle resources rows (observe_once rows cycle) ↔
      ∀ row ∈ rows, row.is_open = true → ∃ r ∈ resources, r.id.to_string = row.resource_id := by
  have hwell := hrun.well_formed
  have hafter : observe_once rows cycle =
      (observe_loop cycle.registry cycle.host cycle.now resources rows ⟨resources.length, 0, []⟩).1 := by
    unfold observe_once
    rw [hresources]
    rfl
  have hids : (resources.map fun r => r.id.to_string).Nodup := by
    obtain ⟨manifests, -, rfl⟩ := Option.map_eq_some_iff.mp hresources
    exact observation_resources_nodup _ _
  obtain ⟨hwell', hlisted, hkept⟩ := @observe_loop_spec Host cycle.registry cycle.host cycle.now resources hids rows hwell
    ⟨resources.length, 0, []⟩
  rw [← hafter] at hwell' hlisted hkept
  constructor
  · intro hmirrors row hrow hopen
    by_contra hunlisted
    have hother : ∀ r ∈ resources, r.id.to_string ≠ row.resource_id := fun r hr heq => hunlisted ⟨r, hr, heq⟩
    have hstays : open_row (observe_once rows cycle) row.resource_id = some row :=
      (hkept row.resource_id hother).trans (hwell.open_row_eq hrow hopen)
    exact hunlisted (hmirrors.unlisted row (mem_of_open_row hstays).1 hopen)
  · intro hknown
    refine ⟨hwell'.open_once, hlisted, fun row hrow hopen => ?_⟩
    by_contra hunlisted
    have hother : ∀ r ∈ resources, r.id.to_string ≠ row.resource_id := fun r hr heq => hunlisted ⟨r, hr, heq⟩
    have hbefore : open_row rows row.resource_id = some row :=
      (hkept row.resource_id hother).symm.trans (hwell'.open_row_eq hrow hopen)
    exact hunlisted (hknown row (mem_of_open_row hbefore).1 hopen)

section Samples

/-- A kernel parameter that the host has with another value. -/
def domain : Resource where
  api_version := "iac.example/v1"
  kind := "sysctl.setting"
  name := "domain"
  environment := "prod"
  annotations := []
  spec := json [("key", .string "kernel.domainname"), ("value", .string "example")]

def drifting_cycle : DriftCycle iac_providers.sysctl.Kernel := ⟨"", sysctl_registry, sysctl_host, some [domain], none⟩

/-- The cycle after the manifest of the parameter is deleted. -/
def deleted_cycle : DriftCycle iac_providers.sysctl.Kernel := ⟨"", sysctl_registry, sysctl_host, some [], none⟩

theorem first_cycle_mirrors :
    Mirrors drifting_cycle (observation_resources [domain] []) [] (observe_once [] drifting_cycle) :=
  (cycle_mirrors_iff .start drifting_cycle rfl).mpr fun _ hrow => nomatch hrow

/-- The drift of a resource whose manifest is deleted stays open. -/
theorem deleted_resource_stays_open :
    AfterDriftCycles iac_providers.sysctl.Kernel (observe_once [] drifting_cycle) ∧
      deleted_cycle.resources = some [] ∧
      ¬ Mirrors deleted_cycle [] (observe_once [] drifting_cycle)
        (observe_once (observe_once [] drifting_cycle) deleted_cycle) := by
  refine ⟨.step .start trivial rfl, rfl, fun hmirrors => ?_⟩
  have hopen : (observe_once [] drifting_cycle).any DriftRow.is_open = true := by decide
  obtain ⟨row, hrow, hopen⟩ := List.any_eq_true.mp hopen
  obtain ⟨r, hr, -⟩ := hmirrors.unlisted row hrow hopen
  cases hr

end Samples

end iac_agent
