import Iac.Core.Yaml
import Iac.Providers.Plugin

open serde_yaml_ng (Value keyed of_json)

namespace iac_core.convert

/-- `serde_json::to_value` on YAML and `serde_yaml_ng::to_value` on JSON. -/
structure Serde where
  to_json : Value → Option serde_json.Value
  to_yaml : serde_json.Value → Option Value

structure FieldChange where
  field : String
  from_value : Option Value
  to_value : Option Value
  sensitive : Bool

/-- The top-level key that a change names. -/
def FieldChange.key (c : FieldChange) : String := String.ofList (c.field.toList.drop "spec.".length)

section Conversions

variable (serde : Serde)

def yaml_to_json (v : Value) : serde_json.Value := (serde.to_json v).getD .null

def json_to_yaml (v : serde_json.Value) : Value := (serde.to_yaml v).getD .null

/-- `hv != Some(wv)`. -/
def differs (hv : Option serde_json.Value) (wv : serde_json.Value) : Bool := !hv.any fun hv => hv.eqv wv

def collect_top_level_changes (want «have» : serde_json.Value) : List FieldChange :=
  match want, «have» with
  | .object w, .object h =>
    ((w.filter fun (k, wv) => differs ((serde_json.Value.object h).get k) wv).map fun (k, wv) =>
      ⟨"spec." ++ k, ((serde_json.Value.object h).get k).map (json_to_yaml serde), some (json_to_yaml serde wv), false⟩) ++
    (h.filter fun (k, _) => ((serde_json.Value.object w).get k).isNone).map fun (k, hv) =>
      ⟨"spec." ++ k, some (json_to_yaml serde hv), none, false⟩
  | _, _ => []

end Conversions

end iac_core.convert

namespace iac_providers.plugin.spec_diff

open iac_core.convert
open iac_core (DiffKind)

structure ObservedState where
  present : Bool
  spec : Value

structure Diff where
  kind : DiffKind
  changes : List FieldChange
  reasons : List String
  reversible : Bool

def Diff.no_change : Diff := ⟨.NoChange, [], [], true⟩

def spec_state_field (spec : Value) : Option String :=
  match spec with
  | .mapping map =>
    match map.find? fun e => (Value.string "state").eqv e.1 with
    | some (_, .string s) => some s
    | _ => none
  | _ => none

section Provider

variable (serde : Serde)

/-- What `observe` makes of the answer of the plugin. -/
def observed (resp : ObserveResp) : ObservedState :=
  if resp.present then ⟨true, json_to_yaml serde resp.spec⟩ else ⟨false, .null⟩

/-- `diff` of a plugin that has none. -/
def fallback_diff (spec : Value) (observed : ObservedState) : Diff :=
  let desired_absent := spec_state_field spec == some "absent"
  match observed.present, desired_absent with
  | false, true => .no_change
  | false, false => ⟨.Create, [], ["resource absent on host"], true⟩
  | true, true => ⟨.Delete, [], ["state=absent and resource present"], true⟩
  | true, false =>
    let want := yaml_to_json serde spec
    let «have» := yaml_to_json serde observed.spec
    if want.eqv «have» then .no_change
    else ⟨.Update, collect_top_level_changes serde want «have», ["spec differs from observed"], true⟩

end Provider

/-- The conversions keep what JSON can say. -/
structure Lawful (serde : Serde) : Prop where
  to_json : ∀ v, v.plain = true → serde.to_json v = some v.data
  to_yaml : ∀ j, serde.to_yaml j = some (of_json j)

/-- `IndexMap::insert`. -/
def insert (key : String) (v : Value) : List (String × Value) → List (String × Value)
  | [] => [(key, v)]
  | f :: fields => if f.1 = key then (key, v) :: fields else f :: insert key v fields

/-- The mapping with one change made to it. -/
def overwrite_one (fields : List (String × Value)) (c : FieldChange) : List (String × Value) :=
  match c.to_value with
  | some v => insert c.key v fields
  | none => fields.filter fun f => f.1 ≠ c.key

def overwrite (fields : List (String × Value)) (changes : List FieldChange) : List (String × Value) :=
  changes.foldl overwrite_one fields

/-- Under this key both mappings have equal values, or none. -/
def Agrees (want seen : List (String × Value)) (key : String) : Prop :=
  Option.Rel (fun a b => a.eqv b = true) (sorted_map.lookup key want) (sorted_map.lookup key seen)

/-- The changes name the keys on which the mappings differ, each once, and make the
seen mapping the wanted one. -/
structure ExactChanges (changes : List FieldChange) (want seen : List (String × Value)) : Prop where
  named : ∀ c ∈ changes, c.field = "spec." ++ c.key
  once : (changes.map FieldChange.key).Nodup
  differ : ∀ k, k ∈ changes.map FieldChange.key ↔ ¬ Agrees want seen k
  yields : (Value.mapping (keyed want)).eqv (.mapping (keyed (overwrite seen changes))) = true

theorem key_of_field {c : FieldChange} {k : String} (h : c.field = "spec." ++ k) : c.key = k := by
  unfold FieldChange.key
  rw [h, String.toList_append]
  exact String.ofList_toList

section Overwrite

variable {fields : List (String × Value)} {k other : String} {v : Value}

theorem keys_insert : (insert k v fields).map Prod.fst =
    if k ∈ fields.map Prod.fst then fields.map Prod.fst else fields.map Prod.fst ++ [k] := by
  induction fields with
  | nil => rfl
  | cons f fields ih =>
    rw [insert]
    by_cases hk : f.1 = k
    · rw [if_pos hk]
      simp [hk]
    · rw [if_neg hk, List.map_cons, ih]
      have hmem : k ∈ (f :: fields).map Prod.fst ↔ k ∈ fields.map Prod.fst := by simp [Ne.symm hk]
      simp only [hmem]
      split_ifs <;> rfl

theorem lookup_insert : sorted_map.lookup other (insert k v fields) =
    if k = other then some v else sorted_map.lookup other fields := by
  induction fields with
  | nil => exact sorted_map.lookup_cons other (k, v) []
  | cons f fields ih =>
    rw [insert]
    split_ifs with hf hk hk
    · rw [sorted_map.lookup_cons, if_pos hk]
    · rw [sorted_map.lookup_cons, sorted_map.lookup_cons, if_neg hk, if_neg (hf ▸ hk)]
    · rw [sorted_map.lookup_cons, ih, if_pos hk, if_neg (fun h => hf (h.trans hk.symm))]
    · rw [sorted_map.lookup_cons, sorted_map.lookup_cons, ih, if_neg hk]

theorem lookup_remove : sorted_map.lookup other (fields.filter fun f => f.1 ≠ k) =
    if k = other then none else sorted_map.lookup other fields := by
  induction fields with
  | nil => simp [sorted_map.lookup]
  | cons f fields ih =>
    by_cases hf : f.1 = k
    · rw [List.filter_cons_of_neg (by simp [hf]), ih, sorted_map.lookup_cons, hf]
      split_ifs <;> rfl
    · rw [List.filter_cons_of_pos (by simp [hf]), sorted_map.lookup_cons, ih, sorted_map.lookup_cons]
      split_ifs with hother hk
      · exact absurd (hother.trans hk.symm) hf
      all_goals rfl

theorem overwrite_one_unique (h : sorted_map.Unique fields) (c : FieldChange) :
    sorted_map.Unique (overwrite_one fields c) := by
  unfold overwrite_one sorted_map.Unique
  cases c.to_value with
  | none => exact h.sublist (List.filter_sublist.map Prod.fst)
  | some v =>
    rw [keys_insert]
    split_ifs with hmem
    · exact h
    · refine List.nodup_append.mpr ⟨h, List.nodup_singleton c.key, fun a ha b hb hab => ?_⟩
      exact hmem (List.mem_singleton.mp hb ▸ hab ▸ ha)

theorem lookup_overwrite_one (c : FieldChange) : sorted_map.lookup other (overwrite_one fields c) =
    if c.key = other then c.to_value else sorted_map.lookup other fields := by
  unfold overwrite_one
  cases c.to_value with
  | none => exact lookup_remove
  | some v => exact lookup_insert

theorem overwrite_unique (changes : List FieldChange) (h : sorted_map.Unique fields) :
    sorted_map.Unique (overwrite fields changes) := by
  induction changes generalizing fields with
  | nil => exact h
  | cons c changes ih => exact ih (overwrite_one_unique h c)

theorem lookup_overwrite_of_not_mem {changes : List FieldChange} (h : other ∉ changes.map FieldChange.key) :
    sorted_map.lookup other (overwrite fields changes) = sorted_map.lookup other fields := by
  induction changes generalizing fields with
  | nil => rfl
  | cons c changes ih =>
    rw [List.map_cons, List.mem_cons, not_or] at h
    rw [overwrite, List.foldl_cons]
    exact (ih h.2).trans ((lookup_overwrite_one c).trans (if_neg (Ne.symm h.1)))

theorem lookup_overwrite_of_mem {changes : List FieldChange} {c : FieldChange}
    (hnodup : (changes.map FieldChange.key).Nodup) (hc : c ∈ changes) :
    sorted_map.lookup c.key (overwrite fields changes) = c.to_value := by
  induction changes generalizing fields with
  | nil => cases hc
  | cons first changes ih =>
    obtain ⟨hfirst, hrest⟩ := List.nodup_cons.mp hnodup
    rw [overwrite, List.foldl_cons]
    obtain rfl | hc := List.mem_cons.mp hc
    · exact (lookup_overwrite_of_not_mem hfirst).trans ((lookup_overwrite_one c).trans (if_pos rfl))
    · exact ih hrest hc

end Overwrite

section Exact

variable {serde : Serde}

theorem Lawful.yaml_to_json (h : Lawful serde) {v : Value} (hv : v.plain = true) : yaml_to_json serde v = v.data := by
  rw [iac_core.convert.yaml_to_json, h.to_json v hv, Option.getD_some]

theorem Lawful.json_to_yaml (h : Lawful serde) (j : serde_json.Value) : json_to_yaml serde j = of_json j := by
  rw [iac_core.convert.json_to_yaml, h.to_yaml j, Option.getD_some]

variable {want seen : List (String × Value)} {w h : List (String × serde_json.Value)}

/-- The objects `w` and `h` are the JSON of the two mappings. -/
structure Objects (want seen : List (String × Value)) (w h : List (String × serde_json.Value)) : Prop where
  want_unique : sorted_map.Unique want
  seen_unique : sorted_map.Unique seen
  want_plain : ∀ f ∈ want, f.2.plain = true
  seen_plain : ∀ f ∈ seen, f.2.plain = true
  w_sorted : sorted_map.Sorted w
  h_sorted : sorted_map.Sorted h
  w_lookup : ∀ k, sorted_map.lookup k w = (sorted_map.lookup k want).map Value.data
  h_lookup : ∀ k, sorted_map.lookup k h = (sorted_map.lookup k seen).map Value.data

/-- The changes to keys that are wanted. -/
theorem Objects.mem_changed (ho : Objects want seen w h) (k : String) :
    (∃ wv, (k, wv) ∈ w ∧ differs (sorted_map.lookup k h) wv = true) ↔
      (sorted_map.lookup k want).isSome = true ∧ ¬ Agrees want seen k := by
  simp only [← ho.w_sorted.unique.lookup_eq_some_iff, ho.w_lookup, ho.h_lookup, Agrees]
  cases hv : sorted_map.lookup k want with
  | none => simp
  | some v =>
    rw [sorted_map.rel_some_left]
    cases hu : sorted_map.lookup k seen with
    | none => simp [differs]
    | some u =>
      have hsame := serde_yaml_ng.data_eqv_iff (ho.want_plain _ (sorted_map.mem_of_lookup hv))
        (ho.seen_plain _ (sorted_map.mem_of_lookup hu))
      simp only [Option.map_some, Option.some.injEq, exists_eq_left', differs, Option.any_some, Option.isSome_some,
        true_and, ← hsame, serde_json.Value.eqv_comm u.data]
      simp

/-- The changes to keys that are only seen. -/
theorem Objects.mem_removed (ho : Objects want seen w h) (k : String) :
    (∃ hv, (k, hv) ∈ h ∧ sorted_map.lookup k w = none) ↔
      sorted_map.lookup k want = none ∧ ¬ Agrees want seen k := by
  simp only [← ho.h_sorted.unique.lookup_eq_some_iff, ho.w_lookup, ho.h_lookup, Agrees]
  cases hv : sorted_map.lookup k want with
  | none =>
    rw [sorted_map.rel_none_left]
    cases sorted_map.lookup k seen <;> simp
  | some v => simp

theorem mem_changes {c : FieldChange} (hc : c ∈ collect_top_level_changes serde (.object w) (.object h)) :
    (∃ wv, (c.key, wv) ∈ w ∧ differs (sorted_map.lookup c.key h) wv = true ∧ c.field = "spec." ++ c.key ∧
        c.to_value = some (json_to_yaml serde wv)) ∨
      ∃ hv, (c.key, hv) ∈ h ∧ sorted_map.lookup c.key w = none ∧ c.field = "spec." ++ c.key ∧ c.to_value = none := by
  simp only [collect_top_level_changes, serde_json.Value.get_eq_lookup] at hc
  obtain hc | hc := List.mem_append.mp hc
  · obtain ⟨⟨k, wv⟩, hmem, rfl⟩ := List.mem_map.mp hc
    obtain ⟨hw, hdiffers⟩ := List.mem_filter.mp hmem
    rw [key_of_field (k := k) rfl]
    exact .inl ⟨wv, hw, hdiffers, rfl, rfl⟩
  · obtain ⟨⟨k, hv⟩, hmem, rfl⟩ := List.mem_map.mp hc
    obtain ⟨hh, hnone⟩ := List.mem_filter.mp hmem
    rw [key_of_field (k := k) rfl]
    exact .inr ⟨hv, hh, by simpa using hnone, rfl, rfl⟩

theorem keys_of_changes :
    (collect_top_level_changes serde (.object w) (.object h)).map FieldChange.key =
      (w.filter fun f => differs (sorted_map.lookup f.1 h) f.2).map Prod.fst ++
        (h.filter fun f => (sorted_map.lookup f.1 w).isNone).map Prod.fst := by
  simp only [collect_top_level_changes, serde_json.Value.get_eq_lookup, List.map_append, List.map_map]
  refine congrArg₂ (· ++ ·) (List.map_congr_left fun f _ => ?_) (List.map_congr_left fun f _ => ?_)
  · exact key_of_field rfl
  · exact key_of_field rfl

/-- Each key is changed when it is wanted otherwise, or removed. -/
theorem Objects.mem_keys (ho : Objects want seen w h) (k : String) :
    k ∈ (collect_top_level_changes serde (.object w) (.object h)).map FieldChange.key ↔ ¬ Agrees want seen k := by
  have hchanged : k ∈ (w.filter fun f => differs (sorted_map.lookup f.1 h) f.2).map Prod.fst ↔
      ∃ wv, (k, wv) ∈ w ∧ differs (sorted_map.lookup k h) wv = true := by
    simp [List.mem_filter]
  have hremoved : k ∈ (h.filter fun f => (sorted_map.lookup f.1 w).isNone).map Prod.fst ↔
      ∃ hv, (k, hv) ∈ h ∧ sorted_map.lookup k w = none := by
    simp [List.mem_filter]
  rw [keys_of_changes, List.mem_append, hchanged, hremoved, ho.mem_changed, ho.mem_removed]
  cases sorted_map.lookup k want <;> simp

theorem Objects.keys_nodup (ho : Objects want seen w h) :
    ((collect_top_level_changes serde (.object w) (.object h)).map FieldChange.key).Nodup := by
  rw [keys_of_changes]
  refine List.nodup_append.mpr ⟨?_, ?_, ?_⟩
  · exact ho.w_sorted.unique.sublist (List.filter_sublist.map Prod.fst)
  · exact ho.h_sorted.unique.sublist (List.filter_sublist.map Prod.fst)
  · intro k hchanged other hremoved
    rintro rfl
    obtain ⟨f, hf, rfl⟩ := List.mem_map.mp hchanged
    obtain ⟨g, hg, hkey⟩ := List.mem_map.mp hremoved
    have hnone := (List.mem_filter.mp hg).2
    rw [hkey, ho.w_sorted.unique.lookup_eq_some_iff.mpr (List.mem_filter.mp hf).1] at hnone
    cases hnone

/-- The changes between the objects of two mappings are exact. -/
theorem Objects.exact_changes (hserde : Lawful serde) (ho : Objects want seen w h) :
    ExactChanges (collect_top_level_changes serde (.object w) (.object h)) want seen := by
  refine ⟨fun c hc => ?_, ho.keys_nodup, ho.mem_keys, ?_⟩
  · obtain ⟨-, -, -, hfield, -⟩ | ⟨-, -, -, hfield, -⟩ := mem_changes hc
    · exact hfield
    · exact hfield
  · rw [serde_yaml_ng.mapping_eqv_iff ho.want_unique (overwrite_unique _ ho.seen_unique)]
    intro k
    by_cases hk : k ∈ (collect_top_level_changes serde (.object w) (.object h)).map FieldChange.key
    · obtain ⟨c, hc, rfl⟩ := List.mem_map.mp hk
      rw [lookup_overwrite_of_mem ho.keys_nodup hc]
      obtain ⟨wv, hw, -, -, hto⟩ | ⟨-, -, hw, -, hto⟩ := mem_changes hc
      · have hlookup := ho.w_lookup c.key
        rw [ho.w_sorted.unique.lookup_eq_some_iff.mpr hw] at hlookup
        obtain ⟨v, hv, rfl⟩ := Option.map_eq_some_iff.mp hlookup.symm
        rw [hv, hto, hserde.json_to_yaml]
        exact .some (serde_yaml_ng.eqv_of_json_data (ho.want_plain _ (sorted_map.mem_of_lookup hv)))
      · rw [ho.w_lookup, Option.map_eq_none_iff] at hw
        rw [hw, hto]
        exact .none
    · rw [lookup_overwrite_of_not_mem hk]
      exact not_not.mp fun hnot => hk ((ho.mem_keys k).mpr hnot)

theorem exact_of_related (hwant : sorted_map.Unique want) (hseen : sorted_map.Unique seen)
    (heqv : (Value.mapping (keyed want)).eqv (.mapping (keyed seen)) = true) : ExactChanges [] want seen := by
  have hrelated := (serde_yaml_ng.mapping_eqv_iff hwant hseen).mp heqv
  exact ⟨fun c hc => (nomatch hc), List.nodup_nil, fun k => iff_of_false (by simp) (not_not.mpr (hrelated k)), heqv⟩

theorem plain_keyed {fields : List (String × Value)} (h : (Value.mapping (keyed fields)).plain = true) :
    sorted_map.Unique fields ∧ ∀ f ∈ fields, f.2.plain = true := by
  obtain ⟨others, hsame, hunique, hplain⟩ := (serde_yaml_ng.plain_mapping_iff _).mp h
  obtain rfl : fields = others := by rw [← serde_yaml_ng.texts_keyed fields, hsame, serde_yaml_ng.texts_keyed]
  exact ⟨hunique, hplain⟩

/-- The JSON of two plain mappings is two such objects. -/
theorem objects_of_plain (hwant : (Value.mapping (keyed want)).plain = true)
    (hseen : (Value.mapping (keyed seen)).plain = true) :
    ∃ w h, (Value.mapping (keyed want)).data = .object w ∧ (Value.mapping (keyed seen)).data = .object h ∧
      Objects want seen w h := by
  obtain ⟨hwant_unique, hwant_plain⟩ := plain_keyed hwant
  obtain ⟨hseen_unique, hseen_plain⟩ := plain_keyed hseen
  obtain ⟨w, hw, hw_sorted, hw_lookup⟩ := serde_yaml_ng.data_mapping hwant_unique
  obtain ⟨h, hh, hh_sorted, hh_lookup⟩ := serde_yaml_ng.data_mapping hseen_unique
  exact ⟨w, h, hw, hh, hwant_unique, hseen_unique, hwant_plain, hseen_plain, hw_sorted, hh_sorted, hw_lookup, hh_lookup⟩

theorem fallback_present (spec : Value) (seen : Value) (hstate : spec_state_field spec ≠ some "absent") :
    fallback_diff serde spec ⟨true, seen⟩ =
      if (yaml_to_json serde spec).eqv (yaml_to_json serde seen) then .no_change
      else ⟨.Update, collect_top_level_changes serde (yaml_to_json serde spec) (yaml_to_json serde seen),
        ["spec differs from observed"], true⟩ := by
  have habsent : (spec_state_field spec == some "absent") = false := by simpa using hstate
  simp only [fallback_diff, habsent]

/-- For a desired spec that JSON can say, and any answer of the plugin, there is no
change exactly when the specs are the same, and the changes are exact. -/
theorem diff_is_exact (hserde : Lawful serde) {desired : Value} (hplain : desired.plain = true)
    (hstate : spec_state_field desired ≠ some "absent") {resp : ObserveResp} (hpresent : resp.present = true)
    (hresp : resp.spec.WellFormed) :
    ((fallback_diff serde desired (observed serde resp)).kind = .NoChange ↔
        desired.eqv (observed serde resp).spec = true) ∧
      ∀ want seen, desired = .mapping (keyed want) → (observed serde resp).spec = .mapping (keyed seen) →
        ExactChanges (fallback_diff serde desired (observed serde resp)).changes want seen := by
  have hobserved : observed serde resp = ⟨true, of_json resp.spec⟩ := by
    rw [observed, if_pos hpresent, hserde.json_to_yaml]
  have hseen := serde_yaml_ng.of_json_plain hresp
  have hsame := serde_yaml_ng.data_eqv_iff hplain hseen
  rw [hobserved, fallback_present _ _ hstate, hserde.yaml_to_json hplain, hserde.yaml_to_json hseen]
  constructor
  · rw [← hsame]
    split_ifs with heqv
    · exact iff_of_true rfl heqv
    · exact iff_of_false (fun h => nomatch h) heqv
  · rintro want seen rfl hmapping
    simp only at hmapping
    rw [hmapping] at hseen hsame ⊢
    split_ifs with heqv
    · exact exact_of_related (plain_keyed hplain).1 (plain_keyed hseen).1 (hsame.mp heqv)
    · obtain ⟨w, h, hw, hh, ho⟩ := objects_of_plain hplain hseen
      simp only [hw, hh]
      exact ho.exact_changes hserde

end Exact

section Samples

/-- Conversions that fail on what JSON cannot say. -/
def strict : Serde where
  to_json v := if v.plain then some v.data else none
  to_yaml j := some (of_json j)

theorem strict_lawful : Lawful strict := ⟨fun _ hv => if_pos hv, fun _ => rfl⟩

/-- A spec with a name and a port. -/
def listener (port : Nat) : List (String × Value) := [("name", .string "foo"), ("port", .number (.PosInt port))]

def listener_answer (port : Nat) : ObserveResp :=
  ⟨true, .object [("name", .string "foo"), ("port", .number (.PosInt port))]⟩

/-- Another port is a change, and the only one. -/
theorem port_is_changed :
    ((fallback_diff strict (.mapping (keyed (listener 80))) (observed strict (listener_answer 81))).kind = .NoChange ↔
        (Value.mapping (keyed (listener 80))).eqv (observed strict (listener_answer 81)).spec = true) ∧
      ExactChanges (fallback_diff strict (.mapping (keyed (listener 80))) (observed strict (listener_answer 81))).changes
        (listener 80) (listener 81) := by
  have hresp : (listener_answer 81).spec.WellFormed := by
    refine ⟨?_, trivial, rfl, trivial⟩
    exact List.pairwise_pair.mpr (by decide)
  obtain ⟨hkind, hexact⟩ :=
    @diff_is_exact strict strict_lawful (.mapping (keyed (listener 80))) (by decide) (by decide) _ rfl hresp
  exact ⟨hkind, hexact _ _ rfl rfl⟩

/-- A mapping with a sequence for its key. -/
def listed_key : Value := .mapping [(.sequence [.number (.PosInt 1), .number (.PosInt 2)], .string "ok")]

/-- It is taken for null, so that there is no change against a plugin that reports no spec. -/
theorem sequence_key_is_null :
    spec_state_field listed_key ≠ some "absent" ∧
      (fallback_diff strict listed_key (observed strict ⟨true, .null⟩)).kind = .NoChange ∧
      listed_key.eqv (observed strict ⟨true, .null⟩).spec = false := by decide

end Samples

end iac_providers.plugin.spec_diff
