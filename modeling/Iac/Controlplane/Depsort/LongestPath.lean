import Iac.Controlplane.Depsort
import Iac.Controlplane.Depsort.Order

open serde_json iac_controlplane.store kahn

namespace iac_controlplane.depsort

section Lookup

private theorem max_dep_layer_spec (index : String → Option Nat) (layers : List Int) {i : Nat} (r : ResourceForRouting)
    {deps : List String} (h : ∀ dep_id ∈ deps, ∃ j, index dep_id = some j ∧ j < i) (found : Int) :
    ∃ m, max_dep_layer index layers i r deps found = .ok m ∧ found ≤ m ∧
      (∀ dep_id ∈ deps, ∀ j, index dep_id = some j → layers.getD j 0 ≤ m) ∧
      (m = found ∨ ∃ dep_id ∈ deps, ∃ j, index dep_id = some j ∧ m = layers.getD j 0) := by
  induction deps generalizing found with
  | nil => exact ⟨found, rfl, Int.le_refl found, by simp, .inl rfl⟩
  | cons dep_id deps ih =>
    obtain ⟨j, hj, hlt⟩ := h dep_id List.mem_cons_self
    obtain ⟨m, hm, hle, hbound, hreached⟩ :=
      ih (fun other hother => h other (List.mem_cons_of_mem dep_id hother)) (max found (layers.getD j 0))
    refine ⟨m, ?_, by omega, ?_, ?_⟩
    · rw [max_dep_layer, hj]
      simp only [if_neg (Nat.not_le.mpr hlt)]
      exact hm
    · intro other hother k hk
      cases List.mem_cons.mp hother with
      | inl heq =>
        subst heq
        obtain rfl := Option.some.inj (hj.symm.trans hk)
        omega
      | inr hmem => exact hbound other hmem k hk
    · cases hreached with
      | inl heq =>
        obtain hle' | hle' := Int.le_total found (layers.getD j 0)
        · exact .inr ⟨dep_id, List.mem_cons_self, j, hj, by omega⟩
        · exact .inl (by omega)
      | inr hdep =>
        obtain ⟨other, hother, k, hk, heq⟩ := hdep
        exact .inr ⟨other, List.mem_cons_of_mem dep_id hother, k, hk, heq⟩

private theorem max_dep_layer_ok {index : String → Option Nat} {layers : List Int} {i : Nat} {r : ResourceForRouting}
    {deps : List String} {found m : Int} (h : max_dep_layer index layers i r deps found = .ok m) :
    ∀ dep_id ∈ deps, ∃ j, index dep_id = some j ∧ j < i ∧ layers.getD j 0 ≤ m := by
  induction deps generalizing found with
  | nil => simp
  | cons dep_id deps ih =>
    rw [max_dep_layer] at h
    split at h
    · cases h
    · next j hj =>
      split at h
      · cases h
      · next hlt =>
        intro other hother
        cases List.mem_cons.mp hother with
        | inl heq => exact ⟨j, heq ▸ hj, Nat.not_le.mp hlt, Int.le_trans (Int.le_max_right _ _) (le_max_dep_layer h)⟩
        | inr hmem => exact ih h other hmem

/-- In each step the resource gets a layer above those of its dependencies, which stand before it. -/
private theorem assign_layers_ok {crates : Crates} {index : String → Option Nat} {rest : List ResourceForRouting}
    {layers layers' : List Int} (h : assign_layers crates index rest layers = .ok layers') :
    ∃ new, layers' = layers ++ new ∧ new.length = rest.length ∧
      ∀ k r, rest[k]? = some r → ∃ (deps : List String) (l : Int), read_depends_on crates r.resource_json = .ok deps ∧ new[k]? = some l ∧
        ∀ dep_id ∈ deps, ∃ (j : Nat) (m : Int), index dep_id = some j ∧ j < layers.length + k ∧ layers'[j]? = some m ∧ m < l := by
  induction rest generalizing layers with
  | nil =>
    obtain rfl := Except.ok.inj h
    exact ⟨[], by simp⟩
  | cons r rest ih =>
    rw [assign_layers] at h
    obtain ⟨deps, hdeps, hstep⟩ := fallible.bind_eq_ok_iff.mp h
    obtain ⟨found, hfound, hrest⟩ := fallible.bind_eq_ok_iff.mp hstep
    obtain ⟨new, rfl, hlength, hnew⟩ := ih hrest
    refine ⟨(found + 1) :: new, by simp, by simp [hlength], ?_⟩
    rintro (_ | k) d hd
    · obtain rfl := Option.some.inj hd
      refine ⟨deps, found + 1, hdeps, rfl, fun dep_id hdep => ?_⟩
      obtain ⟨j, hj, hlt, hle⟩ := max_dep_layer_ok hfound dep_id hdep
      rw [List.getD_eq_getElem?_getD, List.getElem?_eq_getElem hlt, Option.getD_some] at hle
      refine ⟨j, layers[j], hj, hlt, ?_, by omega⟩
      rw [List.append_assoc, List.getElem?_append_left hlt, List.getElem?_eq_getElem hlt]
    · obtain ⟨deps', l, hdeps', hl, habove⟩ := hnew k d (by simpa using hd)
      refine ⟨deps', l, hdeps', by simpa using hl, fun dep_id hdep => ?_⟩
      obtain ⟨j, m, hj, hlt, hm, hml⟩ := habove dep_id hdep
      rw [List.length_append, List.length_singleton] at hlt
      exact ⟨j, m, hj, by omega, hm, hml⟩

theorem compute_resource_layers_length {crates : Crates} {routing : List ResourceForRouting} {layers : List Int}
    (h : compute_resource_layers crates routing = .ok layers) : layers.length = routing.length := by
  obtain ⟨new, rfl, hlength, -⟩ := assign_layers_ok h
  exact hlength

/-- Whatever list gets layers, each resource stands after those it needs and in a higher layer. -/
theorem compute_resource_layers_above {crates : Crates} {routing : List ResourceForRouting} {layers : List Int}
    (hids : (routing.map (·.resource_id)).Nodup) (h : compute_resource_layers crates routing = .ok layers) :
    ∀ (i j : Nat) (r d : ResourceForRouting) (l m : Int), routing[i]? = some r → layers[i]? = some l →
      routing[j]? = some d → layers[j]? = some m → needs crates r d → j < i ∧ m < l := by
  obtain ⟨new, rfl, -, habove⟩ := assign_layers_ok h
  intro i j r d l m hr hl hd hm hneeds
  obtain ⟨deps, l', hdeps, hl', hbelow⟩ := habove i r hr
  obtain rfl := Option.some.inj (hl.symm.trans hl')
  have hdep := (needs_iff (read_depends_on_ok_iff.mp hdeps).1).mp hneeds
  obtain ⟨k, m', hk, hlt, hm', hml⟩ := hbelow d.resource_id hdep
  obtain rfl := Option.some.inj (((id_to_idx_eq_some_iff hids).mpr ⟨d, hd, rfl⟩).symm.trans hk)
  obtain rfl := Option.some.inj (hm.symm.trans hm')
  rw [List.length_nil, Nat.zero_add] at hlt
  exact ⟨hlt, hml⟩

/-- Whatever list gets layers, each resource names resources before it. -/
theorem compute_resource_layers_names {crates : Crates} {routing : List ResourceForRouting} {layers : List Int}
    (hids : (routing.map (·.resource_id)).Nodup) (h : compute_resource_layers crates routing = .ok layers) {i : Nat}
    {r : ResourceForRouting} (hr : routing[i]? = some r) :
    ∃ deps, read_depends_on crates r.resource_json = .ok deps ∧
      ∀ dep_id ∈ deps, ∃ j d, j < i ∧ routing[j]? = some d ∧ d.resource_id = dep_id := by
  obtain ⟨new, rfl, -, habove⟩ := assign_layers_ok h
  obtain ⟨deps, l, hdeps, -, hbelow⟩ := habove i r hr
  refine ⟨deps, hdeps, fun dep_id hdep => ?_⟩
  obtain ⟨j, m, hj, hlt, -, -⟩ := hbelow dep_id hdep
  obtain ⟨d, hd, hid⟩ := (id_to_idx_eq_some_iff hids).mp hj
  rw [List.length_nil, Nat.zero_add] at hlt
  exact ⟨j, d, hlt, hd, hid⟩

/-- Whatever list gets layers, the sort accepts it. -/
theorem compute_resource_layers_accepts {crates : Crates} {routing : List ResourceForRouting} {layers : List Int}
    (hids : (routing.map (·.resource_id)).Nodup) (h : compute_resource_layers crates routing = .ok layers) :
    WellFormed crates routing ∧ Acyclic (needs crates) routing := by
  have hlength := compute_resource_layers_length h
  constructor
  · intro r hr
    obtain ⟨i, hi⟩ := List.getElem?_of_mem hr
    obtain ⟨deps, hdeps, hnames⟩ := compute_resource_layers_names hids h hi
    obtain ⟨hdeclares, hnodup⟩ := read_depends_on_ok_iff.mp hdeps
    refine ⟨deps, hdeclares, hnodup, fun dep_id hdep => ?_⟩
    obtain ⟨j, d, hlt, hj, hid⟩ := hnames dep_id hdep
    refine ⟨d, List.mem_of_getElem? hj, hid, ?_⟩
    rintro rfl
    have heq := (List.getElem?_inj (List.getElem?_eq_some_iff.mp hj).1 hids.of_map).mp (hj.trans hi.symm)
    omega
  · refine @acyclic_of_rank _ _ _ routing.idxOf ?_
    intro r hr d hd hneeds
    have hi := List.idxOf_lt_length_iff.mpr hr
    have hj := List.idxOf_lt_length_iff.mpr hd
    exact (compute_resource_layers_above hids h _ _ r d _ _ (List.getElem?_idxOf hr)
      (List.getElem?_eq_getElem (by omega)) (List.getElem?_idxOf hd) (List.getElem?_eq_getElem (by omega)) hneeds).1

/-- The layers depend on the ids and the texts of the resources only. -/
theorem compute_resource_layers_map {g : ResourceForRouting → ResourceForRouting}
    (hid : ∀ r, (g r).resource_id = r.resource_id) (hjson : ∀ r, (g r).resource_json = r.resource_json)
    (crates : Crates) (routing : List ResourceForRouting) :
    compute_resource_layers crates (routing.map g) = compute_resource_layers crates routing := by
  have hindex : id_to_idx (routing.map g) = id_to_idx routing := by
    simp only [id_to_idx, List.zipIdx_map, List.foldl_map, Prod.map_fst, Prod.map_snd, id_eq, hid]
  have hmax (layers : List Int) (i : Nat) (r : ResourceForRouting) (deps : List String) (found : Int) :
      max_dep_layer (id_to_idx routing) layers i (g r) deps found =
        max_dep_layer (id_to_idx routing) layers i r deps found := by
    induction deps generalizing found with
    | nil => rfl
    | cons dep_id deps ih => simp only [max_dep_layer, unknown_dependency, hid, ih]
  have hassign (rest : List ResourceForRouting) (layers : List Int) :
      assign_layers crates (id_to_idx routing) (rest.map g) layers =
        assign_layers crates (id_to_idx routing) rest layers := by
    induction rest generalizing layers with
    | nil => rfl
    | cons r rest ih => simp only [List.map_cons, assign_layers, hjson, hmax, ih]
  rw [compute_resource_layers, hindex, hassign, compute_resource_layers]

end Lookup

variable {crates : Crates} {sorted : List ResourceForRouting} (hids : (sorted.map (·.resource_id)).Nodup)
include hids

private theorem index_before {before rest : List ResourceForRouting} (hsplit : sorted = before ++ rest)
    {d : ResourceForRouting} (hd : d ∈ before) (layer : ResourceForRouting → Int) :
    ∃ j, id_to_idx sorted d.resource_id = some j ∧ j < before.length ∧ (before.map layer).getD j 0 = layer d := by
  obtain ⟨j, hj⟩ := List.getElem?_of_mem hd
  have hlt : j < before.length := (List.getElem?_eq_some_iff.mp hj).1
  refine ⟨j, (id_to_idx_eq_some_iff hids).mpr ⟨d, ?_, rfl⟩, hlt, ?_⟩
  · rw [hsplit, List.getElem?_append_left hlt, hj]
  · rw [List.getD_eq_getElem?_getD, List.getElem?_map, hj]
    rfl

variable (hwell : WellFormed crates sorted)
  (hfirst : ∀ before r after, sorted = before ++ r :: after → ∀ d ∈ sorted, needs crates r d → d ∈ before)
include hwell hfirst

/-- The layer that the loop finds for `r` is one above the last of its dependencies. -/
private theorem max_dep_layer_above {before rest : List ResourceForRouting} {r : ResourceForRouting}
    (hsplit : sorted = before ++ r :: rest) (layer : ResourceForRouting → Nat) :
    ∃ (deps : List String) (l : Nat), read_depends_on crates r.resource_json = .ok deps ∧
      max_dep_layer (id_to_idx sorted) (before.map fun r => (layer r : Int)) before.length r deps (-1) =
        .ok ((l : Int) - 1) ∧
      (∀ d ∈ before, needs crates r d → layer d < l) ∧
      (l ≠ 0 → ∃ d ∈ before, needs crates r d ∧ l = layer d + 1) := by
  obtain ⟨deps, hdeclares, hnodup, hnames⟩ := hwell r (by simp [hsplit])
  have hknown : ∀ dep_id ∈ deps, ∃ d ∈ before, d.resource_id = dep_id ∧ needs crates r d := by
    intro dep_id hdep
    obtain ⟨d, hd, rfl, -⟩ := hnames dep_id hdep
    have hneeds := (needs_iff hdeclares).mpr hdep
    exact ⟨d, hfirst before r rest hsplit d hd hneeds, rfl, hneeds⟩
  have hplace := fun d (hd : d ∈ before) => index_before hids hsplit hd fun r => (layer r : Int)
  have hindex : ∀ dep_id ∈ deps, ∃ j, id_to_idx sorted dep_id = some j ∧ j < before.length := by
    intro dep_id hdep
    obtain ⟨d, hd, rfl, -⟩ := hknown dep_id hdep
    obtain ⟨j, hj, hlt, -⟩ := hplace d hd
    exact ⟨j, hj, hlt⟩
  obtain ⟨m, hm, hle, hbound, hreached⟩ :=
    max_dep_layer_spec (id_to_idx sorted) (before.map fun r => (layer r : Int)) r hindex (-1)
  have hm' : ((m + 1).toNat : Int) - 1 = m := by omega
  refine ⟨deps, (m + 1).toNat, read_depends_on_ok_iff.mpr ⟨hdeclares, hnodup⟩, hm'.symm ▸ hm, ?_, ?_⟩
  · intro d hd hneeds
    obtain ⟨j, hj, -, hlayer⟩ := hplace d hd
    have hbelow := hbound d.resource_id ((needs_iff hdeclares).mp hneeds) j hj
    omega
  · intro hne
    cases hreached with
    | inl heq => omega
    | inr hdep =>
      obtain ⟨dep_id, hdep, j, hj, heq⟩ := hdep
      obtain ⟨d, hd, rfl, hneeds⟩ := hknown dep_id hdep
      obtain ⟨k, hk, -, hlayer⟩ := hplace d hd
      obtain rfl := Option.some.inj (hj.symm.trans hk)
      exact ⟨d, hd, hneeds, by omega⟩

/-- Resource after resource the loop extends a layering of those before. -/
private theorem assign_layers_layering {before rest : List ResourceForRouting} {layer : ResourceForRouting → Nat}
    (hsplit : sorted = before ++ rest) (hlayer : Layering (needs crates) before layer) :
    ∃ layer' : ResourceForRouting → Nat, Layering (needs crates) sorted layer' ∧
      assign_layers crates (id_to_idx sorted) rest (before.map fun r => (layer r : Int)) =
        .ok (sorted.map fun r => (layer' r : Int)) := by
  induction rest generalizing before layer with
  | nil =>
    rw [List.append_nil] at hsplit
    subst hsplit
    exact ⟨layer, hlayer, rfl⟩
  | cons r rest ih =>
    have hnot : r ∉ before := by
      have hnodup := hids.of_map
      rw [hsplit, List.nodup_append] at hnodup
      exact fun hmem => hnodup.2.2 r hmem r List.mem_cons_self rfl
    have hr : r ∈ sorted := by simp [hsplit]
    have hlast : ∀ i ∈ before, ¬ needs crates i r := by
      intro i hi hneeds
      obtain ⟨b, a, rfl⟩ := List.append_of_mem hi
      rw [List.append_assoc] at hsplit
      exact hnot (List.mem_append_left _ (hfirst b i _ hsplit r hr hneeds))
    obtain ⟨deps, l, hdeps, hfound, habove, htight⟩ := max_dep_layer_above hids hwell hfirst hsplit layer
    have hnext := hlayer.concat hnot hlast (fun hself => hnot (hfirst before r rest hsplit r hr hself)) habove htight
    obtain ⟨layer', hlayer', hrest⟩ := ih (by rw [hsplit, List.append_assoc]; rfl) hnext
    refine ⟨layer', hlayer', ?_⟩
    have hsame : before.map (fun d => (Function.update layer r l d : Int)) = before.map fun d => (layer d : Int) := by
      apply List.map_congr_left
      intro d hd
      have hne : d ≠ r := fun heq => hnot (heq ▸ hd)
      rw [Function.update_of_ne hne]
    rw [List.map_append, hsame, List.map_singleton, Function.update_self] at hrest
    rw [assign_layers, fallible.bind_eq_ok_iff]
    refine ⟨deps, hdeps, ?_⟩
    rw [fallible.bind_eq_ok_iff, List.length_map]
    refine ⟨_, hfound, ?_⟩
    rw [Int.sub_add_cancel]
    exact hrest

omit hids hwell hfirst

/-- On a list that the sort has accepted the layers are the lengths of the longest
paths; they rise along the list and leave no layer out. -/
theorem compute_resource_layers_longest_path (crates : Crates) (routing sorted : List ResourceForRouting)
    (hids : (routing.map (·.resource_id)).Nodup) (hsort : sort_in_place crates routing = some (.ok (), sorted)) :
    ∃ layer : ResourceForRouting → Nat,
      compute_resource_layers crates sorted = .ok (sorted.map fun r => (layer r : Int)) ∧
      (∀ r ∈ sorted, IsGreatest {k | PathTo (needs crates) sorted r k} (layer r)) ∧
      (∀ r ∈ sorted, layer r = 0 ↔ Declares crates r []) ∧
      (∀ r ∈ sorted, ∀ d ∈ sorted, needs crates r d → layer d < layer r) ∧
      (∀ r ∈ sorted, ∀ k ≤ layer r, ∃ d ∈ sorted, layer d = k) ∧
      (∀ r ∈ sorted, layer r < sorted.length) ∧
      sorted.Pairwise fun r d => layer r ≤ layer d := by
  have hresult : topo_sort_by_depends_on crates routing = .ok sorted := by
    rw [sort_in_place_eq hids] at hsort
    split at hsort
    · next hok => rw [hok, (Prod.mk.inj (Option.some.inj hsort)).2]
    · cases hsort
  obtain ⟨hwell, hsweeps, hall⟩ := (topo_sort_ok_iff hids).mp hresult
  have hperm := hsweeps.perm hids.of_map hall
  have hids' : (sorted.map (·.resource_id)).Nodup := (hperm.map _).nodup_iff.mpr hids
  have hwell' := hwell.perm hperm
  have hfirst : ∀ before r after, sorted = before ++ r :: after → ∀ d ∈ sorted, needs crates r d → d ∈ before :=
    fun before r after hsplit d hd => hsweeps.met hsplit d (hperm.mem_iff.mp hd)
  have hbottom : Layering (needs crates) [] fun _ => 0 := ⟨by simp, by simp⟩
  obtain ⟨layer, hlayer, hlayers⟩ := assign_layers_layering hids' hwell' hfirst (List.nil_append sorted).symm hbottom
  refine ⟨layer, hlayers, fun r hr => hlayer.isGreatest hr, ?_, hlayer.above, fun r hr k hk => hlayer.no_gap hr hk,
    fun r hr => hlayer.lt_length hr, ?_⟩
  · intro r hr
    rw [hlayer.eq_zero_iff hr, hwell'.independent_iff hr]
  · have hagain := hlayer.sorted (hsweeps.again hperm hids.of_map)
    rwa [List.append_nil] at hagain

theorem chain_layers : (sample_chain.map (·.resource_id)).Nodup ∧
    sort_in_place sample_crates sample_chain = some (.ok (), sample_chain.reverse) ∧
    ∃ layer : ResourceForRouting → Nat, compute_resource_layers sample_crates sample_chain.reverse =
      .ok (sample_chain.reverse.map fun r => (layer r : Int)) ∧ layer (sample_resource "a" []) = 0 := by
  have hids : (sample_chain.map (·.resource_id)).Nodup := by decide
  have hsort : sort_in_place sample_crates sample_chain = some (.ok (), sample_chain.reverse) := by decide
  obtain ⟨layer, hlayers, -, hzero, -⟩ :=
    compute_resource_layers_longest_path sample_crates sample_chain sample_chain.reverse hids hsort
  refine ⟨hids, hsort, layer, hlayers, ?_⟩
  rw [hzero _ (by simp [sample_chain])]
  exact ⟨sample_value [], by decide +kernel, rfl⟩

/-- Resources that stand after their dependencies get the layers of a layering. -/
theorem layering_of_order {crates : Crates} {sorted : List ResourceForRouting}
    (hids : (sorted.map (·.resource_id)).Nodup) (hwell : WellFormed crates sorted)
    (hfirst : ∀ before r after, sorted = before ++ r :: after → ∀ d ∈ sorted, needs crates r d → d ∈ before) :
    ∃ layer : ResourceForRouting → Nat, Layering (needs crates) sorted layer ∧
      compute_resource_layers crates sorted = .ok (sorted.map fun r => (layer r : Int)) := by
  have hbottom : Layering (needs crates) [] fun _ => 0 := ⟨by simp, by simp⟩
  exact assign_layers_layering hids hwell hfirst (List.nil_append sorted).symm hbottom

/-- The layers of a list that gets some are a layering of it. -/
theorem layering_of_layers {crates : Crates} {routing : List ResourceForRouting} {layers : List Int}
    (hids : (routing.map (·.resource_id)).Nodup) (h : compute_resource_layers crates routing = .ok layers) :
    ∃ layer : ResourceForRouting → Nat, Layering (needs crates) routing layer ∧
      layers = routing.map fun r => (layer r : Int) := by
  have hlength := compute_resource_layers_length h
  obtain ⟨layer, hlayering, hlayers⟩ := layering_of_order hids (compute_resource_layers_accepts hids h).1 (by
    intro before r after hsplit d hd hneeds
    obtain ⟨j, hj⟩ := List.getElem?_of_mem hd
    have hr : routing[before.length]? = some r := by simp [hsplit]
    have hlt : before.length < routing.length := by simp [hsplit]
    have hj' := (List.getElem?_eq_some_iff.mp hj).1
    have hbefore := (compute_resource_layers_above hids h _ _ r d _ _ hr (List.getElem?_eq_getElem (by omega)) hj
      (List.getElem?_eq_getElem (by omega)) hneeds).1
    rw [hsplit, List.getElem?_append_left hbefore] at hj
    exact List.mem_of_getElem? hj)
  exact ⟨layer, hlayering, Except.ok.inj (h.symm.trans hlayers)⟩

/-- What gets layers in one order can be sorted from any order and gets layers then. -/
theorem topo_sort_of_layers {crates : Crates} {routing shuffled : List ResourceForRouting} {layers : List Int}
    (hids : (routing.map (·.resource_id)).Nodup) (h : compute_resource_layers crates routing = .ok layers)
    (hperm : shuffled.Perm routing) :
    ∃ sorted layers', topo_sort_by_depends_on crates shuffled = .ok sorted ∧ sorted.Perm routing ∧
      compute_resource_layers crates sorted = .ok layers' := by
  obtain ⟨hwell, hacyclic⟩ := compute_resource_layers_accepts hids h
  have hids' : (shuffled.map (·.resource_id)).Nodup := (hperm.map _).nodup_iff.mpr hids
  obtain ⟨sorted, hsorted⟩ := (topo_sort_accepts_iff hids').mpr ⟨hwell.perm hperm, hacyclic.perm hperm⟩
  have hsorts := topo_sort_sorts hids' hsorted
  obtain ⟨layer, -, hlayers⟩ := layering_of_order ((hsorts.perm.map _).nodup_iff.mpr hids')
    ((hwell.perm hperm).perm hsorts.perm) fun before r after hsplit d hd =>
      hsorts.dependencies_first before r after hsplit d (hsorts.perm.mem_iff.mp hd)
  exact ⟨sorted, _, hsorted, hsorts.perm.trans hperm, hlayers⟩

end iac_controlplane.depsort
