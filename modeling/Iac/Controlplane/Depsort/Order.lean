import Iac.Controlplane.Depsort.Sort

open serde_json iac_controlplane.store kahn

namespace iac_controlplane.depsort

/-- The last loop of the sort, which moves the resources out one by one; `none`
is the panic at a place out of range or already taken. -/
def take_each : List (Option ResourceForRouting) → List Nat → Option (List ResourceForRouting)
  | _, [] => some []
  | taker, idx :: order =>
    match taker[idx]? with
    | some (some entry) => (take_each (taker.set idx none) order).map fun sorted => entry :: sorted
    | _ => none

/-- `topo_sort_by_depends_on` on the list it is lent: what it returns and the list it leaves. -/
def sort_in_place (crates : Crates) (routing : List ResourceForRouting) :
    Option (Except ApiError Unit × List ResourceForRouting) :=
  if routing.isEmpty then some (.ok (), routing)
  else
    let n := routing.length
    match build_graph crates (id_to_idx routing) routing 0 ⟨fun _ => [], fun _ => 0⟩ with
    | .error e => some (.error e, routing)
    | .ok g =>
      let queue := (List.range n).filter fun i => g.in_degree i = 0
      let (in_degree, order) := kahn g.adjacency n g.in_degree queue []
      if order.length ≠ n then some (.error (.BadRequest (stuck_message routing in_degree)), routing)
      else (take_each (routing.map some) order).map fun sorted => (.ok (), sorted)

section Taking

variable {routing : List ResourceForRouting}

private theorem take_each_eq {order : List Nat} {taker : List (Option ResourceForRouting)} (hnodup : order.Nodup)
    (hthere : ∀ i ∈ order, ∃ r, routing[i]? = some r ∧ taker[i]? = some (some r)) :
    take_each taker order = some (pick routing order) := by
  induction order generalizing taker with
  | nil => rfl
  | cons idx order ih =>
    rw [List.nodup_cons] at hnodup
    obtain ⟨r, hr, htaker⟩ := hthere idx List.mem_cons_self
    have hrest : take_each (taker.set idx none) order = some (pick routing order) := by
      apply ih hnodup.2
      intro i hi
      have hne : idx ≠ i := fun heq => hnodup.1 (heq ▸ hi)
      rw [List.getElem?_set_ne hne]
      exact hthere i (List.mem_cons_of_mem idx hi)
    rw [take_each, htaker, pick, List.filterMap_cons_some hr]
    simp only [hrest, Option.map_some]
    rfl

private theorem Swept.take_each_eq {crates : Crates} (hids : (routing.map (·.resource_id)).Nodup)
    {in_degree : Nat → Nat} {order : List Nat} (h : Swept crates routing in_degree [] order) :
    take_each (routing.map some) order = some (pick routing order) := by
  have hbounded : ∀ i ∈ order, i < routing.length := fun i hi => h.bounded i (List.mem_append_left [] hi)
  have hpicked : (pick routing order).Nodup := (List.nodup_append.mp (h.sweeps.nodup hids.of_map)).1
  have hnodup : order.Nodup := by
    have hplaces := hpicked.map (Option.some_injective _)
    rw [map_pick hbounded] at hplaces
    exact hplaces.of_map
  apply depsort.take_each_eq hnodup
  intro i hi
  have hget : routing[i]? = some (routing.get ⟨i, hbounded i hi⟩) := List.getElem?_eq_getElem _
  exact ⟨_, hget, by rw [List.getElem?_map, hget, Option.map_some]⟩

/-- The sort of the list in place never panics; it leaves the sorted list, or the
list as it was when it fails. -/
theorem sort_in_place_eq {crates : Crates} (hids : (routing.map (·.resource_id)).Nodup) :
    sort_in_place crates routing = some
      (match topo_sort_by_depends_on crates routing with
        | .ok sorted => (.ok (), sorted)
        | .error e => (.error e, routing)) := by
  rw [sort_in_place, topo_sort_by_depends_on]
  split
  · next hempty => rw [List.isEmpty_iff.mp hempty]
  · cases hgraph : build_graph crates (id_to_idx routing) routing 0 ⟨fun _ => [], fun _ => 0⟩ with
    | error e => rfl
    | ok g =>
      have htaken := (kahn_sweeps hids hgraph).take_each_eq hids
      simp only [bind, Except.bind]
      split
      · rfl
      · rw [htaken]
        rfl

end Taking

/-- What is expected of a sorted list. -/
structure Sorted (crates : Crates) (routing sorted : List ResourceForRouting) : Prop where
  perm : sorted.Perm routing
  dependencies_first : ∀ before r after, sorted = before ++ r :: after →
    ∀ d ∈ routing, needs crates r d → d ∈ before
  independent_first : ∃ free rest, sorted = free ++ rest ∧ free.Sublist routing ∧
    ∀ r ∈ routing, r ∈ free ↔ Declares crates r []
  stable : sort_in_place crates sorted = some (.ok (), sorted)

variable {crates : Crates} {routing sorted : List ResourceForRouting}

theorem WellFormed.perm (h : WellFormed crates routing) (hperm : sorted.Perm routing) :
    WellFormed crates sorted := by
  intro r hr
  obtain ⟨deps, hdeclares, hnodup, hnames⟩ := h r (hperm.mem_iff.mp hr)
  refine ⟨deps, hdeclares, hnodup, fun dep_id hdep => ?_⟩
  obtain ⟨d, hd, hid, hne⟩ := hnames dep_id hdep
  exact ⟨d, hperm.mem_iff.mpr hd, hid, hne⟩

/-- In a well-formed list the resources that need no other are those that declare nothing. -/
theorem WellFormed.independent_iff (h : WellFormed crates routing) {r : ResourceForRouting} (hr : r ∈ routing) :
    (∀ d ∈ routing, ¬ needs crates r d) ↔ Declares crates r [] := by
  obtain ⟨deps, hdeclares, -, hnames⟩ := h r hr
  constructor
  · intro hroot
    cases deps with
    | nil => exact hdeclares
    | cons dep_id deps =>
      obtain ⟨d, hd, rfl, -⟩ := hnames dep_id List.mem_cons_self
      exact absurd ⟨_, hdeclares, List.mem_cons_self⟩ (hroot d hd)
  · intro hnone d _ hneeds
    exact List.not_mem_nil ((needs_iff hnone).mp hneeds)

variable (hids : (routing.map (·.resource_id)).Nodup)
include hids

private theorem topo_sort_ok (h : topo_sort_by_depends_on crates routing = .ok sorted) :
    WellFormed crates routing ∧ Sweeps (needs crates) routing sorted [] ∧ routing ⊆ sorted := by
  have houtcome : Outcome crates routing _ := topo_sort_outcome hids
  rw [h] at houtcome
  cases houtcome with
  | sorted hwell hsweeps hall => exact ⟨hwell, hsweeps, hall⟩

/-- The sort returns the order of a complete sweep. -/
theorem topo_sort_ok_iff : topo_sort_by_depends_on crates routing = .ok sorted ↔
    WellFormed crates routing ∧ Sweeps (needs crates) routing sorted [] ∧ routing ⊆ sorted := by
  refine ⟨topo_sort_ok hids, ?_⟩
  rintro ⟨hwell, hsweeps, hall⟩
  cases hresult : topo_sort_by_depends_on crates routing with
  | ok sorted' =>
    obtain ⟨-, hsweeps', hall'⟩ := topo_sort_ok hids hresult
    have hlength := (hsweeps'.perm hids.of_map hall').length_eq.trans (hsweeps.perm hids.of_map hall).length_eq.symm
    rw [(hsweeps'.unique hsweeps hlength).1]
  | error e =>
    have houtcome : Outcome crates routing _ := topo_sort_outcome hids
    rw [hresult] at houtcome
    cases houtcome with
    | refused hnot => exact absurd ⟨hwell, hsweeps.acyclic hids.of_map hall⟩ hnot

theorem topo_sort_sorts (h : topo_sort_by_depends_on crates routing = .ok sorted) : Sorted crates routing sorted := by
  obtain ⟨hwell, hsweeps, hall⟩ := topo_sort_ok hids h
  have hperm := hsweeps.perm hids.of_map hall
  refine ⟨hperm, fun before r after => hsweeps.met, ?_, ?_⟩
  · obtain ⟨rest, hrest⟩ := hsweeps.roots_prefix
    refine ⟨_, rest, hrest.symm, List.filter_sublist, fun r hr => ?_⟩
    rw [mem_roots, hwell.independent_iff hr]
    exact and_iff_right hr
  · have hids' : (sorted.map (·.resource_id)).Nodup := (hperm.map _).nodup_iff.mpr hids
    have hagain : topo_sort_by_depends_on crates sorted = .ok sorted := by
      rw [topo_sort_ok_iff hids']
      exact ⟨hwell.perm hperm, hsweeps.again hperm hids.of_map, List.Subset.refl sorted⟩
    rw [sort_in_place_eq hids', hagain]

theorem topo_sort_accepts_iff : (∃ sorted, topo_sort_by_depends_on crates routing = .ok sorted) ↔
    WellFormed crates routing ∧ Acyclic (needs crates) routing := by
  constructor
  · rintro ⟨sorted, hsorted⟩
    obtain ⟨hwell, hsweeps, hall⟩ := topo_sort_ok hids hsorted
    exact ⟨hwell, hsweeps.acyclic hids.of_map hall⟩
  · intro haccepted
    cases hresult : topo_sort_by_depends_on crates routing with
    | ok sorted => exact ⟨sorted, rfl⟩
    | error e =>
      have houtcome : Outcome crates routing _ := topo_sort_outcome hids
      rw [hresult] at houtcome
      cases houtcome with
      | refused hnot => exact absurd haccepted hnot

variable (crates routing) in
/-- The sort accepts exactly the well-formed lists without a cycle, sorts what it
accepts and leaves what it refuses as it was. -/
theorem topo_sort_by_depends_on_sorts : ∃ result left, sort_in_place crates routing = some (result, left) ∧
    (result = .ok () ↔ WellFormed crates routing ∧ Acyclic (needs crates) routing) ∧
    (result = .ok () → Sorted crates routing left) ∧
    ∀ e, result = .error e → left = routing := by
  rw [sort_in_place_eq hids]
  have houtcome : Outcome crates routing _ := topo_sort_outcome hids
  cases hresult : topo_sort_by_depends_on crates routing with
  | ok sorted =>
    rw [hresult] at houtcome
    cases houtcome with
    | sorted hwell hsweeps hall =>
      refine ⟨_, _, rfl, ?_, fun _ => topo_sort_sorts hids hresult, fun e he => by cases he⟩
      exact iff_of_true rfl ⟨hwell, hsweeps.acyclic hids.of_map hall⟩
  | error e =>
    rw [hresult] at houtcome
    cases houtcome with
    | refused hnot =>
      refine ⟨_, _, rfl, ?_, fun h => (by cases h), fun _ _ => rfl⟩
      exact iff_of_false (fun h => by cases h) hnot

omit hids

def sample_value (deps : List String) : Value :=
  json [("metadata", json [("dependsOn", .array (deps.map .string))])]

def sample_resource (id : String) (deps : List String) : ResourceForRouting where
  resource_id := id
  kind := "file"
  environment := "test"
  resource_json := compact (sample_value deps)
  name := id
  host_selector := none

def sample_crates : Crates := .on [sample_value [], sample_value ["a"], sample_value ["b"]]

def sample_chain : List ResourceForRouting :=
  [sample_resource "c" ["b"], sample_resource "b" ["a"], sample_resource "a" []]

theorem chain_sorts : (sample_chain.map (·.resource_id)).Nodup ∧
    sort_in_place sample_crates sample_chain = some (.ok (), sample_chain.reverse) ∧
    Sorted sample_crates sample_chain sample_chain.reverse := by
  have hids : (sample_chain.map (·.resource_id)).Nodup := by decide
  have hsort : sort_in_place sample_crates sample_chain = some (.ok (), sample_chain.reverse) := by decide
  obtain ⟨result, left, hresult, -, hsorted, -⟩ := topo_sort_by_depends_on_sorts sample_crates sample_chain hids
  obtain ⟨rfl, rfl⟩ := Prod.mk.inj (Option.some.inj (hresult.symm.trans hsort))
  exact ⟨hids, hsort, hsorted rfl⟩

end iac_controlplane.depsort
