import Iac.Controlplane.Depsort

open serde_json iac_controlplane.store kahn

namespace iac_controlplane.depsort

section Index

variable {routing : List ResourceForRouting}

private theorem id_to_idx_concat {r : ResourceForRouting} :
    id_to_idx (routing ++ [r]) = Function.update (id_to_idx routing) r.resource_id (some routing.length) := by
  simp [id_to_idx, List.zipIdx_append]

/-- With distinct ids the map leads each id to the one place where it stands. -/
theorem id_to_idx_eq_some_iff (hids : (routing.map (·.resource_id)).Nodup) {id : String} {i : Nat} :
    id_to_idx routing id = some i ↔ ∃ r, routing[i]? = some r ∧ r.resource_id = id := by
  induction routing using List.reverseRecOn with
  | nil => simp [id_to_idx]
  | append_singleton routing r ih =>
    rw [List.map_append, List.nodup_append] at hids
    obtain ⟨hids, -, hfresh⟩ := hids
    rw [id_to_idx_concat, Function.update_apply]
    split
    · next heq =>
      constructor
      · intro h
        obtain rfl := Option.some.inj h
        exact ⟨r, by simp, heq.symm⟩
      · rintro ⟨d, hd, hid⟩
        obtain hlt | rfl | hgt := Nat.lt_trichotomy i routing.length
        · rw [List.getElem?_append_left hlt] at hd
          have hmem : d.resource_id ∈ routing.map (·.resource_id) := List.mem_map_of_mem (List.mem_of_getElem? hd)
          exact absurd (hid.trans heq) (hfresh _ hmem _ (by simp))
        · rfl
        · rw [List.getElem?_eq_none (by simp; omega)] at hd
          cases hd
    · next hne =>
      rw [ih hids]
      refine exists_congr fun d => and_congr_left fun hid => ?_
      obtain hlt | rfl | hgt := Nat.lt_trichotomy i routing.length
      · rw [List.getElem?_append_left hlt]
      · have hr : r ≠ d := fun heq => hne (heq ▸ hid).symm
        simp [hr]
      · rw [List.getElem?_eq_none (by omega), List.getElem?_eq_none (by simp; omega)]

end Index

section Edges

variable {crates : Crates} {index : String → Option Nat}

theorem Graph.add_edge_adjacency (g : Graph) (dep_idx i j : Nat) :
    (g.add_edge dep_idx i).adjacency j = if j = dep_idx then g.adjacency dep_idx ++ [i] else g.adjacency j :=
  Function.update_apply _ _ _ _

theorem Graph.add_edge_in_degree (g : Graph) (dep_idx i k : Nat) :
    (g.add_edge dep_idx i).in_degree k = if k = i then g.in_degree i + 1 else g.in_degree k :=
  Function.update_apply _ _ _ _

private theorem add_dependencies_ok {i : Nat} {r : ResourceForRouting} {deps : List String} {g g' : Graph}
    (h : add_dependencies index i r deps g = .ok g') :
    (∀ dep_id ∈ deps, ∃ j, index dep_id = some j ∧ j ≠ i) ∧
      (∀ j, g'.adjacency j = g.adjacency j ++ List.replicate ((deps.filterMap index).count j) i) ∧
      ∀ k, g'.in_degree k = g.in_degree k + if k = i then deps.length else 0 := by
  induction deps generalizing g with
  | nil =>
    obtain rfl := Except.ok.inj h
    simp
  | cons dep_id deps ih =>
    rw [add_dependencies] at h
    cases hindex : index dep_id with
    | none => simp [hindex] at h
    | some dep_idx =>
      simp only [hindex] at h
      split at h
      · cases h
      · next hne =>
        obtain ⟨hknown, hadjacency, hdegree⟩ := ih h
        refine ⟨?_, fun j => ?_, fun k => ?_⟩
        · intro other hother
          cases List.mem_cons.mp hother with
          | inl heq => exact ⟨dep_idx, heq ▸ hindex, hne⟩
          | inr hmem => exact hknown other hmem
        · rw [hadjacency j, List.filterMap_cons_some hindex, List.count_cons, Graph.add_edge_adjacency]
          by_cases hj : j = dep_idx
          · subst hj
            simp [List.replicate_succ]
          · have hj' : ¬ dep_idx = j := fun heq => hj heq.symm
            simp [hj, hj']
        · rw [hdegree k, Graph.add_edge_in_degree]
          by_cases hk : k = i
          · subst hk
            simp only [if_true, List.length_cons]
            omega
          · simp [hk]

private theorem add_dependencies_total {i : Nat} {r : ResourceForRouting} {deps : List String}
    (h : ∀ dep_id ∈ deps, ∃ j, index dep_id = some j ∧ j ≠ i) (g : Graph) :
    ∃ g', add_dependencies index i r deps g = .ok g' := by
  induction deps generalizing g with
  | nil => exact ⟨g, rfl⟩
  | cons dep_id deps ih =>
    obtain ⟨j, hindex, hne⟩ := h dep_id List.mem_cons_self
    obtain ⟨g', hg'⟩ := ih (fun other hother => h other (List.mem_cons_of_mem dep_id hother)) (g.add_edge j i)
    exact ⟨g', by simp [add_dependencies, hindex, hne, hg']⟩

/-- The names that the code reads of a resource, none when it cannot. -/
def names (crates : Crates) (r : ResourceForRouting) : List String :=
  match read_depends_on crates r.resource_json with
  | .ok deps => deps
  | .error _ => []

/-- The graph after the resources in `entries` have been added to `g`. -/
structure Extended (crates : Crates) (index : String → Option Nat) (entries : List (ResourceForRouting × Nat))
    (g g' : Graph) : Prop where
  readable : ∀ e ∈ entries, read_depends_on crates e.1.resource_json = .ok (names crates e.1)
  known : ∀ e ∈ entries, ∀ dep_id ∈ names crates e.1, ∃ j, index dep_id = some j ∧ j ≠ e.2
  adjacency : ∀ j, g'.adjacency j =
    g.adjacency j ++ (entries.filter fun e => j ∈ (names crates e.1).filterMap index).map (·.2)
  in_degree : ∀ e ∈ entries, g'.in_degree e.2 = g.in_degree e.2 + (names crates e.1).length
  elsewhere : ∀ k, (∀ e ∈ entries, e.2 ≠ k) → g'.in_degree k = g.in_degree k

private theorem names_nodup {r : ResourceForRouting}
    (h : read_depends_on crates r.resource_json = .ok (names crates r)) : (names crates r).Nodup :=
  (read_depends_on_ok_iff.mp h).2

variable (hinjective : ∀ id id' i, index id = some i → index id' = some i → id = id')
include hinjective

private theorem count_targets {deps : List String} (hnodup : deps.Nodup) (j : Nat) :
    (deps.filterMap index).count j = if j ∈ deps.filterMap index then 1 else 0 := by
  have htargets : (deps.filterMap index).Nodup := by
    refine hnodup.filterMap ?_
    intro id id' i hi hi'
    exact hinjective id id' i hi hi'
  split
  · next hmem => exact List.count_eq_one_of_mem htargets hmem
  · next hnot => exact List.count_eq_zero_of_not_mem hnot

private theorem build_graph_ok {rest : List ResourceForRouting} {i : Nat} {g g' : Graph}
    (h : build_graph crates index rest i g = .ok g') : Extended crates index (rest.zipIdx i) g g' := by
  induction rest generalizing i g with
  | nil =>
    obtain rfl := Except.ok.inj h
    exact ⟨by simp, by simp, by simp, by simp, by simp⟩
  | cons r rest ih =>
    rw [build_graph] at h
    obtain ⟨deps, hdeps, hfound⟩ := fallible.bind_eq_ok_iff.mp h
    obtain ⟨next, hnext, hothers⟩ := fallible.bind_eq_ok_iff.mp hfound
    obtain rfl : names crates r = deps := by rw [names, hdeps]
    obtain ⟨hknown, hadjacency, hdegree⟩ := add_dependencies_ok hnext
    have hrest := ih hothers
    have hcount := count_targets hinjective (names_nodup hdeps)
    have hlater : ∀ e ∈ rest.zipIdx (i + 1), e.2 ≠ i := by
      intro e he heq
      have hle := (List.mem_zipIdx he).1
      omega
    rw [List.zipIdx_cons]
    refine ⟨?_, ?_, fun j => ?_, ?_, fun k hk => ?_⟩
    · intro e he
      cases List.mem_cons.mp he with
      | inl heq => exact heq ▸ hdeps
      | inr hmem => exact hrest.readable e hmem
    · intro e he
      cases List.mem_cons.mp he with
      | inl heq => exact heq ▸ hknown
      | inr hmem => exact hrest.known e hmem
    · rw [hrest.adjacency j, hadjacency j, hcount j, List.filter_cons]
      by_cases hj : j ∈ (names crates r).filterMap index <;> simp [hj]
    · intro e he
      cases List.mem_cons.mp he with
      | inl heq =>
        subst heq
        rw [hrest.elsewhere i hlater, hdegree i, if_pos rfl]
      | inr hmem => rw [hrest.in_degree e hmem, hdegree e.2, if_neg (hlater e hmem), Nat.add_zero]
    · have hne : i ≠ k := hk (r, i) List.mem_cons_self
      rw [hrest.elsewhere k fun e he => hk e (List.mem_cons_of_mem _ he), hdegree k, if_neg hne.symm, Nat.add_zero]

omit hinjective in
private theorem build_graph_total {rest : List ResourceForRouting} {i : Nat} (g : Graph)
    (h : ∀ e ∈ rest.zipIdx i, ∃ deps, read_depends_on crates e.1.resource_json = .ok deps ∧
      ∀ dep_id ∈ deps, ∃ j, index dep_id = some j ∧ j ≠ e.2) :
    ∃ g', build_graph crates index rest i g = .ok g' := by
  induction rest generalizing i g with
  | nil => exact ⟨g, rfl⟩
  | cons r rest ih =>
    rw [List.zipIdx_cons] at h
    obtain ⟨deps, hdeps, hknown⟩ := h (r, i) List.mem_cons_self
    obtain ⟨next, hnext⟩ := add_dependencies_total hknown g
    obtain ⟨g', hg'⟩ := ih next fun e he => h e (List.mem_cons_of_mem _ he)
    refine ⟨g', ?_⟩
    rw [build_graph, fallible.bind_eq_ok_iff]
    refine ⟨deps, hdeps, ?_⟩
    rw [fallible.bind_eq_ok_iff]
    exact ⟨next, hnext, hg'⟩

end Edges

section Picking

variable {routing : List ResourceForRouting}

/-- The resources at the given indices. -/
def pick (routing : List ResourceForRouting) (indices : List Nat) : List ResourceForRouting :=
  indices.filterMap fun idx => routing[idx]?

theorem pick_append {indices indices' : List Nat} :
    pick routing (indices ++ indices') = pick routing indices ++ pick routing indices' :=
  List.filterMap_append

theorem map_pick {indices : List Nat} (h : ∀ i ∈ indices, i < routing.length) :
    (pick routing indices).map some = indices.map fun idx => routing[idx]? := by
  induction indices with
  | nil => rfl
  | cons i indices ih =>
    have hget : routing[i]? = some (routing.get ⟨i, h i List.mem_cons_self⟩) := List.getElem?_eq_getElem _
    have hrest := ih fun j hj => h j (List.mem_cons_of_mem i hj)
    unfold pick at hrest ⊢
    rw [List.filterMap_cons_some hget, List.map_cons, List.map_cons, hrest, hget]

theorem length_pick {indices : List Nat} (h : ∀ i ∈ indices, i < routing.length) :
    (pick routing indices).length = indices.length := by
  simpa using congrArg List.length (map_pick h)

theorem pick_entries (p : ResourceForRouting × Nat → Bool) :
    pick routing ((routing.zipIdx.filter p).map (·.2)) = (routing.zipIdx.filter p).map (·.1) := by
  unfold pick
  rw [List.filterMap_map, ← List.filterMap_eq_map]
  apply List.filterMap_congr
  intro e he
  exact List.mk_mem_zipIdx_iff_getElem?.mp (List.mem_of_mem_filter he)

theorem filter_entries (q : ResourceForRouting → Bool) :
    (routing.zipIdx.filter fun e => q e.1).map (·.1) = routing.filter q := by
  have h : (routing.zipIdx.map Prod.fst).filter q = (routing.zipIdx.filter (q ∘ Prod.fst)).map Prod.fst :=
    List.filter_map
  rw [List.zipIdx_map_fst] at h
  exact h.symm

theorem indices_lt {p : ResourceForRouting × Nat → Bool} :
    ∀ i ∈ (routing.zipIdx.filter p).map (·.2), i < routing.length := by
  intro i hi
  obtain ⟨e, he, rfl⟩ := List.mem_map.mp hi
  have hlt := (List.mem_zipIdx (List.mem_of_mem_filter he)).2.1
  omega

theorem nodup_indices {p : ResourceForRouting × Nat → Bool} : ((routing.zipIdx.filter p).map (·.2)).Nodup := by
  have hall : (routing.zipIdx.map (·.2)).Nodup := by
    rw [List.zipIdx_map_snd]
    exact List.nodup_range'
  exact hall.sublist (List.filter_sublist.map _)

end Picking

/-- Releasing distinct nodes takes one off each count and queues those that reach zero. -/
theorem release_eq {nodes : List Nat} (hnodup : nodes.Nodup) (in_degree : Nat → Nat) (queue : List Nat) :
    release nodes in_degree queue =
      (fun k => if k ∈ nodes then in_degree k - 1 else in_degree k,
        queue ++ nodes.filter fun k => in_degree k - 1 = 0) := by
  induction nodes generalizing in_degree queue with
  | nil => simp [release]
  | cons next nodes ih =>
    rw [List.nodup_cons] at hnodup
    have hcounts : (fun k => if k ∈ nodes then Function.update in_degree next (in_degree next - 1) k - 1
        else Function.update in_degree next (in_degree next - 1) k) =
        fun k => if k ∈ next :: nodes then in_degree k - 1 else in_degree k := by
      funext k
      by_cases hk : k = next
      · subst hk
        simp [hnodup.1]
      · simp [hk]
    have hqueued : (nodes.filter fun k => Function.update in_degree next (in_degree next - 1) k - 1 = 0) =
        nodes.filter fun k => in_degree k - 1 = 0 := by
      apply List.filter_congr
      intro k hk
      have hne : k ≠ next := fun heq => hnodup.1 (heq ▸ hk)
      rw [Function.update_of_ne hne]
    rw [release, Function.update_self, ih hnodup.2, ih hnodup.2, hcounts, hqueued, List.filter_cons]
    by_cases hzero : in_degree next - 1 = 0 <;> simp [hzero]

/-- The state of the loop beside a sweep of the graph: the counts are those of
the needs that are not met. -/
structure Swept (crates : Crates) (routing : List ResourceForRouting) (in_degree : Nat → Nat)
    (queue order : List Nat) : Prop where
  bounded : ∀ i ∈ order ++ queue, i < routing.length
  sweeps : Sweeps (needs crates) routing (pick routing order) (pick routing queue)
  counts : ∀ e ∈ routing.zipIdx,
    in_degree e.2 = (routing.filter fun d => needs crates e.1 d ∧ d ∉ pick routing order).length

private theorem length_filter_concat {p : ResourceForRouting → Prop} [DecidablePred p]
    {l done : List ResourceForRouting} {x : ResourceForRouting} (hnodup : l.Nodup) (hx : x ∈ l) (hnot : x ∉ done)
    (hp : p x) :
    (l.filter fun d => p d ∧ d ∉ done ++ [x]).length = (l.filter fun d => p d ∧ d ∉ done).length - 1 := by
  have hmem : x ∈ l.filter fun d => p d ∧ d ∉ done := by simp [hx, hp, hnot]
  rw [← List.length_erase_of_mem hmem, (hnodup.filter _).erase_eq_filter, List.filter_filter]
  congr 1
  apply List.filter_congr
  intro d hd
  by_cases heq : d = x <;> simp [heq, and_comm]

section Refinement

variable {crates : Crates} {routing : List ResourceForRouting} (hids : (routing.map (·.resource_id)).Nodup)
  {g : Graph} (hgraph : Extended crates (id_to_idx routing) routing.zipIdx ⟨fun _ => [], fun _ => 0⟩ g)
include hids hgraph

theorem Extended.wellFormed : WellFormed crates routing := by
  intro r hr
  obtain ⟨i, hi⟩ := List.getElem?_of_mem hr
  have he : (r, i) ∈ routing.zipIdx := List.mk_mem_zipIdx_iff_getElem?.mpr hi
  obtain ⟨hdeclares, hnodup⟩ := read_depends_on_ok_iff.mp (hgraph.readable _ he)
  refine ⟨_, hdeclares, hnodup, fun dep_id hdep => ?_⟩
  obtain ⟨j, hj, hne⟩ := hgraph.known _ he dep_id hdep
  obtain ⟨d, hd, hid⟩ := (id_to_idx_eq_some_iff hids).mp hj
  refine ⟨d, List.mem_of_getElem? hd, hid, ?_⟩
  rintro rfl
  have hlt : j < routing.length := (List.getElem?_eq_some_iff.mp hd).1
  exact hne ((List.getElem?_inj hlt hids.of_map).mp (hd.trans hi.symm))

omit hids in
private theorem Extended.needs_iff {e : ResourceForRouting × Nat} (he : e ∈ routing.zipIdx) {d : ResourceForRouting} :
    needs crates e.1 d ↔ d.resource_id ∈ names crates e.1 :=
  depsort.needs_iff (read_depends_on_ok_iff.mp (hgraph.readable e he)).1

private theorem Extended.adjacency_eq {idx : Nat} {x : ResourceForRouting} (hx : routing[idx]? = some x) :
    g.adjacency idx = (routing.zipIdx.filter fun e => needs crates e.1 x).map (·.2) := by
  rw [hgraph.adjacency idx, List.nil_append]
  congr 1
  apply List.filter_congr
  intro e he
  rw [decide_eq_decide, hgraph.needs_iff he, List.mem_filterMap]
  constructor
  · rintro ⟨dep_id, hdep, hidx⟩
    obtain ⟨d, hd, rfl⟩ := (id_to_idx_eq_some_iff hids).mp hidx
    obtain rfl := Option.some.inj (hx.symm.trans hd)
    exact hdep
  · exact fun hdep => ⟨x.resource_id, hdep, (id_to_idx_eq_some_iff hids).mpr ⟨x, hx, rfl⟩⟩

private theorem Extended.in_degree_eq {e : ResourceForRouting × Nat} (he : e ∈ routing.zipIdx) :
    g.in_degree e.2 = (routing.filter fun d => needs crates e.1 d).length := by
  have hperm : ((routing.filter fun d => needs crates e.1 d).map (·.resource_id)).Perm (names crates e.1) := by
    have hnodup : ((routing.filter fun d => needs crates e.1 d).map (·.resource_id)).Nodup :=
      hids.sublist (List.filter_sublist.map _)
    rw [List.perm_ext_iff_of_nodup hnodup (names_nodup (hgraph.readable e he))]
    intro id
    simp only [List.mem_map, List.mem_filter, decide_eq_true_eq]
    constructor
    · rintro ⟨d, ⟨-, hneeds⟩, rfl⟩
      exact (hgraph.needs_iff he).mp hneeds
    · intro hid
      obtain ⟨j, hj, -⟩ := hgraph.known e he id hid
      obtain ⟨d, hd, rfl⟩ := (id_to_idx_eq_some_iff hids).mp hj
      exact ⟨d, ⟨List.mem_of_getElem? hd, (hgraph.needs_iff he).mpr hid⟩, rfl⟩
  rw [hgraph.in_degree e he, Nat.zero_add, ← hperm.length_eq, List.length_map]

private theorem Extended.start :
    Swept crates routing g.in_degree ((List.range routing.length).filter fun i => g.in_degree i = 0) [] := by
  have hqueue : ((List.range routing.length).filter fun i => g.in_degree i = 0) =
      (routing.zipIdx.filter fun e => g.in_degree e.2 = 0).map (·.2) := by
    have h : (routing.zipIdx.map Prod.snd).filter (fun i => g.in_degree i = 0) =
        (routing.zipIdx.filter ((fun i => decide (g.in_degree i = 0)) ∘ Prod.snd)).map Prod.snd := List.filter_map
    rwa [List.zipIdx_map_snd, ← List.range_eq_range'] at h
  have hroots : pick routing ((List.range routing.length).filter fun i => g.in_degree i = 0) =
      roots (needs crates) routing := by
    rw [hqueue, pick_entries, roots, ← filter_entries]
    congr 1
    apply List.filter_congr
    intro e he
    rw [decide_eq_decide, hgraph.in_degree_eq hids he, List.length_eq_zero_iff, List.filter_eq_nil_iff]
    simp
  refine ⟨?_, ?_, fun e he => ?_⟩
  · rw [List.nil_append, hqueue]
    exact indices_lt
  · rw [hroots]
    exact .start
  · rw [hgraph.in_degree_eq hids he]
    simp [pick]

/-- One round of the loop is one step of the sweep. -/
private theorem Swept.pop {in_degree : Nat → Nat} {idx : Nat} {queue order : List Nat}
    (h : Swept crates routing in_degree (idx :: queue) order) :
    Swept crates routing (release (g.adjacency idx) in_degree queue).1 (release (g.adjacency idx) in_degree queue).2
      (order ++ [idx]) := by
  have hlt : idx < routing.length := h.bounded idx (List.mem_append_right order List.mem_cons_self)
  obtain ⟨x, hx⟩ : ∃ x, routing[idx]? = some x := ⟨_, List.getElem?_eq_getElem hlt⟩
  have hx' : x ∈ routing := List.mem_of_getElem? hx
  have hdone : pick routing (order ++ [idx]) = pick routing order ++ [x] := by
    rw [pick_append]
    simp [pick, hx]
  have hqueue : pick routing (idx :: queue) = x :: pick routing queue := List.filterMap_cons_some hx
  have hnot : x ∉ pick routing order := by
    have hnodup := h.sweeps.nodup hids.of_map
    rw [hqueue, List.nodup_append] at hnodup
    exact fun hmem => hnodup.2.2 x hmem x List.mem_cons_self rfl
  have hsweeps := h.sweeps
  rw [hqueue] at hsweeps
  have hadjacency := hgraph.adjacency_eq hids hx
  have hmem : ∀ e ∈ routing.zipIdx, (e.2 ∈ g.adjacency idx ↔ needs crates e.1 x) := by
    intro e he
    rw [hadjacency, List.mem_map]
    constructor
    · rintro ⟨e', he', heq⟩
      rw [List.mem_filter, decide_eq_true_eq] at he'
      have hget := List.mem_zipIdx_iff_getElem?.mp he
      have hget' := List.mem_zipIdx_iff_getElem?.mp he'.1
      rw [heq, hget] at hget'
      exact Option.some.inj hget' ▸ he'.2
    · exact fun hneeds => ⟨e, List.mem_filter.mpr ⟨he, decide_eq_true hneeds⟩, rfl⟩
  have hcount : ∀ e ∈ routing.zipIdx, needs crates e.1 x → in_degree e.2 - 1 =
      (routing.filter fun d => needs crates e.1 d ∧ d ∉ pick routing order ++ [x]).length := by
    intro e he hneeds
    rw [h.counts e he, length_filter_concat hids.of_map hx' hnot hneeds]
  have hfreed : pick routing ((g.adjacency idx).filter fun k => in_degree k - 1 = 0) =
      freed (needs crates) routing (pick routing order) x := by
    rw [hadjacency, List.filter_map, List.filter_filter, pick_entries, freed, ← filter_entries]
    congr 1
    apply List.filter_congr
    intro e he
    rw [Bool.eq_iff_iff]
    simp only [Function.comp_apply, Bool.and_eq_true, decide_eq_true_eq]
    rw [and_comm]
    refine and_congr_right fun hneeds => ?_
    rw [hcount e he hneeds, List.length_eq_zero_iff, List.filter_eq_nil_iff]
    simp [or_iff_not_imp_left]
  rw [release_eq (by rw [hadjacency]; exact nodup_indices)]
  refine ⟨?_, ?_, fun e he => ?_⟩
  · intro i hi
    rw [List.append_assoc] at hi
    obtain hold | hnew := List.mem_append.mp hi
    · exact h.bounded i (List.mem_append_left _ hold)
    · obtain hidx | hqueued := List.mem_append.mp hnew
      · rwa [List.mem_singleton.mp hidx]
      · obtain hqueued | hfree := List.mem_append.mp hqueued
        · exact h.bounded i (List.mem_append_right _ (List.mem_cons_of_mem idx hqueued))
        · have hi' := List.mem_of_mem_filter hfree
          rw [hadjacency] at hi'
          exact indices_lt i hi'
  · rw [hdone, pick_append, hfreed]
    exact hsweeps.pop
  · rw [hdone]
    dsimp only
    by_cases hneeds : needs crates e.1 x
    · rw [if_pos ((hmem e he).mpr hneeds), hcount e he hneeds]
    · rw [if_neg fun hadj => hneeds ((hmem e he).mp hadj), h.counts e he]
      congr 1
      apply List.filter_congr
      intro d hd
      rw [decide_eq_decide]
      refine and_congr_right fun hneeds' => ?_
      have hne : d ≠ x := fun heq => hneeds (heq ▸ hneeds')
      simp [hne]

/-- The loop ends with an empty queue. -/
private theorem kahn_swept {fuel : Nat} {in_degree : Nat → Nat} {queue order : List Nat}
    (h : Swept crates routing in_degree queue order) (hfuel : order.length + fuel = routing.length) :
    Swept crates routing (kahn g.adjacency fuel in_degree queue order).1 []
      (kahn g.adjacency fuel in_degree queue order).2 := by
  induction fuel generalizing in_degree queue order with
  | zero =>
    have hle := h.sweeps.length_le hids.of_map
    rw [length_pick fun i hi => h.bounded i (List.mem_append_left queue hi),
      length_pick fun i hi => h.bounded i (List.mem_append_right order hi)] at hle
    have hempty : queue = [] := List.length_eq_zero_iff.mp (by omega)
    subst hempty
    exact h
  | succ fuel ih =>
    cases queue with
    | nil => exact h
    | cons idx queue =>
      rw [kahn]
      apply ih (h.pop hids hgraph)
      rw [List.length_append, List.length_singleton]
      omega

end Refinement

section Outcome

variable {crates : Crates} {routing : List ResourceForRouting} (hids : (routing.map (·.resource_id)).Nodup)
include hids

private theorem build_graph_of_wellFormed (hwell : WellFormed crates routing) (g : Graph) :
    ∃ g', build_graph crates (id_to_idx routing) routing 0 g = .ok g' := by
  apply build_graph_total
  intro e he
  have hget := List.mem_zipIdx_iff_getElem?.mp he
  obtain ⟨deps, hdeclares, hnodup, hnames⟩ := hwell e.1 (List.mem_of_getElem? hget)
  refine ⟨deps, read_depends_on_ok_iff.mpr ⟨hdeclares, hnodup⟩, fun dep_id hdep => ?_⟩
  obtain ⟨d, hd, hid, hne⟩ := hnames dep_id hdep
  obtain ⟨j, hj⟩ := List.getElem?_of_mem hd
  refine ⟨j, (id_to_idx_eq_some_iff hids).mpr ⟨d, hj, hid⟩, ?_⟩
  rintro rfl
  exact hne (Option.some.inj (hj.symm.trans hget))

private theorem id_to_idx_injective :
    ∀ id id' i, id_to_idx routing id = some i → id_to_idx routing id' = some i → id = id' := by
  intro id id' i hid hid'
  obtain ⟨r, hr, rfl⟩ := (id_to_idx_eq_some_iff hids).mp hid
  obtain ⟨r', hr', rfl⟩ := (id_to_idx_eq_some_iff hids).mp hid'
  rw [Option.some.inj (hr.symm.trans hr')]

/-- The loop sweeps the graph that was built, to its end. -/
theorem kahn_sweeps {g : Graph}
    (hgraph : build_graph crates (id_to_idx routing) routing 0 ⟨fun _ => [], fun _ => 0⟩ = .ok g) :
    let queue := (List.range routing.length).filter fun i => g.in_degree i = 0
    Swept crates routing (kahn g.adjacency routing.length g.in_degree queue []).1 []
      (kahn g.adjacency routing.length g.in_degree queue []).2 := by
  have hextended := build_graph_ok (id_to_idx_injective hids) hgraph
  exact kahn_swept hids hextended (hextended.start hids) (Nat.zero_add routing.length)

/-- What the sort returns and why. -/
inductive Outcome (crates : Crates) (routing : List ResourceForRouting) :
    Except ApiError (List ResourceForRouting) → Prop where
  | sorted {sorted : List ResourceForRouting} (hwell : WellFormed crates routing)
      (hsweeps : Sweeps (needs crates) routing sorted []) (hall : routing ⊆ sorted) :
      Outcome crates routing (.ok sorted)
  | refused {e : ApiError} (hnot : ¬ (WellFormed crates routing ∧ Acyclic (needs crates) routing)) :
      Outcome crates routing (.error e)

theorem topo_sort_outcome : Outcome crates routing (topo_sort_by_depends_on crates routing) := by
  rw [topo_sort_by_depends_on]
  split
  · next hempty =>
    obtain rfl := List.isEmpty_iff.mp hempty
    exact .sorted (fun r hr => absurd hr List.not_mem_nil) .start (List.Subset.refl [])
  · cases hgraph : build_graph crates (id_to_idx routing) routing 0 ⟨fun _ => [], fun _ => 0⟩ with
    | error e =>
      refine .refused fun h => ?_
      obtain ⟨g, hg⟩ := build_graph_of_wellFormed hids h.1 ⟨fun _ => [], fun _ => 0⟩
      rw [hgraph] at hg
      cases hg
    | ok g =>
      have hextended := build_graph_ok (id_to_idx_injective hids) hgraph
      have hswept := kahn_sweeps hids hgraph
      have hlength := length_pick fun i hi => hswept.bounded i (List.mem_append_left [] hi)
      simp only [bind, Except.bind]
      split
      · next hne =>
        refine .refused fun h => hne ?_
        rw [← hlength]
        exact (hswept.sweeps.perm hids.of_map (hswept.sweeps.complete h.2)).length_eq
      · next heq =>
        rw [ne_eq, not_not] at heq
        exact .sorted (hextended.wellFormed hids) hswept.sweeps
          (hswept.sweeps.all_of_length hids.of_map (hlength.trans heq))

end Outcome

end iac_controlplane.depsort
