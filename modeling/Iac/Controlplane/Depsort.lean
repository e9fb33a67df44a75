import Iac.Collections.Fallible
import Iac.Collections.Kahn
import Iac.Controlplane.Identity
import Iac.Core.Json
import Iac.Core.Text
import Mathlib.Data.List.Basic
import Mathlib.Logic.Function.Basic

open serde_json

namespace iac_controlplane.store

structure ResourceForRouting where
  resource_id : String
  kind : String
  environment : String
  resource_json : String
  name : String
  host_selector : Option String

end iac_controlplane.store

open iac_controlplane.store

namespace iac_controlplane.depsort

/-- The loop of `read_depends_on` over the entries, with those it has `seen`. -/
def read_entries : List Value → List String → Except ApiError (List String)
  | [], seen => .ok seen
  | item :: items, seen =>
    match item.as_str with
    | none => .error (.BadRequest "metadata.dependsOn entries must be strings")
    | some s =>
      if s ∈ seen then .error (.BadRequest ("metadata.dependsOn has duplicate entry " ++ str.debug s))
      else read_entries items (seen ++ [s])

def read_depends_on (crates : Crates) (resource_json : String) : Except ApiError (List String) :=
  match crates.from_str resource_json with
  | .error e => .error (.BadRequest ("malformed resource json: " ++ e))
  | .ok value =>
    match (value.get "metadata").bind fun m => m.get "dependsOn" with
    | none => .ok []
    | some deps_value =>
      match deps_value.as_array with
      | none => .error (.BadRequest "metadata.dependsOn must be an array of resource id strings")
      | some arr => read_entries arr []

/-- The map from resource id to index; the last of several equal ids wins. -/
def id_to_idx (routing : List ResourceForRouting) : String → Option Nat :=
  routing.zipIdx.foldl (fun map entry => Function.update map entry.1.resource_id (some entry.2)) fun _ => none

def unknown_dependency (r : ResourceForRouting) (dep_id : String) : ApiError :=
  .BadRequest (r.resource_id ++ ": dependsOn references unknown resource " ++ str.debug dep_id)

def not_yet_visited (dep_idx i : Nat) : ApiError :=
  .Internal ("compute_resource_layers: dep " ++ toString dep_idx ++ " of resource " ++ toString i ++
    " not yet visited — caller must topo-sort first")

/-- The loop of `compute_resource_layers` over the dependencies of resource `i`. -/
def max_dep_layer (index : String → Option Nat) (layers : List Int) (i : Nat) (r : ResourceForRouting) :
    List String → Int → Except ApiError Int
  | [], found => .ok found
  | dep_id :: deps, found =>
    match index dep_id with
    | none => .error (unknown_dependency r dep_id)
    | some dep_idx =>
      if i ≤ dep_idx then .error (not_yet_visited dep_idx i)
      else max_dep_layer index layers i r deps (max found (layers.getD dep_idx 0))

/-- The outer loop of `compute_resource_layers`, after the `layers` of the resources before. -/
def assign_layers (crates : Crates) (index : String → Option Nat) :
    List ResourceForRouting → List Int → Except ApiError (List Int)
  | [], layers => .ok layers
  | r :: rest, layers => do
    let deps ← read_depends_on crates r.resource_json
    let found ← max_dep_layer index layers layers.length r deps (-1)
    assign_layers crates index rest (layers ++ [found + 1])

def compute_resource_layers (crates : Crates) (routing : List ResourceForRouting) : Except ApiError (List Int) :=
  assign_layers crates (id_to_idx routing) routing []

/-- The edges found so far: for each index, the indices that depend on it and
the number of its own dependencies. -/
structure Graph where
  adjacency : Nat → List Nat
  in_degree : Nat → Nat

def Graph.add_edge (g : Graph) (dep_idx i : Nat) : Graph where
  adjacency := Function.update g.adjacency dep_idx (g.adjacency dep_idx ++ [i])
  in_degree := Function.update g.in_degree i (g.in_degree i + 1)

def add_dependencies (index : String → Option Nat) (i : Nat) (r : ResourceForRouting) :
    List String → Graph → Except ApiError Graph
  | [], g => .ok g
  | dep_id :: deps, g =>
    match index dep_id with
    | none => .error (unknown_dependency r dep_id)
    | some dep_idx =>
      if dep_idx = i then .error (.BadRequest (r.resource_id ++ ": dependsOn must not point at itself"))
      else add_dependencies index i r deps (g.add_edge dep_idx i)

def build_graph (crates : Crates) (index : String → Option Nat) :
    List ResourceForRouting → Nat → Graph → Except ApiError Graph
  | [], _, g => .ok g
  | r :: rest, i, g => do
    let deps ← read_depends_on crates r.resource_json
    let g ← add_dependencies index i r deps g
    build_graph crates index rest (i + 1) g

/-- Counts the edges out of a visited node down and queues the nodes that became free. -/
def release : List Nat → (Nat → Nat) → List Nat → (Nat → Nat) × List Nat
  | [], in_degree, queue => (in_degree, queue)
  | next :: rest, in_degree, queue =>
    let in_degree := Function.update in_degree next (in_degree next - 1)
    if in_degree next = 0 then release rest in_degree (queue ++ [next])
    else release rest in_degree queue

/-- Kahn's loop. Every node enters the queue at most once, so as many rounds
as there are nodes empty it. -/
def kahn (adjacency : Nat → List Nat) : Nat → (Nat → Nat) → List Nat → List Nat → (Nat → Nat) × List Nat
  | 0, in_degree, _, order => (in_degree, order)
  | _ + 1, in_degree, [], order => (in_degree, order)
  | fuel + 1, in_degree, idx :: queue, order =>
    let (in_degree, queue) := release (adjacency idx) in_degree queue
    kahn adjacency fuel in_degree queue (order ++ [idx])

def stuck_message (routing : List ResourceForRouting) (in_degree : Nat → Nat) : String :=
  let stuck := (routing.zipIdx.filter fun entry => 0 < in_degree entry.2).map fun entry => entry.1.resource_id
  "dependsOn cycle detected (involves: " ++ ", ".intercalate (stuck.take 5) ++ ")"

def topo_sort_by_depends_on (crates : Crates) (routing : List ResourceForRouting) :
    Except ApiError (List ResourceForRouting) :=
  if routing.isEmpty then .ok []
  else do
    let n := routing.length
    let g ← build_graph crates (id_to_idx routing) routing 0 ⟨fun _ => [], fun _ => 0⟩
    let queue := (List.range n).filter fun i => g.in_degree i = 0
    let (in_degree, order) := kahn g.adjacency n g.in_degree queue []
    if order.length ≠ n then .error (.BadRequest (stuck_message routing in_degree))
    else .ok (order.filterMap fun idx => routing[idx]?)

end iac_controlplane.depsort

open kahn

namespace iac_controlplane.depsort

deriving instance DecidableEq for ResourceForRouting

/-- The text of the resource is JSON whose `metadata.dependsOn` is absent, or the
array of the given names. -/
def Declares (crates : Crates) (r : ResourceForRouting) (deps : List String) : Prop :=
  ∃ value, crates.from_str r.resource_json = .ok value ∧
    match (value.get "metadata").bind fun m => m.get "dependsOn" with
    | none => deps = []
    | some deps_value => deps_value = .array (deps.map .string)

/-- The resource names the other one in its `dependsOn`. -/
def needs (crates : Crates) (r d : ResourceForRouting) : Prop :=
  ∃ deps, Declares crates r deps ∧ d.resource_id ∈ deps

noncomputable instance (crates : Crates) : DecidableRel (needs crates) :=
  Classical.decRel (needs crates)

/-- Each `dependsOn` is absent or an array of distinct texts, each the id of another resource. -/
def WellFormed (crates : Crates) (routing : List ResourceForRouting) : Prop :=
  ∀ r ∈ routing, ∃ deps, Declares crates r deps ∧ deps.Nodup ∧
    ∀ dep_id ∈ deps, ∃ d ∈ routing, d.resource_id = dep_id ∧ d ≠ r

section Declarations

variable {crates : Crates} {r d : ResourceForRouting} {deps deps' : List String}

theorem Declares.unique (h : Declares crates r deps) (h' : Declares crates r deps') : deps = deps' := by
  obtain ⟨value, hvalue, hdeps⟩ := h
  obtain ⟨value', hvalue', hdeps'⟩ := h'
  obtain rfl := Except.ok.inj (hvalue.symm.trans hvalue')
  split at hdeps
  · next hnone =>
    rw [hnone] at hdeps'
    exact hdeps.trans hdeps'.symm
  · next hsome =>
    rw [hsome] at hdeps'
    have hstrings := Value.array.inj (hdeps.symm.trans hdeps')
    exact List.map_injective_iff.mpr (fun _ _ heq => Value.string.inj heq) hstrings

theorem needs_iff (h : Declares crates r deps) : needs crates r d ↔ d.resource_id ∈ deps := by
  constructor
  · rintro ⟨deps', hdeps', hmem⟩
    rwa [h.unique hdeps']
  · exact fun hmem => ⟨deps, h, hmem⟩

private theorem read_entries_ok_iff {items : List Value} {seen names : List String} :
    read_entries items seen = .ok names ↔
      ∃ new : List String, items = new.map .string ∧ names = seen ++ new ∧ new.Nodup ∧ ∀ s ∈ new, s ∉ seen := by
  induction items generalizing seen with
  | nil =>
    rw [read_entries]
    constructor
    · intro h
      obtain rfl := Except.ok.inj h
      exact ⟨[], by simp⟩
    · rintro ⟨new, hitems, rfl, -, -⟩
      rw [List.map_eq_nil_iff.mp hitems.symm, List.append_nil]
  | cons item items ih =>
    rw [read_entries]
    cases item with
    | string s =>
      simp only [Value.as_str]
      split
      · next hseen =>
        simp only [reduceCtorEq, false_iff, not_exists]
        rintro (_ | ⟨s', new⟩) ⟨hitems, -, -, hfresh⟩
        · simp at hitems
        · simp only [List.map_cons, List.cons.injEq, Value.string.injEq] at hitems
          exact hfresh s' List.mem_cons_self (hitems.1 ▸ hseen)
      · next hseen =>
        rw [ih]
        constructor
        · rintro ⟨new, rfl, rfl, hnodup, hfresh⟩
          refine ⟨s :: new, by simp, by simp, ?_, ?_⟩
          · exact List.nodup_cons.mpr ⟨fun hmem => hfresh s hmem (by simp), hnodup⟩
          · intro t ht
            cases List.mem_cons.mp ht with
            | inl heq => exact heq ▸ hseen
            | inr hmem => exact fun hold => hfresh t hmem (List.mem_append_left [s] hold)
        · rintro ⟨_ | ⟨s', new⟩, hitems, rfl, hnodup, hfresh⟩
          · simp at hitems
          · simp only [List.map_cons, List.cons.injEq, Value.string.injEq] at hitems
            obtain ⟨rfl, rfl⟩ := hitems
            rw [List.nodup_cons] at hnodup
            refine ⟨new, rfl, by simp, hnodup.2, fun t ht => ?_⟩
            rw [List.mem_append, List.mem_singleton, not_or]
            exact ⟨hfresh t (List.mem_cons_of_mem s ht), fun heq => hnodup.1 (heq ▸ ht)⟩
    | _ =>
      simp only [Value.as_str, reduceCtorEq, false_iff, not_exists]
      rintro (_ | ⟨s', new⟩) ⟨hitems, -⟩ <;> simp at hitems

/-- `read_depends_on` accepts a declaration without repetition and reads it. -/
theorem read_depends_on_ok_iff :
    read_depends_on crates r.resource_json = .ok deps ↔ Declares crates r deps ∧ deps.Nodup := by
  unfold read_depends_on Declares
  cases crates.from_str r.resource_json with
  | error e => simp
  | ok value =>
    simp only [Except.ok.injEq, exists_eq_left']
    cases (value.get "metadata").bind fun m => m.get "dependsOn" with
    | none =>
      simp only [Except.ok.injEq, eq_comm (a := [])]
      exact ⟨fun heq => ⟨heq, heq ▸ List.nodup_nil⟩, And.left⟩
    | some deps_value =>
      cases deps_value with
      | array arr =>
        simp only [Value.as_array, read_entries_ok_iff, Value.array.injEq]
        constructor
        · rintro ⟨new, harr, rfl, hnodup, -⟩
          exact ⟨harr, hnodup⟩
        · rintro ⟨harr, hnodup⟩
          exact ⟨deps, harr, rfl, hnodup, fun _ _ => List.not_mem_nil⟩
      | _ => simp [Value.as_array]

end Declarations

end iac_controlplane.depsort

namespace iac_controlplane.depsort

theorem le_max_dep_layer {index : String → Option Nat} {layers : List Int} {i : Nat} {r : store.ResourceForRouting}
    {deps : List String} {found found' : Int} (h : max_dep_layer index layers i r deps found = .ok found') :
    found ≤ found' := by
  induction deps generalizing found with
  | nil =>
    obtain rfl := Except.ok.inj h
    exact Int.le_refl _
  | cons dep_id deps ih =>
    rw [max_dep_layer] at h
    split at h
    · cases h
    · split at h
      · cases h
      · exact Int.le_trans (Int.le_max_left _ _) (ih h)

private theorem assign_layers_nonneg {crates : Crates} {index : String → Option Nat}
    {rest : List store.ResourceForRouting} {layers layers' : List Int}
    (h : assign_layers crates index rest layers = .ok layers') (hlayers : ∀ l ∈ layers, 0 ≤ l) :
    ∀ l ∈ layers', 0 ≤ l := by
  induction rest generalizing layers with
  | nil =>
    obtain rfl := Except.ok.inj h
    exact hlayers
  | cons r rest ih =>
    rw [assign_layers] at h
    cases hdeps : read_depends_on crates r.resource_json with
    | error e => simp [hdeps, bind, Except.bind] at h
    | ok deps =>
      cases hfound : max_dep_layer index layers layers.length r deps (-1) with
      | error e => simp [hdeps, hfound, bind, Except.bind] at h
      | ok found =>
        simp only [hdeps, hfound, bind, Except.bind] at h
        refine ih h fun l hl => ?_
        obtain hold | hnew := List.mem_append.mp hl
        · exact hlayers l hold
        · have hle := le_max_dep_layer hfound
          rw [List.mem_singleton] at hnew
          omega

theorem compute_resource_layers_nonneg {crates : Crates} {routing : List store.ResourceForRouting} {layers : List Int}
    (h : compute_resource_layers crates routing = .ok layers) : ∀ l ∈ layers, 0 ≤ l :=
  assign_layers_nonneg h (by simp)

/-- Every sorted resource is one of those given. -/
theorem mem_of_topo_sort {crates : Crates} {routing sorted : List store.ResourceForRouting}
    (h : topo_sort_by_depends_on crates routing = .ok sorted) : ∀ r ∈ sorted, r ∈ routing := by
  rw [topo_sort_by_depends_on] at h
  split at h
  · obtain rfl := Except.ok.inj h
    simp
  · cases hgraph : build_graph crates (id_to_idx routing) routing 0 ⟨fun _ => [], fun _ => 0⟩ with
    | error e => simp [hgraph, bind, Except.bind] at h
    | ok g =>
      simp only [hgraph, bind, Except.bind] at h
      split at h
      · cases h
      · obtain rfl := Except.ok.inj h
        intro r hr
        obtain ⟨i, -, hget⟩ := List.mem_filterMap.mp hr
        exact List.mem_of_getElem? hget

section Length

/-- The edges of the graph lead to the first `n` indices. -/
def Graph.Within (g : Graph) (n : Nat) : Prop := ∀ j, ∀ i ∈ g.adjacency j, i < n

variable {crates : Crates} {index : String → Option Nat} {n : Nat}

private theorem add_dependencies_within {i : Nat} {r : store.ResourceForRouting} {deps : List String} {g g' : Graph}
    (hi : i < n) (hg : g.Within n) (h : add_dependencies index i r deps g = .ok g') : g'.Within n := by
  induction deps generalizing g with
  | nil =>
    obtain rfl := Except.ok.inj h
    exact hg
  | cons dep_id deps ih =>
    rw [add_dependencies] at h
    split at h
    · cases h
    · rename_i dep_idx hindex
      split at h
      · cases h
      · refine ih (fun j target htarget => ?_) h
        by_cases hj : j = dep_idx
        · simp only [hj, Graph.add_edge, Function.update_self, List.mem_append, List.mem_singleton] at htarget
          obtain hold | rfl := htarget
          · exact hg dep_idx target hold
          · exact hi
        · simp only [Graph.add_edge, Function.update_of_ne hj] at htarget
          exact hg j target htarget

private theorem build_graph_within {rest : List store.ResourceForRouting} {i : Nat} {g g' : Graph}
    (hn : i + rest.length = n) (hg : g.Within n) (h : build_graph crates index rest i g = .ok g') : g'.Within n := by
  induction rest generalizing i g with
  | nil =>
    obtain rfl := Except.ok.inj h
    exact hg
  | cons r rest ih =>
    rw [List.length_cons] at hn
    rw [build_graph] at h
    cases hdeps : read_depends_on crates r.resource_json with
    | error e => simp [hdeps, bind, Except.bind] at h
    | ok deps =>
      cases hadd : add_dependencies index i r deps g with
      | error e => simp [hdeps, hadd, bind, Except.bind] at h
      | ok mid =>
        simp only [hdeps, hadd, bind, Except.bind] at h
        exact ih (by omega) (add_dependencies_within (by omega) hg hadd) h

private theorem release_within {nodes : List Nat} {in_degree : Nat → Nat} {queue : List Nat}
    (hnodes : ∀ i ∈ nodes, i < n) (hqueue : ∀ i ∈ queue, i < n) : ∀ i ∈ (release nodes in_degree queue).2, i < n := by
  induction nodes generalizing in_degree queue with
  | nil => exact hqueue
  | cons next nodes ih =>
    have hrest : ∀ i ∈ nodes, i < n := fun i hi => hnodes i (List.mem_cons_of_mem next hi)
    simp only [release]
    split
    · refine ih hrest fun i hi => ?_
      obtain hold | hnew := List.mem_append.mp hi
      · exact hqueue i hold
      · rw [List.mem_singleton.mp hnew]
        exact hnodes next List.mem_cons_self
    · exact ih hrest hqueue

private theorem kahn_within {adjacency : Nat → List Nat} {fuel : Nat} {in_degree : Nat → Nat} {queue order : List Nat}
    (hadjacency : ∀ j, ∀ i ∈ adjacency j, i < n) (hqueue : ∀ i ∈ queue, i < n) (horder : ∀ i ∈ order, i < n) :
    ∀ i ∈ (kahn adjacency fuel in_degree queue order).2, i < n := by
  induction fuel generalizing in_degree queue order with
  | zero => exact horder
  | succ fuel ih =>
    cases queue with
    | nil => exact horder
    | cons idx queue =>
      have hidx : idx < n := hqueue idx List.mem_cons_self
      refine ih (release_within (hadjacency idx) fun i hi => hqueue i (List.mem_cons_of_mem idx hi)) fun i hi => ?_
      obtain hold | hnew := List.mem_append.mp hi
      · exact horder i hold
      · rwa [List.mem_singleton.mp hnew]

/-- The sort keeps the number of resources, also where two have one id. -/
theorem topo_sort_length {routing sorted : List store.ResourceForRouting}
    (h : topo_sort_by_depends_on crates routing = .ok sorted) : sorted.length = routing.length := by
  rw [topo_sort_by_depends_on] at h
  split at h
  · next hempty =>
    obtain rfl := Except.ok.inj h
    rw [List.isEmpty_iff.mp hempty]
  · cases hgraph : build_graph crates (id_to_idx routing) routing 0 ⟨fun _ => [], fun _ => 0⟩ with
    | error e => simp [hgraph, bind, Except.bind] at h
    | ok g =>
      simp only [hgraph, bind, Except.bind] at h
      split at h
      · cases h
      · next hlength =>
        obtain rfl := Except.ok.inj h
        rw [not_not] at hlength
        have hwithin : g.Within routing.length :=
          build_graph_within (Nat.zero_add routing.length) (fun j i hi => absurd hi List.not_mem_nil) hgraph
        have hrange : ∀ i ∈ (List.range routing.length).filter fun i => g.in_degree i = 0, i < routing.length :=
          fun i hi => List.mem_range.mp (List.mem_of_mem_filter hi)
        have horder := @kahn_within routing.length g.adjacency routing.length g.in_degree _ [] hwithin hrange
          fun i hi => absurd hi List.not_mem_nil
        refine (List.filterMap_length_eq_length.mpr fun i hi => ?_).trans hlength
        rw [List.getElem?_eq_getElem (horder i hi)]
        rfl

end Length

end iac_controlplane.depsort
