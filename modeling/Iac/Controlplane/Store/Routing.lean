import Iac.Collections.SortedMap
import Iac.Controlplane.Depsort
import Iac.Core.Protocol
import Mathlib.Data.List.Sort
import Mathlib.Data.Prod.Lex
import Mathlib.Data.String.Basic

open serde_json iac_core.protocol sorted_map

namespace iac_controlplane.store

/-- `(id, name, environment)` of a registered agent. -/
abbrev AgentEntry := String × String × String

def strip_routing_hints (value : Value) : Value :=
  value.remove_at "spec" "hostSelector"

def route_by_name (r : ResourceForRouting) (operation_env host : String) :
    List AgentEntry → Except String String
  | [] => .error ("hostSelector.name=" ++ str.debug host ++ " but no agent registered in environment=" ++
      str.debug operation_env)
  | (id, name, env) :: agents =>
    if name = host ∧ env = operation_env then .ok id else route_by_name r operation_env host agents

def route_resource (r : ResourceForRouting) (operation_env : String) (agents : List AgentEntry) :
    Except String String :=
  match r.host_selector with
  | some host => route_by_name r operation_env host agents
  | none =>
    match agents.filter fun agent => agent.2.2 = operation_env with
    | [] => .error ("no agents registered in environment=" ++ str.debug operation_env)
    | [agent] => .ok agent.1
    | env_agents => .error (toString env_agents.length ++ " agents in environment=" ++ str.debug operation_env ++
        "; resource needs spec.hostSelector.name")

theorem route_by_name_congr {r r' : ResourceForRouting} {operation_env host : String} (agents : List AgentEntry) :
    route_by_name r operation_env host agents = route_by_name r' operation_env host agents := by
  induction agents with
  | nil => rfl
  | cons agent agents ih =>
    obtain ⟨id, name, env⟩ := agent
    rw [route_by_name, route_by_name, ih]

/-- A resource goes where its host selector says. -/
theorem route_resource_congr {r r' : ResourceForRouting} {operation_env : String} (h : r.host_selector = r'.host_selector)
    (agents : List AgentEntry) : route_resource r operation_env agents = route_resource r' operation_env agents := by
  rw [route_resource, route_resource, h]
  cases r'.host_selector with
  | none => rfl
  | some host => exact route_by_name_congr agents

/-- The `BTreeMap` from agent and layer to what goes into that assignment. -/
abbrev Buckets (α : Type) := List ((String ×ₗ Int) × List α)

def push_bucket {α : Type} (buckets : Buckets α) (agent_id : String) (layer : Int) (item : α) : Buckets α :=
  upsert (toLex (agent_id, layer)) (fun items => items.getD [] ++ [item]) buckets

/-- The agents of each layer, once each and sorted. -/
def bucket_agents_per_layer {α : Type} (buckets : Buckets α) : List (Int × List String) :=
  let per_layer := buckets.foldl (fun per_layer bucket =>
    let (agent_id, layer) := ofLex bucket.1
    upsert layer (fun agents =>
      let agents := agents.getD []
      if agent_id ∈ agents then agents else agents ++ [agent_id]) per_layer) []
  per_layer.map fun entry => (entry.1, entry.2.insertionSort (· ≤ ·))

/-- How many of the `n` agents of a layer get the canary batch, in `u32` arithmetic. -/
def canary_count (spec : CanarySpec) (n : Nat) : Nat :=
  let pct := max 1 (min 99 spec.pct.toNat)
  let min_count := max 1 (spec.min_count.getD 1).toNat
  let from_pct := (min (n * pct) (2 ^ 32 - 1) + 99) / 100
  min (max from_pct min_count) (n - 1)

def split_layer (spec : CanarySpec) (layer : Int) (agents : List String) : List ((String × Int) × Int) :=
  let n := agents.length % 2 ^ 32
  if n ≤ 1 then []
  else agents.zipIdx.map fun entry => ((entry.1, layer), if entry.2 < canary_count spec n then 0 else 1)

/-- The `HashMap` from agent and layer to batch; its keys are distinct. -/
def compute_canary_split (agents_per_layer : List (Int × List String)) (canary : Option CanarySpec) :
    List ((String × Int) × Int) :=
  match canary with
  | none => []
  | some spec => agents_per_layer.flatMap fun entry => split_layer spec entry.1 entry.2

section Split

variable {α : Type}

/-- Some bucket goes to this agent in this layer. -/
def Dispatches (buckets : Buckets α) (agent_id : String) (layer : Int) : Prop :=
  ∃ items, (toLex (agent_id, layer), items) ∈ buckets

private def layer_agents (layer : Int) (per_layer : List (Int × List String)) : List String :=
  (lookup layer per_layer).getD []

private theorem layer_agents_upsert {per_layer : List (Int × List String)} (hsorted : Sorted per_layer)
    (agent_id : String) (layer l : Int) :
    layer_agents l (upsert layer (fun agents =>
        if agent_id ∈ agents.getD [] then agents.getD [] else agents.getD [] ++ [agent_id]) per_layer) =
      if l = layer ∧ agent_id ∉ layer_agents layer per_layer then layer_agents layer per_layer ++ [agent_id]
      else layer_agents l per_layer := by
  by_cases hl : l = layer
  · subst hl
    by_cases hmem : agent_id ∈ layer_agents l per_layer <;>
      simp_all [layer_agents, lookup_upsert_self hsorted]
  · simp [layer_agents, lookup_upsert_of_ne hl, hl]

/-- The agents collected for each layer are those with a bucket there, each once. -/
private theorem collected_agents (buckets : Buckets α) :
    ∀ per_layer : List (Int × List String), Sorted per_layer →
      (∀ l, (layer_agents l per_layer).Nodup) →
      let collected := buckets.foldl (fun per_layer bucket =>
        let (agent_id, layer) := ofLex bucket.1
        upsert layer (fun agents =>
          let agents := agents.getD []
          if agent_id ∈ agents then agents else agents ++ [agent_id]) per_layer) per_layer
      Sorted collected ∧ ∀ l, (layer_agents l collected).Nodup ∧
        ∀ a, a ∈ layer_agents l collected ↔ a ∈ layer_agents l per_layer ∨ Dispatches buckets a l := by
  induction buckets with
  | nil => simp_all [Dispatches]
  | cons bucket rest ih =>
    intro per_layer hsorted hnodup
    obtain ⟨key, items⟩ := bucket
    have hstep := layer_agents_upsert hsorted (ofLex key).1 (ofLex key).2
    obtain ⟨hs, hl⟩ := ih _ (hsorted.upsert (k := (ofLex key).2) (f := fun agents =>
        if (ofLex key).1 ∈ agents.getD [] then agents.getD [] else agents.getD [] ++ [(ofLex key).1])) (by
      intro l
      rw [hstep]
      split
      · rename_i h
        exact List.nodup_append.mpr ⟨hnodup _, by simp, by
          intro a ha b hb
          rw [List.mem_singleton] at hb
          rintro rfl
          exact h.2 (hb ▸ ha)⟩
      · exact hnodup l)
    refine ⟨hs, fun l => ⟨(hl l).1, fun a => ?_⟩⟩
    refine ((hl l).2 a).trans ?_
    rw [hstep]
    have hkey : (toLex (a, l) = key) ↔ a = (ofLex key).1 ∧ l = (ofLex key).2 := by
      constructor
      · rintro rfl
        exact ⟨rfl, rfl⟩
      · rintro ⟨rfl, rfl⟩
        rfl
    have hcons : Dispatches ((key, items) :: rest) a l ↔
        (a = (ofLex key).1 ∧ l = (ofLex key).2) ∨ Dispatches rest a l := by
      simp [Dispatches, exists_or, hkey]
    rw [hcons]
    by_cases hmem : (ofLex key).1 ∈ layer_agents (ofLex key).2 per_layer
    · have hseen : a = (ofLex key).1 ∧ l = (ofLex key).2 → a ∈ layer_agents l per_layer := by
        rintro ⟨rfl, rfl⟩
        exact hmem
      simp only [hmem, not_true_eq_false, and_false, if_false]
      rw [← or_assoc, or_iff_left_of_imp hseen]
    · by_cases hlayer : l = (ofLex key).2
      · subst hlayer
        simp [hmem]
        tauto
      · simp [hlayer]

/-- Each layer lists exactly the agents with a bucket in it, each once. -/
theorem bucket_agents_per_layer_spec (buckets : Buckets α) :
    Sorted (bucket_agents_per_layer buckets) ∧
      ∀ l agents, (l, agents) ∈ bucket_agents_per_layer buckets →
        agents.Nodup ∧ ∀ a, a ∈ agents ↔ Dispatches buckets a l := by
  obtain ⟨hsorted, hcollected⟩ := collected_agents buckets [] sorted_nil (by simp [layer_agents, lookup])
  refine ⟨?_, ?_⟩
  · rw [bucket_agents_per_layer, Sorted, List.pairwise_map]
    exact hsorted
  · intro l agents hmem
    obtain ⟨⟨l', collected⟩, hentry, heq⟩ := List.mem_map.mp hmem
    obtain ⟨rfl, rfl⟩ := Prod.mk.inj heq
    obtain ⟨hnodup, hagents⟩ := hcollected l'
    simp only [layer_agents, hsorted.lookup_eq_some_iff.mpr hentry, Option.getD_some] at hnodup hagents
    have hperm := List.perm_insertionSort (· ≤ ·) collected
    refine ⟨hperm.nodup_iff.mpr hnodup, fun a => ?_⟩
    rw [hperm.mem_iff, hagents]
    simp [lookup]

/-- Every layer with a bucket is listed. -/
theorem bucket_agents_per_layer_covers {buckets : Buckets α} {agent_id : String} {layer : Int}
    (h : Dispatches buckets agent_id layer) : ∃ agents, (layer, agents) ∈ bucket_agents_per_layer buckets := by
  obtain ⟨hsorted, hcollected⟩ := collected_agents buckets [] sorted_nil (by simp [layer_agents, lookup])
  have hmem := ((hcollected layer).2 agent_id).mpr (.inr h)
  unfold bucket_agents_per_layer
  generalize buckets.foldl _ [] = collected at hsorted hmem ⊢
  cases hlookup : lookup layer collected with
  | none => simp [layer_agents, hlookup] at hmem
  | some agents => exact ⟨_, List.mem_map.mpr ⟨(layer, agents), hsorted.lookup_eq_some_iff.mp hlookup, rfl⟩⟩

theorem bucket_agents_per_layer_ordered {buckets : Buckets α} {layer : Int} {agents : List String}
    (h : (layer, agents) ∈ bucket_agents_per_layer buckets) : agents.Pairwise (· ≤ ·) := by
  obtain ⟨⟨l, collected⟩, -, heq⟩ := List.mem_map.mp h
  obtain ⟨-, rfl⟩ := Prod.mk.inj heq
  exact List.pairwise_insertionSort (· ≤ ·) collected

/-- The batch that `compute_canary_split` gives the assignment of an agent in a layer. -/
abbrev batch_of (buckets : Buckets α) (canary : Option CanarySpec) (agent_id : String) (layer : Int) : Option Int :=
  (compute_canary_split (bucket_agents_per_layer buckets) canary).lookup (agent_id, layer)

private theorem lookup_indexed (agents : List String) (hnodup : agents.Nodup) (layer : Int) (f : Nat → Int)
    (start i : Nat) (a : String) (hi : agents[i]? = some a) :
    ((agents.zipIdx start).map fun entry => ((entry.1, layer), f entry.2)).lookup (a, layer) =
      some (f (start + i)) := by
  induction agents generalizing start i with
  | nil => simp at hi
  | cons head rest ih =>
    obtain ⟨hhead, hrest⟩ := List.nodup_cons.mp hnodup
    cases i with
    | zero =>
      have heq : head = a := by simpa using hi
      simp [heq]
    | succ i =>
      have hi' : rest[i]? = some a := by simpa using hi
      have hne : a ≠ head := by
        rintro rfl
        exact hhead (List.mem_of_getElem? hi')
      have hkey : ((a, layer) == (head, layer)) = false := by simpa using hne
      have hrest := ih hrest (start + 1) i hi'
      rw [List.zipIdx_cons, List.map_cons, List.lookup_cons, hkey]
      simpa only [Nat.add_assoc, Nat.add_comm 1 i] using hrest

private theorem mem_of_lookup {K : Type} [BEq K] [LawfulBEq K] {V : Type} {k : K} {v : V} {m : List (K × V)}
    (h : m.lookup k = some v) : (k, v) ∈ m := by
  obtain ⟨before, after, rfl, _⟩ := List.lookup_eq_some_iff.mp h
  simp

private theorem layer_of_mem_split {spec : CanarySpec} {layer : Int} {agents : List String}
    {e : (String × Int) × Int} (he : e ∈ split_layer spec layer agents) : e.1.2 = layer := by
  simp only [split_layer] at he
  split at he
  · cases he
  · obtain ⟨entry, _, rfl⟩ := List.mem_map.mp he
    rfl

private theorem lookup_split_of_ne {spec : CanarySpec} {layer l : Int} (hne : layer ≠ l) (agents : List String)
    (a : String) : (split_layer spec layer agents).lookup (a, l) = none := by
  cases h : (split_layer spec layer agents).lookup (a, l) with
  | none => rfl
  | some b => exact absurd (layer_of_mem_split (mem_of_lookup h)).symm hne

private theorem lookup_flat_map (spec : CanarySpec) (per_layer : List (Int × List String)) (hsorted : Sorted per_layer)
    {l : Int} {agents : List String} (hmem : (l, agents) ∈ per_layer) (a : String) :
    (per_layer.flatMap fun entry => split_layer spec entry.1 entry.2).lookup (a, l) =
      (split_layer spec l agents).lookup (a, l) := by
  induction per_layer with
  | nil => cases hmem
  | cons head rest ih =>
    obtain ⟨hhead, hrest⟩ := List.pairwise_cons.mp hsorted
    rw [List.flatMap_cons, List.lookup_append]
    obtain rfl | hmem := List.mem_cons.mp hmem
    · have hnone : (rest.flatMap fun entry => split_layer spec entry.1 entry.2).lookup (a, l) = none := by
        cases h : (rest.flatMap fun entry => split_layer spec entry.1 entry.2).lookup (a, l) with
        | none => rfl
        | some b =>
          obtain ⟨entry, hentry, he⟩ := List.mem_flatMap.mp (mem_of_lookup h)
          have hl : l = entry.1 := layer_of_mem_split he
          exact absurd (hl ▸ hhead entry hentry) (lt_irrefl _)
      simp [hnone]
    · have hne : head.1 ≠ l := fun h => absurd (h ▸ hhead _ hmem) (lt_irrefl _)
      rw [lookup_split_of_ne hne, Option.none_or, ih hrest hmem]

theorem canary_count_bounds (spec : CanarySpec) {n : Nat} (hn : 1 < n) :
    0 < canary_count spec n ∧ canary_count spec n < n := by
  simp only [canary_count]
  omega

/-- An assignment with a batch is in a layer that the canary option splits. -/
theorem split_of_batch {buckets : Buckets α} {canary : Option CanarySpec} {agent_id : String} {layer batch : Int}
    (h : batch_of buckets canary agent_id layer = some batch) :
    ∃ spec agents, canary = some spec ∧ (layer, agents) ∈ bucket_agents_per_layer buckets ∧
      1 < agents.length % 2 ^ 32 ∧ ((agent_id, layer), batch) ∈ split_layer spec layer agents := by
  cases canary with
  | none => simp [batch_of, compute_canary_split] at h
  | some spec =>
    obtain ⟨⟨l, agents⟩, hentry, he⟩ := List.mem_flatMap.mp (mem_of_lookup h)
    obtain rfl : layer = l := layer_of_mem_split he
    refine ⟨spec, agents, rfl, hentry, ?_, he⟩
    by_contra hsmall
    rw [split_layer, if_pos (not_lt.mp hsmall)] at he
    cases he

/-- The batch of each agent of a split layer. -/
theorem batch_of_split {buckets : Buckets α} {spec : CanarySpec} {layer : Int} {agents : List String}
    (hentry : (layer, agents) ∈ bucket_agents_per_layer buckets) (hlarge : 1 < agents.length % 2 ^ 32) {i : Nat}
    {agent_id : String} (hi : agents[i]? = some agent_id) :
    batch_of buckets (some spec) agent_id layer =
      some (if i < canary_count spec (agents.length % 2 ^ 32) then 0 else 1) := by
  obtain ⟨hsorted, hagents⟩ := bucket_agents_per_layer_spec buckets
  have hone := lookup_indexed agents (hagents layer agents hentry).1 layer
    (fun i => if i < canary_count spec (agents.length % 2 ^ 32) then 0 else 1) 0 i agent_id hi
  simp only [batch_of, compute_canary_split]
  rw [lookup_flat_map spec _ hsorted hentry, split_layer, if_neg (by omega)]
  simpa using hone

/-- A split layer has a canary and a baseline, and no third batch. -/
theorem batch_of_some {buckets : Buckets α} {canary : Option CanarySpec} {agent_id : String} {layer : Int}
    {batch : Int} (h : batch_of buckets canary agent_id layer = some batch) :
    (batch = 0 ∨ batch = 1) ∧
      (∃ a, Dispatches buckets a layer ∧ batch_of buckets canary a layer = some 0) ∧
      ∃ a, Dispatches buckets a layer ∧ batch_of buckets canary a layer = some 1 := by
  obtain ⟨spec, agents, rfl, hentry, hlarge, he⟩ := split_of_batch h
  obtain ⟨-, hdispatch⟩ := (bucket_agents_per_layer_spec buckets).2 layer agents hentry
  have hbounds := canary_count_bounds spec hlarge
  have hlength : agents.length % 2 ^ 32 ≤ agents.length := Nat.mod_le _ _
  have hindex (i : Nat) (hi : i < agents.length) : Dispatches buckets agents[i] layer :=
    (hdispatch _).mp (List.getElem_mem hi)
  refine ⟨?_, ⟨agents[0], hindex 0 (by omega), ?_⟩, ⟨agents[agents.length - 1], hindex _ (by omega), ?_⟩⟩
  · simp only [split_layer, if_neg (not_le.mpr hlarge)] at he
    obtain ⟨entry, _, heq⟩ := List.mem_map.mp he
    obtain rfl := (Prod.mk.inj heq).2
    split <;> simp
  · rw [batch_of_split hentry hlarge (List.getElem?_eq_getElem (by omega)), if_pos hbounds.1]
  · rw [batch_of_split hentry hlarge (List.getElem?_eq_getElem (by omega)), if_neg (by omega)]

end Split

variable {α β : Type}

/-- What the loops over the resources push: every routed resource with its
agent and layer, in order. -/
def routes (environment : String) (agents : List AgentEntry) (layered : List (ResourceForRouting × Int)) :
    List ((String × Int) × ResourceForRouting) :=
  layered.filterMap fun entry =>
    match route_resource entry.1 environment agents with
    | .ok agent_id => some ((agent_id, entry.2), entry.1)
    | .error _ => none

def push_all (buckets : Buckets α) (entries : List ((String × Int) × α)) : Buckets α :=
  entries.foldl (fun buckets entry => push_bucket buckets entry.1.1 entry.1.2 entry.2) buckets

/-- Pushing the images of the items gives the images of the buckets. -/
theorem push_all_map (f : α → β) (buckets : Buckets α) (entries : List ((String × Int) × α)) :
    push_all (buckets.map (Prod.map id (List.map f))) (entries.map (Prod.map id f)) =
      (push_all buckets entries).map (Prod.map id (List.map f)) := by
  induction entries generalizing buckets with
  | nil => rfl
  | cons entry entries ih =>
    have hpush : push_bucket (buckets.map (Prod.map id (List.map f))) entry.1.1 entry.1.2 (f entry.2) =
        (push_bucket buckets entry.1.1 entry.1.2 entry.2).map (Prod.map id (List.map f)) := by
      refine (map_upsert (fun items => ?_) buckets).symm
      cases items <;> simp
    simp only [push_all, List.map_cons, List.foldl_cons, Prod.map_fst, Prod.map_snd, id_eq] at ih ⊢
    rw [hpush]
    exact ih _

/-- What the entries put into the bucket of an agent and a layer. -/
def items_for (agent_id : String) (layer : Int) (entries : List ((String × Int) × α)) : List α :=
  (entries.filter fun entry => entry.1 = (agent_id, layer)).map Prod.snd

structure WellFormed (buckets : Buckets α) : Prop where
  sorted : Sorted buckets
  nonempty : ∀ bucket ∈ buckets, bucket.2 ≠ []

theorem WellFormed.nil : WellFormed ([] : Buckets α) := ⟨sorted_nil, by simp⟩

theorem WellFormed.push_bucket {buckets : Buckets α} (h : WellFormed buckets) (agent_id : String) (layer : Int)
    (item : α) : WellFormed (push_bucket buckets agent_id layer item) := by
  refine ⟨h.sorted.upsert, fun bucket hbucket => ?_⟩
  have hlookup := (h.sorted.upsert.lookup_eq_some_iff (k := bucket.1) (v := bucket.2)).mpr hbucket
  by_cases hkey : bucket.1 = toLex (agent_id, layer)
  · rw [hkey, lookup_upsert_self h.sorted] at hlookup
    rw [← Option.some.inj hlookup]
    simp
  · rw [lookup_upsert_of_ne hkey] at hlookup
    exact h.nonempty _ (h.sorted.lookup_eq_some_iff.mp hlookup)

private theorem lookup_push_all {buckets : Buckets α} (h : WellFormed buckets)
    (entries : List ((String × Int) × α)) (agent_id : String) (layer : Int) :
    WellFormed (push_all buckets entries) ∧
      (lookup (toLex (agent_id, layer)) (push_all buckets entries)).getD [] =
        (lookup (toLex (agent_id, layer)) buckets).getD [] ++ items_for agent_id layer entries := by
  induction entries generalizing buckets with
  | nil => exact ⟨h, by simp [push_all, items_for]⟩
  | cons entry entries ih =>
    obtain ⟨hwf, hlookup⟩ := ih (h.push_bucket entry.1.1 entry.1.2 entry.2)
    refine ⟨hwf, hlookup.trans ?_⟩
    by_cases hkey : entry.1 = (agent_id, layer)
    · rw [push_bucket, hkey, lookup_upsert_self h.sorted]
      simp [items_for, hkey]
    · have hne : toLex (agent_id, layer) ≠ toLex entry.1 := fun heq => hkey (toLex.injective heq).symm
      rw [push_bucket, lookup_upsert_of_ne hne]
      simp [items_for, hkey]

theorem push_all_well_formed {buckets : Buckets α} (h : WellFormed buckets) (entries : List ((String × Int) × α)) :
    WellFormed (push_all buckets entries) := by
  induction entries generalizing buckets with
  | nil => exact h
  | cons entry entries ih => exact ih (h.push_bucket _ _ _)

/-- The buckets of a list of routed items: each holds the items of its agent
and layer in the order of the list, and none is empty. -/
theorem mem_push_all (entries : List ((String × Int) × α)) (agent_id : String) (layer : Int) (items : List α) :
    (toLex (agent_id, layer), items) ∈ push_all [] entries ↔ items = items_for agent_id layer entries ∧ items ≠ [] := by
  obtain ⟨hwf, hitems⟩ := lookup_push_all WellFormed.nil entries agent_id layer
  rw [← hwf.sorted.lookup_eq_some_iff]
  have hempty : lookup (toLex (agent_id, layer)) ([] : Buckets α) = none := rfl
  rw [hempty, Option.getD_none, List.nil_append] at hitems
  rw [← hitems]
  cases hfound : lookup (toLex (agent_id, layer)) (push_all [] entries) with
  | none => simp
  | some found =>
    have hne := hwf.nonempty _ (hwf.sorted.lookup_eq_some_iff.mp hfound)
    simp only [Option.some.injEq, Option.getD_some]
    constructor
    · rintro rfl
      exact ⟨rfl, hne⟩
    · exact fun h => h.1.symm

theorem dispatches_push_all (entries : List ((String × Int) × α)) (agent_id : String) (layer : Int) :
    Dispatches (push_all [] entries) agent_id layer ↔ ∃ item, ((agent_id, layer), item) ∈ entries := by
  simp only [Dispatches, mem_push_all, exists_eq_left, items_for, ne_eq, List.map_eq_nil_iff,
    List.filter_eq_nil_iff, decide_eq_true_eq, not_forall, not_not]
  constructor
  · rintro ⟨⟨key, item⟩, hmem, rfl⟩
    exact ⟨item, hmem⟩
  · rintro ⟨item, hmem⟩
    exact ⟨_, hmem, rfl⟩

theorem mem_routes {environment : String} {agents : List AgentEntry} {layered : List (ResourceForRouting × Int)}
    {agent_id : String} {layer : Int} {r : ResourceForRouting} :
    ((agent_id, layer), r) ∈ routes environment agents layered ↔
      (r, layer) ∈ layered ∧ route_resource r environment agents = .ok agent_id := by
  simp only [routes, List.mem_filterMap]
  constructor
  · rintro ⟨⟨r', l⟩, hlayered, hroute⟩
    split at hroute
    · rename_i a hok
      obtain ⟨⟨rfl, rfl⟩, rfl⟩ : (a = agent_id ∧ l = layer) ∧ r' = r := by simpa using hroute
      exact ⟨hlayered, hok⟩
    · cases hroute
  · rintro ⟨hlayered, hroute⟩
    exact ⟨(r, layer), hlayered, by rw [hroute]⟩

/-- A resource is routed to one of the agents. -/
theorem mem_of_route_resource {r : ResourceForRouting} {environment agent_id : String} {agents : List AgentEntry}
    (h : route_resource r environment agents = .ok agent_id) : ∃ agent ∈ agents, agent.1 = agent_id := by
  rw [route_resource] at h
  cases hselector : r.host_selector with
  | some host =>
    rw [hselector] at h
    induction agents with
    | nil => cases h
    | cons agent agents ih =>
      simp only [route_by_name] at h
      split at h
      · exact ⟨agent, List.mem_cons_self, Except.ok.inj h⟩
      · obtain ⟨other, hother, hid⟩ := ih h
        exact ⟨other, List.mem_cons_of_mem _ hother, hid⟩
  | none =>
    simp only [hselector] at h
    split at h
    · cases h
    · next agent hagents =>
      have hmem : agent ∈ agents := List.mem_of_mem_filter (hagents ▸ List.mem_singleton_self agent)
      exact ⟨agent, hmem, Except.ok.inj h⟩
    · cases h

/-- An agent gets an assignment in a layer exactly when a resource of that layer is routed to it. -/
theorem dispatches_routes (environment : String) (agents : List AgentEntry)
    (layered : List (ResourceForRouting × Int)) (agent_id : String) (layer : Int) :
    Dispatches (push_all [] (routes environment agents layered)) agent_id layer ↔
      ∃ r, (r, layer) ∈ layered ∧ route_resource r environment agents = .ok agent_id := by
  simp only [dispatches_push_all, mem_routes]

end iac_controlplane.store
