import Iac.Controlplane.Store.Routing
import Mathlib.Algebra.Order.Floor.Div
import Mathlib.Data.Set.Card
import Mathlib.GroupTheory.GroupAction.Ring

open iac_core.protocol sorted_map

namespace iac_controlplane.store

variable {α β : Type}

/-- The agents with a group in the layer. -/
def agents_in (buckets : Buckets α) (layer : Int) : Set String :=
  {agent_id | Dispatches buckets agent_id layer}

/-- The agents of the layer in the given batch. -/
def agents_in_batch (buckets : Buckets α) (canary : Option CanarySpec) (layer batch : Int) : Set String :=
  {agent_id | batch_of buckets canary agent_id layer = some batch}

/-- The percentage as the code takes it. -/
def clamped_pct (spec : CanarySpec) : Nat := max 1 (min 99 spec.pct.toNat)

/-- How many of `n` agents get the canary batch: the percentage of them, rounded
up, but at least one and the minimum, and never all. -/
def canary_share (spec : CanarySpec) (n : Nat) : Nat :=
  min (n - 1) (max 1 (max (min (n * clamped_pct spec) (2 ^ 32 - 1) ⌈/⌉ 100) (spec.min_count.getD 1).toNat))

theorem canary_count_eq (spec : CanarySpec) (n : Nat) : canary_count spec n = canary_share spec n := by
  rw [canary_share, Nat.ceilDiv_eq_add_pred_div, canary_count, clamped_pct]
  omega

variable {buckets : Buckets α} {spec : CanarySpec} {agent_id : String} {layer : Int} {agents : List String}

/-- What the split says of an agent, by its place among the agents of the layer. -/
private theorem batch_of_entry (hentry : (layer, agents) ∈ bucket_agents_per_layer buckets) :
    batch_of buckets (some spec) agent_id layer =
      if agent_id ∈ agents ∧ 1 < agents.length % 2 ^ 32 then
        some (if agents.idxOf agent_id < canary_count spec (agents.length % 2 ^ 32) then 0 else 1)
      else none := by
  obtain ⟨hsorted, hagents⟩ := bucket_agents_per_layer_spec buckets
  split
  · next h => exact batch_of_split hentry h.2 (List.getElem?_idxOf h.1)
  · next h =>
    cases hbatch : batch_of buckets (some spec) agent_id layer with
    | none => rfl
    | some batch =>
      obtain ⟨spec', agents', -, hentry', hlarge, hmem⟩ := split_of_batch hbatch
      have heq : some agents' = some agents := by
        rw [← hsorted.lookup_eq_some_iff.mpr hentry', hsorted.lookup_eq_some_iff.mpr hentry]
      obtain rfl := Option.some.inj heq
      rw [split_layer, if_neg (by omega)] at hmem
      obtain ⟨⟨a, i⟩, he, hkey⟩ := List.mem_map.mp hmem
      obtain ⟨rfl, -⟩ : a = agent_id ∧ _ := by simpa using hkey
      exact absurd ⟨List.mem_of_getElem? (List.mk_mem_zipIdx_iff_getElem?.mp he), hlarge⟩ h

private theorem batch_of_unlisted (h : ∀ agents, (layer, agents) ∉ bucket_agents_per_layer buckets) :
    batch_of buckets (some spec) agent_id layer = none := by
  cases hbatch : batch_of buckets (some spec) agent_id layer with
  | none => rfl
  | some batch =>
    obtain ⟨-, agents, -, hentry, -⟩ := split_of_batch hbatch
    exact absurd hentry (h agents)

private theorem agents_in_eq (hentry : (layer, agents) ∈ bucket_agents_per_layer buckets) :
    agents_in buckets layer = ↑agents.toFinset := by
  ext a
  rw [List.coe_toFinset]
  exact (((bucket_agents_per_layer_spec buckets).2 layer agents hentry).2 a).symm

private theorem ncard_agents (hentry : (layer, agents) ∈ bucket_agents_per_layer buckets) :
    (agents_in buckets layer).ncard = agents.length := by
  rw [agents_in_eq hentry, Set.ncard_coe_finset, List.toFinset_card_of_nodup]
  exact ((bucket_agents_per_layer_spec buckets).2 layer agents hentry).1

/-- The canary batch holds the first agents of the layer, as many as are its share. -/
private theorem ncard_canary (hentry : (layer, agents) ∈ bucket_agents_per_layer buckets) (hlarge : 1 < agents.length)
    (hfits : agents.length < 2 ^ 32) :
    (agents_in_batch buckets (some spec) layer 0).ncard = canary_share spec agents.length := by
  have hnodup := ((bucket_agents_per_layer_spec buckets).2 layer agents hentry).1
  have hmod : agents.length % 2 ^ 32 = agents.length := Nat.mod_eq_of_lt hfits
  have hbounds := canary_count_bounds spec hlarge
  have hset : agents_in_batch buckets (some spec) layer 0 =
      ↑(agents.take (canary_count spec agents.length)).toFinset := by
    ext a
    rw [agents_in_batch, Set.mem_ofPred_eq, batch_of_entry hentry, hmod, List.coe_toFinset, Set.mem_ofPred_eq]
    by_cases ha : a ∈ agents
    · rw [if_pos ⟨ha, hlarge⟩, List.mem_take_iff_idxOf_lt ha]
      split <;> simp_all
    · rw [if_neg fun h => ha h.1]
      simp only [reduceCtorEq, false_iff]
      exact fun h => ha (List.mem_of_mem_take h)
  rw [hset, Set.ncard_coe_finset, List.toFinset_card_of_nodup (hnodup.sublist (List.take_sublist _ _)),
    List.length_take, ← canary_count_eq]
  omega

/-- Two maps with the same groups get the same split. -/
private theorem batch_of_congr {buckets' : Buckets β} (canary : Option CanarySpec)
    (hsame : ∀ a l, Dispatches buckets a l ↔ Dispatches buckets' a l) :
    batch_of buckets canary agent_id layer = batch_of buckets' canary agent_id layer := by
  cases canary with
  | none => rfl
  | some spec =>
    by_cases hsome : ∃ a, Dispatches buckets a layer
    · obtain ⟨a, ha⟩ := hsome
      obtain ⟨agents, hentry⟩ := bucket_agents_per_layer_covers ha
      obtain ⟨agents', hentry'⟩ := bucket_agents_per_layer_covers ((hsame a layer).mp ha)
      obtain ⟨hnodup, hmem⟩ := (bucket_agents_per_layer_spec buckets).2 layer agents hentry
      obtain ⟨hnodup', hmem'⟩ := (bucket_agents_per_layer_spec buckets').2 layer agents' hentry'
      have hperm : agents.Perm agents' := by
        rw [List.perm_ext_iff_of_nodup hnodup hnodup']
        intro a
        rw [hmem a, hmem' a, hsame a layer]
      have heq : agents = agents' :=
        hperm.eq_of_pairwise (fun a b _ _ hab hba => le_antisymm hab hba) (bucket_agents_per_layer_ordered hentry)
          (bucket_agents_per_layer_ordered hentry')
      subst heq
      rw [batch_of_entry hentry, batch_of_entry hentry']
    · have hnone : ∀ γ (m : Buckets γ), (∀ a, ¬ Dispatches m a layer) →
          batch_of m (some spec) agent_id layer = none := by
        intro γ m hm
        cases hbatch : batch_of m (some spec) agent_id layer with
        | none => rfl
        | some batch =>
          obtain ⟨-, ⟨a, ha, -⟩, -⟩ := batch_of_some hbatch
          exact absurd ha (hm a)
      rw [not_exists] at hsome
      rw [hnone α buckets hsome, hnone β buckets' fun a ha => hsome a ((hsame a layer).mpr ha)]

/-- In a layer of several agents the canary batch is their share, the others are
the baseline; a layer of at most one agent is not split. The order of the groups
has no effect. -/
theorem compute_canary_split_shares (buckets : Buckets α) (spec : CanarySpec) (layer : Int) :
    let n := (agents_in buckets layer).ncard
    (1 < n → n < 2 ^ 32 →
      (agents_in_batch buckets (some spec) layer 0).ncard = canary_share spec n ∧
      agents_in_batch buckets (some spec) layer 0 ∪ agents_in_batch buckets (some spec) layer 1 =
        agents_in buckets layer ∧
      (agents_in_batch buckets (some spec) layer 0).Nonempty ∧
      (agents_in_batch buckets (some spec) layer 1).Nonempty) ∧
    (n ≤ 1 → ∀ agent_id, batch_of buckets (some spec) agent_id layer = none) ∧
    (0 < spec.pct.toNat → spec.pct.toNat < 100 → n * spec.pct.toNat < 2 ^ 32 →
      canary_share spec n = min (n - 1) (max 1 (max ((n * spec.pct.toNat) ⌈/⌉ 100) (spec.min_count.getD 1).toNat))) ∧
    ∀ (canary : Option CanarySpec) (buckets' : Buckets β), (∀ a l, Dispatches buckets a l ↔ Dispatches buckets' a l) →
      ∀ agent_id l, batch_of buckets canary agent_id l = batch_of buckets' canary agent_id l := by
  intro n
  refine ⟨fun hlarge hfits => ?_, fun hsmall agent_id => ?_, fun hlow hhigh hproduct => ?_,
    fun canary buckets' hsame agent_id l => batch_of_congr canary hsame⟩
  · obtain ⟨a, ha⟩ : (agents_in buckets layer).Nonempty := by
      rw [← Set.ncard_pos (Set.finite_of_ncard_pos (Nat.zero_lt_of_lt hlarge))]
      exact Nat.zero_lt_of_lt hlarge
    obtain ⟨agents, hentry⟩ := bucket_agents_per_layer_covers ha
    have hn : n = agents.length := ncard_agents hentry
    rw [hn] at hlarge hfits ⊢
    have hmod : agents.length % 2 ^ 32 = agents.length := Nat.mod_eq_of_lt hfits
    have hbatch : batch_of buckets (some spec) _ layer = some _ :=
      batch_of_split hentry (hmod.symm ▸ hlarge) (List.getElem?_eq_getElem (by omega))
    obtain ⟨-, ⟨b, -, hb⟩, c, -, hc⟩ := batch_of_some hbatch
    refine ⟨ncard_canary hentry hlarge hfits, ?_, ⟨b, hb⟩, ⟨c, hc⟩⟩
    ext a
    rw [agents_in_eq hentry, List.coe_toFinset, Set.mem_union, agents_in_batch, agents_in_batch, Set.mem_ofPred_eq,
      Set.mem_ofPred_eq, Set.mem_ofPred_eq, batch_of_entry hentry, hmod]
    by_cases ha : a ∈ agents
    · rw [if_pos ⟨ha, hlarge⟩]
      split <;> simp [ha]
    · rw [if_neg fun h => ha h.1]
      simp [ha]
  · by_cases hsome : ∃ agents, (layer, agents) ∈ bucket_agents_per_layer buckets
    · obtain ⟨agents, hentry⟩ := hsome
      have hn : n = agents.length := ncard_agents hentry
      have hmod : agents.length % 2 ^ 32 ≤ agents.length := Nat.mod_le _ _
      rw [batch_of_entry hentry, if_neg]
      omega
    · exact batch_of_unlisted (not_exists.mp hsome)
  · have hclamped : clamped_pct spec = spec.pct.toNat := by
      rw [clamped_pct]
      omega
    have hproduct' : min (n * spec.pct.toNat) (2 ^ 32 - 1) = n * spec.pct.toNat := by omega
    rw [canary_share, hclamped, hproduct']

/-- A group for each of the first agents, all in one layer. -/
def crowd (n : Nat) : Buckets Unit :=
  (List.range n).map fun i => (toLex (String.ofList [Char.ofNat (i / 10 + 48), Char.ofNat (i % 10 + 48)], 0), [()])

private theorem mem_agents_in_crowd {n : Nat} {a : String} :
    a ∈ agents_in (crowd n) 0 ↔ ∃ i < n, String.ofList [Char.ofNat (i / 10 + 48), Char.ofNat (i % 10 + 48)] = a := by
  simp only [agents_in, Dispatches, crowd, Set.mem_ofPred_eq, List.mem_map, List.mem_range]
  constructor
  · rintro ⟨items, i, hi, heq⟩
    exact ⟨i, hi, congrArg (fun entry => (ofLex entry.1).1) heq⟩
  · rintro ⟨i, hi, rfl⟩
    exact ⟨_, i, hi, rfl⟩

private theorem crowd_name_injective {i j : Nat} (hi : i < 160) (hj : j < 160)
    (h : String.ofList [Char.ofNat (i / 10 + 48), Char.ofNat (i % 10 + 48)] =
      String.ofList [Char.ofNat (j / 10 + 48), Char.ofNat (j % 10 + 48)]) : i = j := by
  have hval : ∀ c : Fin 64, (Char.ofNat c).toNat = c := by decide
  have hlist := String.ofList_injective h
  simp only [List.cons.injEq, and_true] at hlist
  have htens := congrArg Char.toNat hlist.1
  have hones := congrArg Char.toNat hlist.2
  rw [hval ⟨i / 10 + 48, by omega⟩, hval ⟨j / 10 + 48, by omega⟩] at htens
  rw [hval ⟨i % 10 + 48, by omega⟩, hval ⟨j % 10 + 48, by omega⟩] at hones
  simp only at htens hones
  omega

/-- Each group of a crowd has its own agent. -/
private theorem ncard_agents_in_crowd {n : Nat} (hn : n ≤ 160) : (agents_in (crowd n) 0).ncard = n := by
  have himage : agents_in (crowd n) 0 =
      (fun i => String.ofList [Char.ofNat (i / 10 + 48), Char.ofNat (i % 10 + 48)]) '' ↑(Finset.range n) := by
    ext a
    simp [mem_agents_in_crowd]
  rw [himage, Set.InjOn.ncard_image, Set.ncard_coe_finset, Finset.card_range]
  intro i hi j hj h
  rw [Finset.mem_coe, Finset.mem_range] at hi hj
  exact crowd_name_injective (by omega) (by omega) h

private theorem crowd_listed {n : Nat} (hpos : 0 < n) (hn : n ≤ 160) :
    ∃ agents, (0, agents) ∈ bucket_agents_per_layer (crowd n) ∧ agents.length = n := by
  have hfirst : String.ofList [Char.ofNat (0 / 10 + 48), Char.ofNat (0 % 10 + 48)] ∈ agents_in (crowd n) 0 :=
    mem_agents_in_crowd.mpr ⟨0, hpos, rfl⟩
  obtain ⟨agents, hentry⟩ := bucket_agents_per_layer_covers hfirst
  exact ⟨agents, hentry, (ncard_agents hentry).symm.trans (ncard_agents_in_crowd hn)⟩

theorem half_of_three : (agents_in_batch (crowd 3) (some ⟨50, none⟩) 0 0).ncard = 2 ∧
    (agents_in_batch (crowd 3) (some ⟨50, none⟩) 0 1).Nonempty := by
  obtain ⟨hsplit, -⟩ := compute_canary_split_shares (β := Unit) (crowd 3) ⟨50, none⟩ 0
  rw [ncard_agents_in_crowd (by decide)] at hsplit
  obtain ⟨hcount, -, -, hbaseline⟩ := hsplit (by decide) (by decide)
  exact ⟨hcount.trans (by decide), hbaseline⟩

/-- A percentage of zero is taken as one: two of a hundred and one agents are the canary. -/
theorem zero_pct_is_one_pct : ¬ ∀ (buckets : Buckets Unit) (spec : CanarySpec) (layer : Int),
    let n := (agents_in buckets layer).ncard
    1 < n → (agents_in_batch buckets (some spec) layer 0).ncard =
      min (n - 1) (max 1 (max ((n * spec.pct.toNat) ⌈/⌉ 100) (spec.min_count.getD 1).toNat)) := by
  intro h
  obtain ⟨agents, hentry, hlength⟩ := crowd_listed (by decide : 0 < 101) (by decide)
  have hcount := h (crowd 101) ⟨0, none⟩ 0
  rw [ncard_agents_in_crowd (by decide)] at hcount
  have htwo : (agents_in_batch (crowd 101) (some ⟨0, none⟩) 0 0).ncard = _ :=
    ncard_canary hentry (by omega) (by omega)
  rw [hlength, hcount (by decide)] at htwo
  exact absurd htwo (by decide)

end iac_controlplane.store
