import Mathlib.Data.List.Chain
import Mathlib.Data.List.Infix
import Mathlib.Data.List.Nodup
import Mathlib.Data.List.Pairwise
import Mathlib.Logic.Relation
import Mathlib.Order.Bounds.Defs
import Mathlib.Order.WellFoundedSet

namespace kahn

section Waves

variable {α : Type} [DecidableEq α] (needs : α → α → Prop) [DecidableRel needs] (nodes : List α)

/-- The nodes that need no other, in their order. -/
def roots : List α :=
  nodes.filter fun i => ∀ d ∈ nodes, ¬ needs i d

/-- The nodes whose last need is `x` when those in `done` are met, in their order. -/
def freed (done : List α) (x : α) : List α :=
  nodes.filter fun i => needs i x ∧ ∀ d ∈ nodes, needs i d → d ∈ done ∨ d = x

/-- What `rest` frees node after node, after `done`. -/
def waves : List α → List α → List α
  | _, [] => []
  | done, x :: rest => freed needs nodes done x ++ waves (done ++ [x]) rest

/-- Everything that has been queued when `done` has been taken off the queue. -/
def reached (done : List α) : List α :=
  roots needs nodes ++ waves needs nodes [] done

/-- The sweeps of the graph from its roots: the node at the front of the queue is
done, and the nodes it frees go to the back. -/
inductive Sweeps : List α → List α → Prop where
  | start : Sweeps [] (roots needs nodes)
  | pop {done queue : List α} {x : α} (hsweeps : Sweeps done (x :: queue)) :
      Sweeps (done ++ [x]) (queue ++ freed needs nodes done x)

/-- No node of the graph is reached again from itself. -/
def Acyclic : Prop :=
  ∀ i, ¬ Relation.TransGen (fun i d => i ∈ nodes ∧ d ∈ nodes ∧ needs i d) i i

variable {needs nodes} {done queue order : List α} {i x : α}

omit [DecidableEq α] in
theorem mem_roots : i ∈ roots needs nodes ↔ i ∈ nodes ∧ ∀ d ∈ nodes, ¬ needs i d := by
  simp [roots]

theorem mem_freed : i ∈ freed needs nodes done x ↔
    i ∈ nodes ∧ needs i x ∧ ∀ d ∈ nodes, needs i d → d ∈ done ∨ d = x := by
  simp [freed]

theorem waves_append {rest rest' : List α} :
    waves needs nodes done (rest ++ rest') = waves needs nodes done rest ++ waves needs nodes (done ++ rest) rest' := by
  induction rest generalizing done with
  | nil => simp [waves]
  | cons x rest ih => simp [waves, ih, List.append_assoc]

theorem reached_append {rest : List α} :
    reached needs nodes (done ++ rest) = reached needs nodes done ++ waves needs nodes done rest := by
  rw [reached, reached, waves_append, List.nil_append, List.append_assoc]

theorem reached_concat : reached needs nodes (done ++ [x]) = reached needs nodes done ++ freed needs nodes done x := by
  rw [reached_append, waves, waves, List.append_nil]

theorem needs_of_mem_waves {rest : List α} (h : i ∈ waves needs nodes done rest) : ∃ y ∈ rest, needs i y := by
  induction rest generalizing done with
  | nil => cases h
  | cons x rest ih =>
    cases List.mem_append.mp h with
    | inl hfreed => exact ⟨x, List.mem_cons_self, (mem_freed.mp hfreed).2.1⟩
    | inr hrest =>
      obtain ⟨y, hy, hneeds⟩ := ih hrest
      exact ⟨y, List.mem_cons_of_mem x hy, hneeds⟩

/-- Exactly the nodes whose needs are all met have been queued. -/
theorem mem_reached : i ∈ reached needs nodes done ↔ i ∈ nodes ∧ ∀ d ∈ nodes, needs i d → d ∈ done := by
  induction done using List.reverseRecOn with
  | nil => simp [reached, waves, mem_roots]
  | append_singleton done x ih =>
    rw [reached_concat, List.mem_append, ih, mem_freed]
    simp only [List.mem_append, List.mem_singleton]
    constructor
    · rintro (⟨hi, hmet⟩ | ⟨hi, -, hmet⟩)
      · exact ⟨hi, fun d hd hneeds => .inl (hmet d hd hneeds)⟩
      · exact ⟨hi, hmet⟩
    · rintro ⟨hi, hmet⟩
      by_cases hold : ∀ d ∈ nodes, needs i d → d ∈ done
      · exact .inl ⟨hi, hold⟩
      · push Not at hold
        obtain ⟨d, hd, hneeds, hnot⟩ := hold
        obtain rfl := (hmet d hd hneeds).resolve_left hnot
        exact .inr ⟨hi, hneeds, hmet⟩

theorem nodup_reached (hnodes : nodes.Nodup) (hdone : done.Nodup) (hsub : done ⊆ nodes) :
    (reached needs nodes done).Nodup := by
  induction done using List.reverseRecOn with
  | nil =>
    rw [reached, waves, List.append_nil]
    exact hnodes.filter _
  | append_singleton done x ih =>
    rw [List.nodup_append] at hdone
    obtain ⟨hdone, -, hdisjoint⟩ := hdone
    have hx : x ∈ nodes := hsub (List.mem_append_right done List.mem_cons_self)
    rw [reached_concat, List.nodup_append]
    refine ⟨ih hdone (fun d hd => hsub (List.mem_append_left [x] hd)), hnodes.filter _, ?_⟩
    rintro i hreached j hfreed rfl
    have hmet := (mem_reached.mp hreached).2 x hx (mem_freed.mp hfreed).2.1
    exact hdisjoint x hmet x List.mem_cons_self rfl

theorem Sweeps.eq_reached (h : Sweeps needs nodes done queue) : done ++ queue = reached needs nodes done := by
  induction h with
  | start => simp [reached, waves]
  | @pop done queue x hsweeps ih => rw [reached_concat, ← ih, List.append_assoc, List.append_assoc]; rfl

theorem Sweeps.subset (h : Sweeps needs nodes done queue) : done ++ queue ⊆ nodes := by
  rw [h.eq_reached]
  intro i hi
  exact (mem_reached.mp hi).1

theorem Sweeps.nodup (hnodes : nodes.Nodup) (h : Sweeps needs nodes done queue) : (done ++ queue).Nodup := by
  have hdone : done.Nodup ∧ done ⊆ nodes := by
    induction h with
    | start => exact ⟨List.nodup_nil, List.nil_subset nodes⟩
    | @pop done queue x hsweeps ih =>
      have hall : (done ++ x :: queue).Nodup := by
        rw [hsweeps.eq_reached]
        exact nodup_reached hnodes ih.1 ih.2
      have hpart : (done ++ [x]).Sublist (done ++ x :: queue) :=
        (List.Sublist.refl done).append (List.singleton_sublist.mpr List.mem_cons_self)
      exact ⟨hall.sublist hpart, fun d hd => hsweeps.subset (hpart.subset hd)⟩
  rw [h.eq_reached]
  exact nodup_reached hnodes hdone.1 hdone.2

theorem Sweeps.length_le (hnodes : nodes.Nodup) (h : Sweeps needs nodes done queue) :
    done.length + queue.length ≤ nodes.length := by
  rw [← List.length_append]
  exact ((h.nodup hnodes).subperm h.subset).length_le

/-- A node is done only after everything it needs. -/
theorem Sweeps.met (h : Sweeps needs nodes done queue) {before after : List α} (hsplit : done = before ++ x :: after) :
    ∀ d ∈ nodes, needs x d → d ∈ before := by
  induction h generalizing after with
  | start => simp at hsplit
  | @pop done queue y hsweeps ih =>
    cases after using List.reverseRecOn with
    | nil =>
      obtain ⟨rfl, hlast⟩ := List.append_inj' hsplit rfl
      obtain rfl := List.singleton_inj.mp hlast
      have hqueued : y ∈ reached needs nodes done := by
        rw [← hsweeps.eq_reached]
        exact List.mem_append_right done List.mem_cons_self
      exact (mem_reached.mp hqueued).2
    | append_singleton after z =>
      have hsplit' : done ++ [y] = (before ++ x :: after) ++ [z] := by simpa using hsplit
      exact ih (List.append_inj' hsplit' rfl).1

/-- A sweep has no choice. -/
theorem Sweeps.unique (h : Sweeps needs nodes done queue) {done' queue' : List α} (h' : Sweeps needs nodes done' queue')
    (hlength : done.length = done'.length) : done = done' ∧ queue = queue' := by
  induction h generalizing done' queue' with
  | start =>
    cases h' with
    | start => exact ⟨rfl, rfl⟩
    | pop => simp at hlength
  | @pop done queue x hsweeps ih =>
    cases h' with
    | start => simp at hlength
    | @pop done' queue' y hsweeps' =>
      obtain ⟨rfl, hqueue⟩ := ih hsweeps' (by simpa using hlength)
      obtain ⟨rfl, rfl⟩ := List.cons_eq_cons.mp hqueue
      exact ⟨rfl, rfl⟩

theorem Sweeps.mem_iff (h : Sweeps needs nodes order []) :
    i ∈ order ↔ i ∈ nodes ∧ ∀ d ∈ nodes, needs i d → d ∈ order := by
  have heq := h.eq_reached
  rw [List.append_nil] at heq
  rw [← mem_reached, ← heq]

theorem Sweeps.roots_prefix (h : Sweeps needs nodes order []) : roots needs nodes <+: order := by
  have heq := h.eq_reached
  rw [List.append_nil, reached] at heq
  rw [heq]
  exact List.prefix_append _ _

omit [DecidableEq α] [DecidableRel needs] in
/-- A graph whose edges lead down in some rank has no cycle. -/
theorem acyclic_of_rank {rank : α → Nat} (h : ∀ i ∈ nodes, ∀ d ∈ nodes, needs i d → rank d < rank i) :
    Acyclic needs nodes := by
  intro i hcycle
  have hlt : ∀ d, Relation.TransGen (fun i d => i ∈ nodes ∧ d ∈ nodes ∧ needs i d) i d → rank d < rank i := by
    intro d hpath
    induction hpath with
    | single hedge => exact h _ hedge.1 _ hedge.2.1 hedge.2.2
    | tail hpath hedge ih => exact Nat.lt_trans (h _ hedge.1 _ hedge.2.1 hedge.2.2) ih
  exact Nat.lt_irrefl _ (hlt i hcycle)

omit [DecidableEq α] [DecidableRel needs] in
theorem Acyclic.perm {nodes' : List α} (h : Acyclic needs nodes) (hperm : nodes'.Perm nodes) : Acyclic needs nodes' := by
  intro i hcycle
  refine h i (Relation.TransGen.mono ?_ i i hcycle)
  rintro i d ⟨hi, hd, hneeds⟩
  exact ⟨hperm.mem_iff.mp hi, hperm.mem_iff.mp hd, hneeds⟩

/-- A sweep that ends having done every node shows that the graph has no cycle. -/
theorem Sweeps.acyclic (h : Sweeps needs nodes order []) (hnodes : nodes.Nodup) (hall : nodes ⊆ order) :
    Acyclic needs nodes := by
  have hnodup : order.Nodup := by
    have hnodup := h.nodup hnodes
    rwa [List.append_nil] at hnodup
  refine @acyclic_of_rank _ _ _ order.idxOf ?_
  intro i hi d hd hneeds
  obtain ⟨before, after, hsplit⟩ := List.append_of_mem (hall hi)
  have hmet := h.met hsplit d hd hneeds
  have hi' : i ∉ before := by
    rw [hsplit, List.nodup_append] at hnodup
    exact fun hmem => hnodup.2.2 i hmem i List.mem_cons_self rfl
  rw [hsplit, List.idxOf_append_of_mem hmet, List.idxOf_append_of_notMem hi']
  have hlt := List.idxOf_lt_length_iff.mpr hmet
  omega

/-- In a graph without cycles a sweep does every node: among the nodes left one
would need none of the others. -/
theorem Sweeps.complete (h : Sweeps needs nodes order []) (hacyclic : Acyclic needs nodes) : nodes ⊆ order := by
  let R : α → α → Prop := fun d i => Relation.TransGen (fun i d => i ∈ nodes ∧ d ∈ nodes ∧ needs i d) i d
  have horder : IsStrictOrder α R :=
    { irrefl := hacyclic
      trans := fun a b c hab hbc => hbc.trans hab }
  have hwf : Set.WellFoundedOn {i | i ∈ nodes} R := (List.finite_toSet nodes).wellFoundedOn
  intro i hi
  refine hwf.induction (P := fun i => i ∈ order) hi ?_
  intro i hi ih
  rw [h.mem_iff]
  exact ⟨hi, fun d hd hneeds => ih d hd (.single ⟨hi, hd, hneeds⟩)⟩

theorem Sweeps.perm (h : Sweeps needs nodes order []) (hnodes : nodes.Nodup) (hall : nodes ⊆ order) :
    order.Perm nodes := by
  have hnodup := h.nodup hnodes
  have hsub := h.subset
  rw [List.append_nil] at hnodup hsub
  rw [List.perm_ext_iff_of_nodup hnodup hnodes]
  exact fun i => ⟨fun hi => hsub hi, fun hi => hall hi⟩

theorem Sweeps.all_of_length (h : Sweeps needs nodes order []) (hnodes : nodes.Nodup)
    (hlength : order.length = nodes.length) : nodes ⊆ order := by
  have hnodup := h.nodup hnodes
  have hsub := h.subset
  rw [List.append_nil] at hnodup hsub
  exact ((hnodup.subperm hsub).perm_of_length_le (Nat.le_of_eq hlength.symm)).symm.subset

end Waves

section Again

variable {α : Type} [DecidableEq α] {needs : α → α → Prop} [DecidableRel needs] {nodes order : List α}
  (h : Sweeps needs nodes order []) (hperm : order.Perm nodes)
include h hperm

private theorem roots_again : roots needs order = roots needs nodes := by
  have heq := h.eq_reached
  rw [List.append_nil, reached] at heq
  have hrest : (waves needs nodes [] order).filter (fun i => ∀ d ∈ nodes, ¬ needs i d) = [] := by
    rw [List.filter_eq_nil_iff]
    intro i hi
    obtain ⟨y, hy, hneeds⟩ := needs_of_mem_waves hi
    have hnot : ¬ ∀ d ∈ nodes, ¬ needs i d := fun hroot => hroot y (hperm.mem_iff.mp hy) hneeds
    simpa using hnot
  calc roots needs order = order.filter (fun i => ∀ d ∈ nodes, ¬ needs i d) := by simp [roots, hperm.mem_iff]
    _ = (roots needs nodes ++ waves needs nodes [] order).filter (fun i => ∀ d ∈ nodes, ¬ needs i d) := by rw [← heq]
    _ = roots needs nodes := by rw [List.filter_append, hrest, List.append_nil, roots, List.filter_filter]; simp

private theorem freed_again (hnodup : order.Nodup) {before after : List α} {x : α} (hsplit : order = before ++ x :: after) :
    freed needs order before x = freed needs nodes before x := by
  have hmem : ∀ i ∈ order, i ∈ nodes := fun i hi => hperm.mem_iff.mp hi
  have hx : x ∈ nodes := hmem x (by simp [hsplit])
  have hdisjoint := hnodup
  rw [hsplit, List.nodup_append, List.nodup_cons] at hdisjoint
  obtain ⟨-, ⟨hafter, -⟩, hbefore⟩ := hdisjoint
  let p : α → Bool := fun i => decide (needs i x ∧ ∀ d ∈ nodes, needs i d → d ∈ before ∨ d = x)
  have hfirst : (reached needs nodes before).filter p = [] := by
    rw [List.filter_eq_nil_iff]
    intro i hi hp
    have hmet := (mem_reached.mp hi).2 x hx (of_decide_eq_true hp).1
    exact hbefore x hmet x List.mem_cons_self rfl
  have hlast : (waves needs nodes (before ++ [x]) after).filter p = [] := by
    rw [List.filter_eq_nil_iff]
    intro i hi hp
    obtain ⟨y, hy, hneeds⟩ := needs_of_mem_waves hi
    have hy' : y ∈ order := by simp [hsplit, hy]
    cases (of_decide_eq_true hp).2 y (hmem y hy') hneeds with
    | inl hmet => exact hbefore y hmet y (List.mem_cons_of_mem x hy) rfl
    | inr heq => exact hafter (heq ▸ hy)
  have heq := h.eq_reached
  rw [List.append_nil] at heq
  calc freed needs order before x = order.filter p := by simp [freed, p, hperm.mem_iff]
    _ = (reached needs nodes (before ++ x :: after)).filter p := by rw [← hsplit, ← heq]
    _ = (freed needs nodes before x).filter p := by
      rw [reached_append, waves, List.filter_append, List.filter_append, hfirst, hlast, List.nil_append, List.append_nil]
    _ = freed needs nodes before x := by simp [freed, p, List.filter_filter]

private theorem reached_again (hnodup : order.Nodup) {done : List α} (hfirst : done <+: order) :
    reached needs order done = reached needs nodes done := by
  induction done using List.reverseRecOn with
  | nil => simp [reached, waves, roots_again h hperm]
  | append_singleton done x ih =>
    obtain ⟨after, hsplit⟩ := hfirst
    have hsplit' : order = done ++ x :: after := by simp [← hsplit]
    rw [reached_concat, reached_concat, ih ⟨x :: after, hsplit'.symm⟩, freed_again h hperm hnodup hsplit']

/-- The order of a complete sweep is swept in that order. -/
theorem Sweeps.again (hnodes : nodes.Nodup) : Sweeps needs order order [] := by
  have hnodup : order.Nodup := hperm.nodup_iff.mpr hnodes
  have hprefixes : ∀ done after, order = done ++ after → ∃ queue, Sweeps needs order done queue ∧ queue <+: after := by
    intro done
    induction done using List.reverseRecOn with
    | nil =>
      rintro after rfl
      refine ⟨_, .start, ?_⟩
      rw [roots_again h hperm]
      exact h.roots_prefix
    | append_singleton done x ih =>
      intro after hsplit
      have hsplit' : order = done ++ x :: after := by simp [hsplit]
      obtain ⟨queue, hsweeps, hqueue⟩ := ih _ hsplit'
      -- everything that `x` needs is done, so that it has been queued
      have hx : x ∈ done ++ queue := by
        rw [hsweeps.eq_reached, mem_reached]
        exact ⟨by simp [hsplit], fun d hd hneeds => h.met hsplit' d (hperm.mem_iff.mp hd) hneeds⟩
      have hnot : x ∉ done := by
        rw [hsplit', List.nodup_append] at hnodup
        exact fun hmem => hnodup.2.2 x hmem x List.mem_cons_self rfl
      cases queue with
      | nil => exact absurd (by simpa using hx) hnot
      | cons y queue =>
        obtain ⟨rfl, -⟩ := List.cons_prefix_cons.mp hqueue
        refine ⟨_, hsweeps.pop, ?_⟩
        have heq := hsweeps.pop.eq_reached
        have hwhole := h.eq_reached
        rw [reached_again h hperm hnodup ⟨after, hsplit.symm⟩] at heq
        rw [List.append_nil] at hwhole
        have hparts : order = (done ++ [y]) ++ (queue ++ freed needs order done y) ++ waves needs nodes (done ++ [y]) after := by
          rw [heq, ← reached_append, ← hsplit]
          exact hwhole
        rw [List.append_assoc] at hparts
        exact ⟨_, (List.append_cancel_left (hsplit.symm.trans hparts)).symm⟩
  obtain ⟨queue, hsweeps, hqueue⟩ := hprefixes order [] (List.append_nil order).symm
  rwa [List.prefix_nil.mp hqueue] at hsweeps

end Again

section Layers

variable {α : Type} {needs : α → α → Prop} {nodes : List α} {layer : α → Nat}

/-- There is a path of `length` edges that leads from `i` back along its needs. -/
def PathTo (needs : α → α → Prop) (nodes : List α) (i : α) (length : Nat) : Prop :=
  ∃ path : List α, path.length = length ∧ (i :: path).IsChain needs ∧ path ⊆ nodes

/-- Each node is above everything it needs and, if not at the bottom, just above one of them. -/
structure Layering (needs : α → α → Prop) (nodes : List α) (layer : α → Nat) : Prop where
  above : ∀ i ∈ nodes, ∀ d ∈ nodes, needs i d → layer d < layer i
  tight : ∀ i ∈ nodes, layer i ≠ 0 → ∃ d ∈ nodes, needs i d ∧ layer i = layer d + 1

/-- A node that none of the others needs is put above those it needs. -/
theorem Layering.concat [DecidableEq α] (h : Layering needs nodes layer) {x : α} {l : Nat} (hnot : x ∉ nodes)
    (hlast : ∀ i ∈ nodes, ¬ needs i x) (hself : ¬ needs x x) (habove : ∀ d ∈ nodes, needs x d → layer d < l)
    (htight : l ≠ 0 → ∃ d ∈ nodes, needs x d ∧ l = layer d + 1) :
    Layering needs (nodes ++ [x]) (Function.update layer x l) := by
  have hold : ∀ i ∈ nodes, Function.update layer x l i = layer i := by
    intro i hi
    have hne : i ≠ x := fun heq => hnot (heq ▸ hi)
    exact Function.update_of_ne hne l layer
  constructor
  · intro i hi d hd hneeds
    rcases List.mem_append.mp hi with hi | hi <;> rcases List.mem_append.mp hd with hd | hd
    · rw [hold i hi, hold d hd]
      exact h.above i hi d hd hneeds
    · rw [List.mem_singleton.mp hd] at hneeds
      exact absurd hneeds (hlast i hi)
    · rw [List.mem_singleton.mp hi] at hneeds ⊢
      rw [hold d hd, Function.update_self]
      exact habove d hd hneeds
    · rw [List.mem_singleton.mp hi, List.mem_singleton.mp hd] at hneeds
      exact absurd hneeds hself
  · intro i hi hne
    obtain hi | hi := List.mem_append.mp hi
    · rw [hold i hi] at hne ⊢
      obtain ⟨d, hd, hneeds, heq⟩ := h.tight i hi hne
      exact ⟨d, List.mem_append_left [x] hd, hneeds, by rw [hold d hd, heq]⟩
    · rw [List.mem_singleton.mp hi, Function.update_self] at hne ⊢
      obtain ⟨d, hd, hneeds, heq⟩ := htight hne
      exact ⟨d, List.mem_append_left [x] hd, hneeds, by rw [hold d hd, heq]⟩

variable (h : Layering needs nodes layer)
include h

theorem Layering.eq_zero_iff {i : α} (hi : i ∈ nodes) : layer i = 0 ↔ ∀ d ∈ nodes, ¬ needs i d := by
  constructor
  · intro hzero d hd hneeds
    have hlt := h.above i hi d hd hneeds
    omega
  · intro hroot
    by_contra hne
    obtain ⟨d, hd, hneeds, -⟩ := h.tight i hi hne
    exact hroot d hd hneeds

private theorem Layering.length_le {path : List α} {i : α} (hi : i ∈ nodes) (hchain : (i :: path).IsChain needs)
    (hpath : path ⊆ nodes) : path.length ≤ layer i := by
  induction path generalizing i with
  | nil => exact Nat.zero_le _
  | cons d path ih =>
    rw [List.isChain_cons_cons] at hchain
    have hd : d ∈ nodes := hpath List.mem_cons_self
    have hlt := h.above i hi d hd hchain.1
    have hle := ih hd hchain.2 (fun j hj => hpath (List.mem_cons_of_mem d hj))
    rw [List.length_cons]
    omega

private theorem Layering.path_to {i : α} (hi : i ∈ nodes) : PathTo needs nodes i (layer i) := by
  induction hlayer : layer i generalizing i with
  | zero => exact ⟨[], rfl, List.isChain_singleton i, List.nil_subset nodes⟩
  | succ k ih =>
    obtain ⟨d, hd, hneeds, hnext⟩ := h.tight i hi (by omega)
    obtain ⟨path, hlength, hchain, hpath⟩ := ih hd (by omega)
    exact ⟨d :: path, by simp [hlength], List.isChain_cons_cons.mpr ⟨hneeds, hchain⟩, List.cons_subset.mpr ⟨hd, hpath⟩⟩

/-- The layer of a node is the length of the longest path that ends in it. -/
theorem Layering.isGreatest {i : α} (hi : i ∈ nodes) : IsGreatest {k | PathTo needs nodes i k} (layer i) := by
  refine ⟨h.path_to hi, ?_⟩
  rintro k ⟨path, rfl, hchain, hpath⟩
  exact h.length_le hi hchain hpath

/-- The order in which the nodes are given has no part in their layers. -/
theorem Layering.eq_of_perm {others : List α} {layer' : α → Nat} (h' : Layering needs others layer')
    (hperm : nodes.Perm others) {i : α} (hi : i ∈ nodes) : layer i = layer' i := by
  refine (h.isGreatest hi).unique ?_
  have hpaths : {k | PathTo needs nodes i k} = {k | PathTo needs others i k} := by
    refine Set.ext fun k => exists_congr fun path => and_congr Iff.rfl (and_congr Iff.rfl ?_)
    exact ⟨fun hsub => List.Subset.trans hsub hperm.subset, fun hsub => List.Subset.trans hsub hperm.symm.subset⟩
  rw [hpaths]
  exact h'.isGreatest (hperm.mem_iff.mp hi)

/-- Every layer below a used one is used. -/
theorem Layering.no_gap {i : α} (hi : i ∈ nodes) {k : Nat} (hk : k ≤ layer i) : ∃ j ∈ nodes, layer j = k := by
  induction hlayer : layer i generalizing i with
  | zero => exact ⟨i, hi, by omega⟩
  | succ l ih =>
    by_cases heq : k = l + 1
    · exact ⟨i, hi, by omega⟩
    · obtain ⟨d, hd, -, hnext⟩ := h.tight i hi (by omega)
      exact ih hd (by omega) (by omega)

theorem Layering.lt_length {i : α} (hi : i ∈ nodes) : layer i < nodes.length := by
  have hsub : List.range (layer i + 1) ⊆ nodes.map layer := by
    intro k hk
    obtain ⟨j, hj, rfl⟩ := h.no_gap hi (Nat.le_of_lt_succ (List.mem_range.mp hk))
    exact List.mem_map_of_mem hj
  have hle := (List.nodup_range.subperm hsub).length_le
  rw [List.length_range, List.length_map] at hle
  exact hle

variable [DecidableEq α] [DecidableRel needs] {done queue : List α}

private theorem Layering.reached_sorted (hsub : done ⊆ nodes) (hsorted : done.Pairwise (layer · ≤ layer ·)) :
    (reached needs nodes done).Pairwise (layer · ≤ layer ·) := by
  induction done using List.reverseRecOn with
  | nil =>
    rw [reached, waves, List.append_nil]
    apply List.pairwise_of_forall_mem_list
    intro i hi j hj
    rw [(h.eq_zero_iff (mem_roots.mp hi).1).mpr (mem_roots.mp hi).2]
    exact Nat.zero_le _
  | append_singleton done x ih =>
    have hx : x ∈ nodes := hsub (List.mem_append_right done List.mem_cons_self)
    obtain ⟨hdone, -, hlast⟩ := List.pairwise_append.mp hsorted
    have hbelow : ∀ d ∈ done ++ [x], layer d ≤ layer x := by
      intro d hd
      cases List.mem_append.mp hd with
      | inl hold => exact hlast d hold x List.mem_cons_self
      | inr hnew => exact Nat.le_of_eq (by rw [List.mem_singleton.mp hnew])
    -- what needs only nodes that are done is at most one layer above the last of them
    have hle : ∀ i ∈ nodes, (∀ d ∈ nodes, needs i d → d ∈ done ++ [x]) → layer i ≤ layer x + 1 := by
      intro i hi hmet
      by_cases hzero : layer i = 0
      · omega
      · obtain ⟨d, hd, hneeds, hnext⟩ := h.tight i hi hzero
        have hd' := hbelow d (hmet d hd hneeds)
        omega
    have hfreed : ∀ i ∈ freed needs nodes done x, layer i = layer x + 1 := by
      intro i hi
      obtain ⟨hi, hneeds, hmet⟩ := mem_freed.mp hi
      have hlt := h.above i hi x hx hneeds
      have hle := hle i hi (by simpa using hmet)
      omega
    rw [reached_concat, List.pairwise_append]
    refine ⟨ih (fun d hd => hsub (List.mem_append_left [x] hd)) hdone, ?_, ?_⟩
    · apply List.pairwise_of_forall_mem_list
      intro i hi j hj
      rw [hfreed i hi, hfreed j hj]
    · intro i hi j hj
      rw [hfreed j hj]
      obtain ⟨hi, hmet⟩ := mem_reached.mp hi
      exact hle i hi fun d hd hneeds => List.mem_append_left [x] (hmet d hd hneeds)

/-- A sweep takes the nodes layer after layer. -/
theorem Layering.sorted (hsweeps : Sweeps needs nodes done queue) : (done ++ queue).Pairwise (layer · ≤ layer ·) := by
  induction hsweeps with
  | start => simpa [reached, waves] using h.reached_sorted (List.nil_subset nodes) List.Pairwise.nil
  | @pop done queue x hsweeps ih =>
    have hpart : (done ++ [x]).Sublist (done ++ x :: queue) :=
      (List.Sublist.refl done).append (List.singleton_sublist.mpr List.mem_cons_self)
    rw [hsweeps.pop.eq_reached]
    exact h.reached_sorted (fun d hd => hsweeps.subset (hpart.subset hd)) (ih.sublist hpart)

end Layers

end kahn
