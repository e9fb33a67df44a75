import Iac.Collections.SortedMap
import Mathlib.Data.List.Nodup
import Mathlib.Data.List.Perm.Subperm

namespace sorted_map

variable {K V W : Type} [LinearOrder K]

/-- Every key once, in any order. -/
def Unique (m : List (K × V)) : Prop := (m.map Prod.fst).Nodup

theorem Sorted.unique {m : List (K × V)} (h : Sorted m) : Unique m :=
  List.pairwise_map.mpr (h.imp fun hlt => ne_of_lt hlt)

theorem lookup_cons (k : K) (e : K × V) (m : List (K × V)) :
    lookup k (e :: m) = if e.1 = k then some e.2 else lookup k m := by
  unfold lookup
  split_ifs with h
  · simp [h]
  · simp [h]

theorem mem_of_lookup {m : List (K × V)} {k : K} {v : V} (h : lookup k m = some v) : (k, v) ∈ m := by
  obtain ⟨e, hfind, rfl⟩ := Option.map_eq_some_iff.mp h
  have hkey : e.1 = k := by simpa using List.find?_some hfind
  exact hkey ▸ List.mem_of_find?_eq_some hfind

theorem lookup_eq_none_iff {m : List (K × V)} {k : K} : lookup k m = none ↔ k ∉ m.map Prod.fst := by
  unfold lookup
  rw [Option.map_eq_none_iff, List.find?_eq_none]
  constructor
  · rintro h hmem
    obtain ⟨e, he, rfl⟩ := List.mem_map.mp hmem
    exact h e he (by simp)
  · intro h e he hkey
    exact h (List.mem_map.mpr ⟨e, he, by simpa using hkey⟩)

theorem Unique.lookup_eq_some_iff {m : List (K × V)} (h : Unique m) {k : K} {v : V} :
    lookup k m = some v ↔ (k, v) ∈ m := by
  refine ⟨mem_of_lookup, fun hmem => ?_⟩
  induction m with
  | nil => cases hmem
  | cons e m ih =>
    obtain ⟨hfresh, hrest⟩ := List.nodup_cons.mp h
    rw [lookup_cons]
    obtain rfl | htail := List.mem_cons.mp hmem
    · rw [if_pos rfl]
    · rw [if_neg, ih hrest htail]
      intro hkey
      exact hfresh (List.mem_map.mpr ⟨(k, v), htail, hkey.symm⟩)

/-- Both have the same keys, and related values under each. -/
def Related (R : V → W → Prop) (m : List (K × V)) (n : List (K × W)) : Prop :=
  ∀ k, Option.Rel R (lookup k m) (lookup k n)

section Related

variable {R : V → W → Prop} {m : List (K × V)} {n : List (K × W)}

theorem rel_none_left {found : Option W} : Option.Rel R none found ↔ found = none := by
  constructor
  · intro h
    cases h
    rfl
  · rintro rfl
    exact .none

theorem rel_some_left {v : V} {found : Option W} : Option.Rel R (some v) found ↔ ∃ w, found = some w ∧ R v w := by
  constructor
  · intro h
    cases h with
    | some hr => exact ⟨_, rfl, hr⟩
  · rintro ⟨w, rfl, hr⟩
    exact .some hr

theorem Related.key_iff (h : Related R m n) (k : K) : k ∈ m.map Prod.fst ↔ k ∈ n.map Prod.fst := by
  have hk := h k
  rw [← not_iff_not, ← lookup_eq_none_iff, ← lookup_eq_none_iff]
  cases hm : lookup k m with
  | none =>
    rw [hm, rel_none_left] at hk
    simp [hk]
  | some v =>
    rw [hm, rel_some_left] at hk
    obtain ⟨w, hw, -⟩ := hk
    simp [hw]

/-- In maps without repeated keys, it is enough to find each entry of the one in the
other, where they have the same number of entries. -/
theorem Unique.related_iff (hm : Unique m) (hn : Unique n) :
    Related R m n ↔ m.length = n.length ∧ ∀ e ∈ m, ∃ f ∈ n, e.1 = f.1 ∧ R e.2 f.2 := by
  constructor
  · intro h
    have hperm : (m.map Prod.fst).Perm (n.map Prod.fst) := (List.perm_ext_iff_of_nodup hm hn).mpr h.key_iff
    refine ⟨by simpa using hperm.length_eq, fun e he => ?_⟩
    have hk := h e.1
    rw [hm.lookup_eq_some_iff.mpr he, rel_some_left] at hk
    obtain ⟨w, hw, hr⟩ := hk
    exact ⟨(e.1, w), mem_of_lookup hw, rfl, hr⟩
  · rintro ⟨hlength, hfound⟩ k
    have hsub : m.map Prod.fst ⊆ n.map Prod.fst := by
      intro key hkey
      obtain ⟨e, he, rfl⟩ := List.mem_map.mp hkey
      obtain ⟨f, hf, hsame, -⟩ := hfound e he
      exact List.mem_map.mpr ⟨f, hf, hsame.symm⟩
    have hperm : (m.map Prod.fst).Perm (n.map Prod.fst) :=
      (hm.subperm hsub).perm_of_length_le (by simp [hlength])
    cases hk : lookup k m with
    | none =>
      rw [rel_none_left, lookup_eq_none_iff]
      exact fun hmem => lookup_eq_none_iff.mp hk (hperm.mem_iff.mpr hmem)
    | some v =>
      obtain ⟨⟨key, w⟩, hf, hsame, hr⟩ := hfound (k, v) (mem_of_lookup hk)
      obtain rfl : k = key := hsame
      exact rel_some_left.mpr ⟨w, hn.lookup_eq_some_iff.mpr hf, hr⟩

theorem Sorted.lookup_tail {e : K × V} (h : Sorted (e :: m)) {k : K} (hk : k ≤ e.1) : lookup k m = none := by
  rw [lookup_eq_none_iff]
  intro hmem
  obtain ⟨f, hf, rfl⟩ := List.mem_map.mp hmem
  exact absurd ((List.pairwise_cons.mp h).1 f hf) (not_lt.mpr hk)

/-- In sorted maps the related entries stand side by side. -/
theorem Sorted.related_iff (hm : Sorted m) (hn : Sorted n) :
    Related R m n ↔ List.Forall₂ (fun e f => e.1 = f.1 ∧ R e.2 f.2) m n := by
  constructor
  · intro h
    induction m generalizing n with
    | nil =>
      cases n with
      | nil => exact .nil
      | cons f n =>
        have hk := h f.1
        rw [lookup_cons, if_pos rfl] at hk
        cases hk
    | cons e m ih =>
      cases n with
      | nil =>
        have hk := h e.1
        rw [lookup_cons, if_pos rfl] at hk
        cases hk
      | cons f n =>
        have hkey : e.1 = f.1 := by
          refine le_antisymm ?_ ?_
          · by_contra hlt
            have hk := h f.1
            rw [hn.unique.lookup_eq_some_iff.mpr List.mem_cons_self, lookup_cons, if_neg (fun heq => hlt heq.le),
              hm.lookup_tail (not_le.mp hlt).le] at hk
            cases hk
          · by_contra hlt
            have hk := h e.1
            rw [hm.unique.lookup_eq_some_iff.mpr List.mem_cons_self, lookup_cons (k := e.1),
              if_neg (fun heq => hlt heq.le), hn.lookup_tail (not_le.mp hlt).le] at hk
            cases hk
        have hhead : R e.2 f.2 := by
          have hk := h e.1
          rw [lookup_cons, lookup_cons, if_pos rfl, if_pos hkey.symm] at hk
          cases hk with
          | some hr => exact hr
        refine .cons ⟨hkey, hhead⟩ (ih (List.pairwise_cons.mp hm).2 (List.pairwise_cons.mp hn).2 fun k => ?_)
        by_cases hk : e.1 = k
        · rw [hm.lookup_tail hk.ge, hn.lookup_tail (hkey ▸ hk.ge)]
          exact .none
        · have hrel := h k
          rwa [lookup_cons, lookup_cons, if_neg hk, if_neg (hkey ▸ hk)] at hrel
  · intro h k
    induction h with
    | nil => exact .none
    | cons hhead _ ih =>
      rw [lookup_cons, lookup_cons, ← hhead.1]
      split_ifs
      · exact .some hhead.2
      · exact ih (List.pairwise_cons.mp hm).2 (List.pairwise_cons.mp hn).2

theorem lookup_map {V' : Type} (g : V → V') (k : K) (m : List (K × V)) :
    lookup k (m.map fun e => (e.1, g e.2)) = (lookup k m).map g := by
  induction m with
  | nil => rfl
  | cons e m ih =>
    rw [List.map_cons, lookup_cons, lookup_cons, ih]
    split_ifs <;> rfl

end Related

end sorted_map
