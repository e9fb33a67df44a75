import Mathlib.Data.List.Pairwise
import Mathlib.Order.Lattice

namespace sorted_map

variable {K V : Type} [LinearOrder K]

/-- The entry at `k`, present (`some`) or not, becomes what `f` gives for it.
Entries stand in key order. -/
def upsert (k : K) (f : Option V → V) : List (K × V) → List (K × V)
  | [] => [(k, f none)]
  | (k', v) :: rest =>
    if k < k' then (k, f none) :: (k', v) :: rest
    else if k = k' then (k', f (some v)) :: rest
    else (k', v) :: upsert k f rest

def lookup (k : K) (m : List (K × V)) : Option V :=
  (m.find? fun e => e.1 = k).map Prod.snd

/-- Every key once, in ascending order. -/
def Sorted (m : List (K × V)) : Prop :=
  m.Pairwise fun a b => a.1 < b.1

theorem sorted_nil : Sorted ([] : List (K × V)) := List.Pairwise.nil

theorem keys_upsert {k : K} {f : Option V → V} {m : List (K × V)} {e : K × V} (he : e ∈ upsert k f m) :
    e.1 = k ∨ ∃ v, (e.1, v) ∈ m := by
  induction m with
  | nil => simp_all [upsert]
  | cons head rest ih =>
    obtain ⟨k', v⟩ := head
    simp only [upsert] at he
    split at he
    · obtain rfl | hmem := List.mem_cons.mp he
      · exact .inl rfl
      · exact .inr ⟨e.2, hmem⟩
    · split at he
      · rename_i _ heq
        obtain rfl | hmem := List.mem_cons.mp he
        · exact .inl heq.symm
        · exact .inr ⟨e.2, List.mem_cons_of_mem _ hmem⟩
      · obtain rfl | hmem := List.mem_cons.mp he
        · exact .inr ⟨v, List.mem_cons_self⟩
        · obtain h | ⟨u, hu⟩ := ih hmem
          · exact .inl h
          · exact .inr ⟨u, List.mem_cons_of_mem _ hu⟩

theorem Sorted.upsert {k : K} {f : Option V → V} {m : List (K × V)} (h : Sorted m) :
    Sorted (upsert k f m) := by
  induction m with
  | nil => simp [sorted_map.upsert, Sorted]
  | cons head rest ih =>
    obtain ⟨k', v⟩ := head
    obtain ⟨hhead, hrest⟩ := List.pairwise_cons.mp h
    simp only [sorted_map.upsert]
    split
    · rename_i hlt
      refine List.pairwise_cons.mpr ⟨?_, h⟩
      intro e he
      obtain rfl | hmem := List.mem_cons.mp he
      · exact hlt
      · exact hlt.trans (hhead e hmem)
    · split
      · exact List.pairwise_cons.mpr ⟨hhead, hrest⟩
      · rename_i hnlt hne
        have hlt : k' < k := lt_of_le_of_ne (not_lt.mp hnlt) (Ne.symm hne)
        refine List.pairwise_cons.mpr ⟨?_, ih hrest⟩
        intro e he
        obtain heq | ⟨u, hu⟩ := keys_upsert he
        · simpa [heq] using hlt
        · exact hhead (e.1, u) hu

theorem Sorted.lookup_eq_some_iff {m : List (K × V)} (h : Sorted m) {k : K} {v : V} :
    lookup k m = some v ↔ (k, v) ∈ m := by
  induction m with
  | nil => simp [lookup]
  | cons head rest ih =>
    obtain ⟨k', v'⟩ := head
    obtain ⟨hhead, hrest⟩ := List.pairwise_cons.mp h
    by_cases hk : k' = k
    · subst hk
      have hfresh : (k', v) ∉ rest := fun hmem => lt_irrefl _ (hhead (k', v) hmem)
      simp [lookup, hfresh, eq_comm]
    · have hskip : lookup k ((k', v') :: rest) = lookup k rest := by simp [lookup, hk]
      have hne : (k, v) ≠ (k', v') := fun heq => hk (Prod.mk.inj heq).1.symm
      simp [hskip, ih hrest, hne]

theorem lookup_upsert_self {k : K} {f : Option V → V} {m : List (K × V)} (h : Sorted m) :
    lookup k (upsert k f m) = some (f (lookup k m)) := by
  induction m with
  | nil => simp [lookup, upsert]
  | cons head rest ih =>
    obtain ⟨k', v⟩ := head
    obtain ⟨hhead, hrest⟩ := List.pairwise_cons.mp h
    simp only [upsert]
    split
    · rename_i hlt
      have hnone : lookup k ((k', v) :: rest) = none := by
        simp only [lookup, Option.map_eq_none_iff, List.find?_eq_none, decide_eq_true_eq]
        intro e he heq
        obtain rfl | hmem := List.mem_cons.mp he
        · exact lt_irrefl _ (heq ▸ hlt)
        · exact lt_irrefl _ (heq ▸ hlt.trans (hhead e hmem))
      rw [hnone]
      simp [lookup]
    · split
      · rename_i _ heq
        subst heq
        simp [lookup]
      · rename_i _ hne
        have hskip : ∀ m : List (K × V), lookup k ((k', v) :: m) = lookup k m := by
          intro m
          simp [lookup, Ne.symm hne]
        rw [hskip, hskip, ih hrest]

theorem lookup_upsert_of_ne {k k₀ : K} {f : Option V → V} {m : List (K × V)} (hne : k₀ ≠ k) :
    lookup k₀ (upsert k f m) = lookup k₀ m := by
  induction m with
  | nil => simp [lookup, upsert, hne.symm]
  | cons head rest ih =>
    obtain ⟨k', v⟩ := head
    simp only [upsert]
    split
    · simp [lookup, hne.symm]
    · split
      · rename_i _ heq
        have hk : k' ≠ k₀ := fun h => hne (h.symm.trans heq.symm)
        simp [lookup, hk]
      · by_cases hk : k' = k₀
        · simp [lookup, hk]
        · have hskip : ∀ m : List (K × V), lookup k₀ ((k', v) :: m) = lookup k₀ m := by
            intro m
            simp [lookup, hk]
          rw [hskip, hskip, ih]

/-- Updating an entry and mapping the values commute. -/
theorem map_upsert {W : Type} {k : K} {f : Option V → V} {f' : Option W → W} {g : V → W}
    (hg : ∀ v, g (f v) = f' (v.map g)) (m : List (K × V)) :
    (upsert k f m).map (Prod.map id g) = upsert k f' (m.map (Prod.map id g)) := by
  induction m with
  | nil => simp [upsert, hg]
  | cons head rest ih =>
    obtain ⟨k', v⟩ := head
    simp only [upsert, List.map_cons, Prod.map_apply, id_eq]
    split
    · simp [hg]
    · split
      · simp [hg]
      · simp [ih]

/-- Maps with related entries under the same keys are related entry by entry. -/
theorem Sorted.forall₂ {W : Type} {R : V → W → Prop} {m : List (K × V)} {m' : List (K × W)} (h : Sorted m) (h' : Sorted m')
    (hleft : ∀ e ∈ m, ∃ e' ∈ m', e.1 = e'.1 ∧ R e.2 e'.2) (hright : ∀ e' ∈ m', ∃ e ∈ m, e.1 = e'.1) :
    List.Forall₂ (fun e e' => e.1 = e'.1 ∧ R e.2 e'.2) m m' := by
  induction m generalizing m' with
  | nil =>
    cases m' with
    | nil => exact .nil
    | cons e' m' => simpa using hright e' List.mem_cons_self
  | cons e m ih =>
    obtain ⟨hfirst, hrest⟩ := List.pairwise_cons.mp h
    cases m' with
    | nil => simpa using hleft e List.mem_cons_self
    | cons e' m' =>
      obtain ⟨hfirst', hrest'⟩ := List.pairwise_cons.mp h'
      have hkey : e.1 = e'.1 := by
        obtain ⟨f', hf', heq, -⟩ := hleft e List.mem_cons_self
        obtain rfl | hlater' := List.mem_cons.mp hf'
        · exact heq
        · obtain ⟨f, hf, heq'⟩ := hright e' List.mem_cons_self
          obtain rfl | hlater := List.mem_cons.mp hf
          · exact heq'
          · exact absurd (hfirst f hlater) (lt_asymm (heq ▸ heq' ▸ hfirst' f' hlater'))
      have htail : ∀ f ∈ m, ∃ f' ∈ m', f.1 = f'.1 ∧ R f.2 f'.2 := by
        intro f hf
        obtain ⟨f', hf', heq, hrel⟩ := hleft f (List.mem_cons_of_mem _ hf)
        obtain rfl | hlater := List.mem_cons.mp hf'
        · exact absurd (hkey.trans heq.symm) (hfirst f hf).ne
        · exact ⟨f', hlater, heq, hrel⟩
      have htail' : ∀ f' ∈ m', ∃ f ∈ m, f.1 = f'.1 := by
        intro f' hf'
        obtain ⟨f, hf, heq⟩ := hright f' (List.mem_cons_of_mem _ hf')
        obtain rfl | hlater := List.mem_cons.mp hf
        · exact absurd (hkey.symm.trans heq) (hfirst' f' hf').ne
        · exact ⟨f, hlater, heq⟩
      refine .cons ⟨hkey, ?_⟩ (ih hrest hrest' htail htail')
      obtain ⟨f', hf', heq, hrel⟩ := hleft e List.mem_cons_self
      obtain rfl | hlater := List.mem_cons.mp hf'
      · exact hrel
      · exact absurd (hkey.symm.trans heq) (hfirst' f' hlater).ne

end sorted_map
