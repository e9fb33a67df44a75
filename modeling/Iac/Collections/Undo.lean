import Mathlib.Data.List.Sort

namespace undo

variable {α K : Type} [LinearOrder K] {key : α → K}

/-- The entries in descending order of their keys, by a stable sort. -/
def newest_first (key : α → K) (l : List α) : List α :=
  l.insertionSort fun a b => key b ≤ key a

private instance key_total : Std.Total fun a b : α => key b ≤ key a := ⟨fun a b => le_total (key b) (key a)⟩

private instance key_trans : IsTrans α fun a b => key b ≤ key a := ⟨fun _ _ _ hab hbc => hbc.trans hab⟩

theorem newest_first_perm (l : List α) : (newest_first key l).Perm l := List.perm_insertionSort _ _

theorem newest_first_sorted (l : List α) : (newest_first key l).Pairwise fun a b => key b ≤ key a :=
  List.pairwise_insertionSort _ l

/-- Entries in strictly ascending order come back reversed, however they are listed. -/
theorem newest_first_of_perm {l listing : List α} (h : l.Pairwise fun a b => key a < key b) (hperm : listing.Perm l) :
    newest_first key listing = l.reverse := by
  apply ((newest_first_perm listing).trans (hperm.trans (List.reverse_perm l).symm)).eq_of_pairwise _
    (newest_first_sorted listing)
  · exact List.pairwise_reverse.mpr (h.imp le_of_lt)
  · intro a b ha hb hle hge
    have ha_mem : a ∈ l := hperm.mem_iff.mp ((newest_first_perm listing).mem_iff.mp ha)
    have hb_mem : b ∈ l := List.mem_reverse.mp hb
    have hkeys : (l.map key).Nodup := (List.pairwise_map.mpr h).imp ne_of_lt
    exact List.inj_on_of_nodup_map hkeys ha_mem hb_mem (le_antisymm hge hle)

private theorem not_both_ways {a b : α} {l : List α} (h : l.Nodup) (hab : [a, b].Sublist l) (hba : [b, a].Sublist l) :
    False := by
  induction l with
  | nil => cases hab
  | cons c l ih =>
    obtain ⟨hnew, hrest⟩ := List.nodup_cons.mp h
    obtain hab' | ⟨_, heq, hb⟩ := List.sublist_cons_iff.mp hab
    · obtain hba' | ⟨_, heq, ha⟩ := List.sublist_cons_iff.mp hba
      · exact ih hrest hab' hba'
      · obtain ⟨rfl, rfl⟩ := List.cons.inj heq
        exact hnew (hab'.subset (by simp))
    · obtain ⟨rfl, rfl⟩ := List.cons.inj heq
      obtain hba' | ⟨_, heq, ha⟩ := List.sublist_cons_iff.mp hba
      · exact hnew (hba'.subset (by simp))
      · obtain ⟨rfl, rfl⟩ := List.cons.inj heq
        exact hnew (hb.subset (by simp))

/-- The entries come back in reverse, whatever the order they are listed in,
exactly when their keys ascend strictly. -/
theorem newest_first_reverses_iff {l : List α} (hnodup : l.Nodup) :
    (∀ listing, listing.Perm l → newest_first key listing = l.reverse) ↔ l.Pairwise fun a b => key a < key b := by
  constructor
  · intro hall
    have hsorted : (newest_first key l).Pairwise fun a b => key b ≤ key a := newest_first_sorted l
    rw [hall l (List.Perm.refl l), List.pairwise_reverse] at hsorted
    refine List.pairwise_iff_forall_sublist.mpr fun {a b} hab => ?_
    have hle : key a ≤ key b := List.pairwise_iff_forall_sublist.mp hsorted hab
    refine lt_of_le_of_ne hle fun heq => ?_
    -- the sort is stable, so entries with the same key are not reversed
    have hkept : [a, b].Sublist (newest_first key l) :=
      List.pair_sublist_insertionSort heq.ge hab
    rw [hall l (List.Perm.refl l)] at hkept
    exact not_both_ways hnodup hab (List.reverse_sublist.mp (by simpa using hkept))
  · exact fun h listing hperm => newest_first_of_perm h hperm

end undo
