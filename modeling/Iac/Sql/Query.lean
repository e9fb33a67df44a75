import Mathlib.Data.List.Dedup
import Mathlib.Data.List.Sort
import Mathlib.Algebra.BigOperators.Group.List.Lemmas
import Mathlib.Algebra.GroupWithZero.Nat

namespace sql

variable {R K : Type}

/-- The total of the groups whose key is in `group`. -/
def count_in (group : K → Bool) (groups : List (K × Nat)) : Nat :=
  groups.foldl (fun total g => if group g.1 then total + g.2 else total) 0

private theorem foldl_count (group : K → Bool) (groups : List (K × Nat)) (total : Nat) :
    groups.foldl (fun total g => if group g.1 then total + g.2 else total) total =
      total + ((groups.filter fun g => group g.1).map Prod.snd).sum := by
  induction groups generalizing total with
  | nil => simp
  | cons g rest ih =>
    rw [List.foldl_cons, ih]
    by_cases hg : group g.1
    · simp [hg, Nat.add_assoc]
    · simp [hg]

/-- The order in which a SELECT without ORDER BY happens to return its rows. -/
structure Scan (R : Type) where
  order : List R → List R
  perm : ∀ rows, (order rows).Perm rows

/-- The order in which the rows were inserted. -/
def Scan.insertion : Scan R := ⟨id, fun _ => .refl _⟩

/-- A column without duplicates selects its row alone. -/
theorem filter_key_eq_singleton [BEq K] [LawfulBEq K] {key : R → K} {rows : List R}
    (hkeys : (rows.map key).Nodup) {a : R} (ha : a ∈ rows) : rows.filter (fun b => key b == key a) = [a] := by
  induction rows with
  | nil => cases ha
  | cons head rest ih =>
    obtain ⟨hhead, hrest⟩ := List.nodup_cons.mp hkeys
    obtain rfl | hmem := List.mem_cons.mp ha
    · have hothers : rest.filter (fun b => key b == key a) = [] := by
        simp only [List.filter_eq_nil_iff, beq_iff_eq]
        exact fun b hb heq => hhead (heq ▸ List.mem_map_of_mem hb)
      simp [hothers]
    · have hne : (key head == key a) = false := by
        simp only [beq_eq_false_iff_ne]
        exact fun heq => hhead (heq ▸ List.mem_map_of_mem hmem)
      simpa [hne] using ih hrest hmem

theorem find_key_of_mem [BEq K] [LawfulBEq K] {key : R → K} {rows : List R} (hkeys : (rows.map key).Nodup) {a : R}
    (ha : a ∈ rows) : rows.find? (fun b => key b == key a) = some a := by
  rw [← List.head?_filter, filter_key_eq_singleton hkeys ha]
  rfl

theorem map_key_map {key : R → K} {g : R → R} {rows : List R} (h : ∀ r ∈ rows, key (g r) = key r) :
    (rows.map g).map key = rows.map key := by
  rw [List.map_map]
  exact List.map_congr_left h

/-- A row with a key of its own keeps the column without duplicates. -/
theorem nodup_keys_append {key : R → K} {rows : List R} {row : R} (hkeys : (rows.map key).Nodup)
    (hfresh : ∀ other ∈ rows, key other ≠ key row) : ((rows ++ [row]).map key).Nodup := by
  rw [List.map_append]
  refine List.nodup_append.mpr ⟨hkeys, by simp, ?_⟩
  intro k hk k' hk'
  obtain ⟨other, hother, rfl⟩ := List.mem_map.mp hk
  obtain rfl : k' = key row := by simpa using hk'
  exact hfresh other hother

theorem eq_of_key_eq {key : R → K} {rows : List R} (hkeys : (rows.map key).Nodup) {a b : R} (ha : a ∈ rows)
    (hb : b ∈ rows) (h : key a = key b) : a = b :=
  List.inj_on_of_nodup_map hkeys ha hb h

/-- Two versions of each row with the same key: the column stays, and so does
which row a key finds. -/
theorem find_key_filterMap {S : Type} [BEq K] {key : R → K} {f g : S → Option R} {rel : R → R → Prop} {slots : List S}
    (h : ∀ s ∈ slots, ∃ a b, f s = some a ∧ g s = some b ∧ key b = key a ∧ rel a b) :
    (slots.filterMap g).map key = (slots.filterMap f).map key ∧
      ∀ k a, (slots.filterMap f).find? (fun r => key r == k) = some a →
        ∃ b, (slots.filterMap g).find? (fun r => key r == k) = some b ∧ rel a b := by
  induction slots with
  | nil => exact ⟨rfl, fun k a ha => by cases ha⟩
  | cons s slots ih =>
    obtain ⟨⟨a, b, hf, hg, hkey, hrel⟩, hrest⟩ := List.forall_mem_cons.mp h
    obtain ⟨hcolumn, hfind⟩ := ih hrest
    refine ⟨by simp [hf, hg, hkey, hcolumn], fun k c hc => ?_⟩
    rw [List.filterMap_cons_some hf] at hc
    rw [List.filterMap_cons_some hg]
    cases hk : key a == k with
    | true =>
      rw [List.find?_cons_of_pos (by exact hk)] at hc
      rw [List.find?_cons_of_pos (by rw [hkey]; exact hk)]
      exact ⟨b, rfl, Option.some.inj hc ▸ hrel⟩
    | false =>
      rw [List.find?_cons_of_neg (by simp [hk])] at hc
      rw [List.find?_cons_of_neg (by simp [hkey, hk])]
      exact hfind k c hc

section Newest

variable {L : Type} [LinearOrder L]

/-- `ORDER BY key DESC LIMIT 1`. -/
def newest (key : R → L) (rows : List R) : Option R :=
  (rows.insertionSort fun a b => key b ≤ key a).head?

theorem newest_eq_none_iff {key : R → L} {rows : List R} : newest key rows = none ↔ rows = [] := by
  rw [newest, List.head?_eq_none_iff]
  constructor
  · intro hnil
    have hperm := List.perm_insertionSort (fun a b : R => key b ≤ key a) rows
    exact (hnil ▸ hperm).symm.eq_nil
  · rintro rfl
    rfl

/-- The row found is one of the rows, and no other has a greater key. -/
theorem newest_spec {key : R → L} {rows : List R} {a : R} (h : newest key rows = some a) :
    a ∈ rows ∧ ∀ b ∈ rows, key b ≤ key a := by
  obtain ⟨rest, hsorted⟩ := List.head?_eq_some_iff.mp h
  have : Std.Total fun a b : R => key b ≤ key a := ⟨fun a b => le_total (key b) (key a)⟩
  have : IsTrans R fun a b => key b ≤ key a := ⟨fun _ _ _ hab hbc => hbc.trans hab⟩
  have hpairwise := List.pairwise_insertionSort (fun a b : R => key b ≤ key a) rows
  have hmem {b : R} : b ∈ rows ↔ b ∈ a :: rest := by
    rw [← hsorted, List.mem_insertionSort]
  rw [hsorted, List.pairwise_cons] at hpairwise
  refine ⟨hmem.mpr List.mem_cons_self, fun b hb => ?_⟩
  obtain rfl | hrest := List.mem_cons.mp (hmem.mp hb)
  · exact le_refl _
  · exact hpairwise.1 b hrest

end Newest

variable [DecidableEq K]

/-- `SELECT key, COUNT(*) … GROUP BY key`. -/
def group_count (key : R → K) (rows : List R) : List (K × Nat) :=
  (rows.map key).dedup.map fun k => (k, (rows.map key).count k)

/-- `SELECT DISTINCT key`. -/
def distinct (key : R → K) (rows : List R) : List K :=
  (rows.map key).dedup

/-- Grouping and adding up again counts the rows of the chosen groups. -/
theorem count_in_group_count (group : K → Bool) (key : R → K) (rows : List R) :
    count_in group (group_count key rows) = rows.countP fun r => group (key r) := by
  rw [count_in, foldl_count, Nat.zero_add, group_count, List.filter_map, List.map_map]
  have hsum := List.sum_map_count_dedup_filter_eq_countP group (rows.map key)
  rw [List.countP_map] at hsum
  exact hsum

theorem count_in_pos_iff (group : K → Bool) (key : R → K) (rows : List R) :
    0 < count_in group (group_count key rows) ↔ ∃ r ∈ rows, group (key r) = true := by
  rw [count_in_group_count, List.countP_pos_iff]

theorem mem_distinct {key : R → K} {rows : List R} {k : K} :
    k ∈ distinct key rows ↔ ∃ r ∈ rows, key r = k := by
  simp [distinct]

end sql
