import Mathlib.Data.List.Nodup
import Mathlib.Data.List.Sort

namespace sql

/-- `OVER (PARTITION BY partition ORDER BY order DESC)`. -/
structure Window (R K L : Type) where
  partition : R → K
  order : R → L

namespace Window

variable {R K L : Type} [DecidableEq K] [LinearOrder L]

/-- `ROW_NUMBER()` of a row: its place in its partition, from 1 on. -/
def row_number (w : Window R K L) (rows : List R) (row : R) : Nat :=
  (rows.filter fun other => w.partition other = w.partition row ∧ w.order row < w.order other).length + 1

/-- The rows whose number is at most `cap`. -/
def within (w : Window R K L) (cap : Nat) (rows : List R) : List R :=
  rows.filter fun row => w.row_number rows row ≤ cap

/-- The rows whose number is greater than `cap`. -/
def beyond (w : Window R K L) (cap : Nat) (rows : List R) : List R :=
  rows.filter fun row => cap < w.row_number rows row

/-- The rows of one partition, the greatest first. -/
def partition_rows (w : Window R K L) (k : K) (rows : List R) : List R :=
  (rows.filter fun row => w.partition row = k).insertionSort fun a b => w.order b ≤ w.order a

variable {w : Window R K L} {cap : Nat} {rows : List R}

/-- In a list in descending order the elements that fewer than `n` others exceed are the first `n`. -/
private theorem filter_exceeded_eq_take {key : R → L} {l : List R} (hsorted : l.Pairwise fun a b => key b < key a)
    (n : Nat) : (l.filter fun a => (l.filter fun b => key a < key b).length < n) = l.take n := by
  induction l generalizing n with
  | nil => simp
  | cons head rest ih =>
    obtain ⟨hhead, hrest⟩ := List.pairwise_cons.mp hsorted
    have hnone : ((head :: rest).filter fun b => key head < key b) = [] := by
      apply List.filter_eq_nil_iff.mpr
      intro b hb
      obtain rfl | hmem := List.mem_cons.mp hb
      · simp
      · simpa using (hhead b hmem).le
    have hcount : ∀ a ∈ rest, ((head :: rest).filter fun b => key a < key b).length =
        (rest.filter fun b => key a < key b).length + 1 := by
      intro a ha
      rw [List.filter_cons_of_pos (by simpa using hhead a ha), List.length_cons]
    cases n with
    | zero => simp
    | succ n =>
      rw [List.filter_cons_of_pos (by simp [hnone]), List.take_succ_cons, ← ih hrest n]
      congr 1
      apply List.filter_congr
      intro a ha
      simp [hcount a ha]

private theorem partition_rows_sorted (hrank : (rows.map w.order).Nodup) (k : K) :
    (w.partition_rows k rows).Pairwise fun a b => w.order b < w.order a := by
  have : Std.Total fun a b : R => w.order b ≤ w.order a := ⟨fun a b => le_total (w.order b) (w.order a)⟩
  have : IsTrans R fun a b => w.order b ≤ w.order a := ⟨fun _ _ _ hab hbc => hbc.trans hab⟩
  have hle := List.pairwise_insertionSort (fun a b : R => w.order b ≤ w.order a)
    (rows.filter fun row => w.partition row = k)
  have hnodup : ((w.partition_rows k rows).map w.order).Nodup := by
    have hperm := (List.perm_insertionSort (fun a b : R => w.order b ≤ w.order a)
      (rows.filter fun row => w.partition row = k)).map w.order
    exact hperm.nodup_iff.mpr (hrank.sublist (List.filter_sublist.map w.order))
  have hne : (w.partition_rows k rows).Pairwise fun a b => w.order a ≠ w.order b := List.pairwise_map.mp hnodup
  exact (hle.and hne).imp fun h => lt_of_le_of_ne h.1 h.2.symm

theorem partition_rows_perm (k : K) :
    (w.partition_rows k rows).Perm (rows.filter fun row => w.partition row = k) :=
  List.perm_insertionSort _ _

private theorem row_number_eq {k : K} {row : R} (hrow : w.partition row = k) :
    w.row_number rows row =
      ((w.partition_rows k rows).filter fun other => w.order row < w.order other).length + 1 := by
  have hrows : (w.partition_rows k rows).Perm (rows.filter fun row => w.partition row = k) := w.partition_rows_perm k
  have hperm := hrows.filter fun other => w.order row < w.order other
  rw [row_number, hperm.length_eq, List.filter_filter, hrow]
  simp only [Bool.decide_and, Bool.and_comm]

/-- Of each partition the rows within the cap are the first ones in its order. -/
theorem within_partition_perm (hrank : (rows.map w.order).Nodup) (cap : Nat) (k : K) :
    ((w.within cap rows).filter fun row => w.partition row = k).Perm ((w.partition_rows k rows).take cap) := by
  rw [← filter_exceeded_eq_take (partition_rows_sorted hrank k)]
  refine List.Perm.trans ?_ ((w.partition_rows_perm k).filter _).symm
  have hcongr : ((w.within cap rows).filter fun row => w.partition row = k) =
      (rows.filter fun row => w.partition row = k).filter fun row =>
        ((w.partition_rows k rows).filter fun other => w.order row < w.order other).length < cap := by
    rw [within, List.filter_comm]
    apply List.filter_congr
    intro row hrow
    have hk : w.partition row = k := by simpa using (List.mem_filter.mp hrow).2
    simp only [row_number_eq hk, Nat.succ_le_iff]
  rw [hcongr]

/-- A partition keeps at most `cap` rows, and all its rows when it has no more. -/
theorem within_partition_length (hrank : (rows.map w.order).Nodup) (cap : Nat) (k : K) :
    ((w.within cap rows).filter fun row => w.partition row = k).length =
      min cap (rows.filter fun row => w.partition row = k).length := by
  rw [(within_partition_perm hrank cap k).length_eq, List.length_take, (w.partition_rows_perm k).length_eq]

theorem within_length_add_beyond_length : (w.within cap rows).length + (w.beyond cap rows).length = rows.length := by
  have hnot : w.beyond cap rows = rows.filter fun row => !decide (w.row_number rows row ≤ cap) := by
    simp [beyond, ← decide_not]
  rw [hnot, within, ← List.length_eq_length_filter_add]

theorem within_eq_self (h : (w.beyond cap rows).length = 0) : w.within cap rows = rows := by
  have hlength := @within_length_add_beyond_length _ _ _ _ _ w cap rows
  exact List.filter_sublist.eq_of_length (by rw [within] at hlength; omega)

/-- A partition with a row beyond the cap keeps `cap` rows. -/
theorem within_partition_full (hrank : (rows.map w.order).Nodup) {row : R} (hrow : cap < w.row_number rows row) :
    ((w.within cap rows).filter fun other => w.partition other = w.partition row).length = cap := by
  rw [within_partition_length hrank]
  have hmany : w.row_number rows row ≤ (rows.filter fun other => w.partition other = w.partition row).length + 1 := by
    apply Nat.succ_le_succ
    apply List.Sublist.length_le
    apply List.monotone_filter_right
    intro other hother
    simp only [decide_eq_true_eq] at hother ⊢
    exact hother.1
  omega

/-- A row beyond the cap is below every row of its partition within the cap. -/
theorem order_lt_of_within {row other : R} (hpartition : w.partition other = w.partition row)
    (hother : w.row_number rows other ≤ cap) (hrow : cap < w.row_number rows row) : w.order row < w.order other := by
  by_contra hnot
  have hle : w.order other ≤ w.order row := not_lt.mp hnot
  have hsub : w.row_number rows row ≤ w.row_number rows other := by
    apply Nat.succ_le_succ
    apply List.Sublist.length_le
    apply List.monotone_filter_right
    intro r hr
    simp only [decide_eq_true_eq] at hr ⊢
    exact ⟨hr.1.trans hpartition.symm, lt_of_le_of_lt hle hr.2⟩
  omega

section Delete

variable {keep : R → Bool}

private theorem row_number_filter_le (row : R) : w.row_number (rows.filter keep) row ≤ w.row_number rows row := by
  apply Nat.succ_le_succ
  exact (List.filter_sublist.filter _).length_le

/-- Deleting rows beyond the cap moves no row across it. -/
theorem cap_lt_row_number_filter_iff (hrank : (rows.map w.order).Nodup)
    (hkeep : ∀ row ∈ rows, w.row_number rows row ≤ cap → keep row = true) (row : R) :
    cap < w.row_number (rows.filter keep) row ↔ cap < w.row_number rows row := by
  refine ⟨fun h => h.trans_le (row_number_filter_le row), fun hbeyond => ?_⟩
  -- the first `cap` rows of the partition are all kept, and all of them are above `row`
  have hfull := within_partition_full hrank hbeyond
  have habove : cap ≤ ((rows.filter keep).filter fun other =>
      w.partition other = w.partition row ∧ w.order row < w.order other).length := by
    rw [← hfull, within, List.filter_filter, List.filter_filter, ← List.countP_eq_length_filter,
      ← List.countP_eq_length_filter]
    apply List.countP_mono_left
    intro other hother hwithin
    simp only [Bool.and_eq_true, decide_eq_true_eq] at hwithin ⊢
    exact ⟨⟨hwithin.1, order_lt_of_within hwithin.1 hwithin.2 hbeyond⟩, hkeep other hother hwithin.2⟩
  exact Nat.lt_succ_of_le habove

theorem within_filter (hrank : (rows.map w.order).Nodup)
    (hkeep : ∀ row ∈ rows, w.row_number rows row ≤ cap → keep row = true) :
    w.within cap (rows.filter keep) = w.within cap rows := by
  rw [within, List.filter_filter, within]
  apply List.filter_congr
  intro row hrow
  have hiff := not_congr (cap_lt_row_number_filter_iff hrank hkeep row)
  simp only [not_lt] at hiff
  by_cases hin : w.row_number rows row ≤ cap
  · simp [hin, hiff.mpr hin, hkeep row hrow hin]
  · simp [hin, mt hiff.mp hin]

end Delete

section Orders

variable {L' : Type} [LinearOrder L'] {w' : Window R K L'}

/-- Another order leaves the same rows exactly when it has those that are left above those that are not. -/
theorem within_eq_within_iff (hpartition : w.partition = w'.partition) (hrank : (rows.map w'.order).Nodup) :
    w.within cap rows = w'.within cap rows ↔ ∀ a ∈ rows, ∀ b ∈ rows, w'.partition b = w'.partition a →
      w'.row_number rows a ≤ cap → cap < w'.row_number rows b → w.order b < w.order a := by
  constructor
  · intro heq a ha b hb hsame hin hout
    have hmem (row : R) (hrow : row ∈ rows) : w.row_number rows row ≤ cap ↔ w'.row_number rows row ≤ cap := by
      have hiff := Eq.to_iff (congrArg (fun left => row ∈ left) heq)
      simpa only [within, List.mem_filter, hrow, true_and, decide_eq_true_eq] using hiff
    have hbelow : cap < w.row_number rows b := by
      by_contra hnot
      have hle := (hmem b hb).mp (not_lt.mp hnot)
      omega
    refine order_lt_of_within ?_ ((hmem a ha).mpr hin) hbelow
    rw [hpartition]
    exact hsame.symm
  intro habove
  apply List.filter_congr
  intro row hrow
  rw [decide_eq_decide]
  have hcap := @within_partition_length _ _ _ _ _ w' rows hrank cap (w'.partition row)
  constructor
  · intro hin
    by_contra hout
    -- everything that is left of the partition is above the row
    have hfull := within_partition_full hrank (not_le.mp hout)
    have hle : cap ≤ (rows.filter fun other => w.partition other = w.partition row ∧ w.order row < w.order other).length := by
      rw [← hfull, within, List.filter_filter, ← List.countP_eq_length_filter, ← List.countP_eq_length_filter]
      apply List.countP_mono_left
      intro other hother hwithin
      simp only [Bool.and_eq_true, decide_eq_true_eq] at hwithin ⊢
      exact ⟨hpartition ▸ hwithin.1, habove other hother row hrow hwithin.1.symm hwithin.2 (not_le.mp hout)⟩
    rw [row_number] at hin
    omega
  · intro hin
    -- what is above the row is left, and so is the row itself
    have hsome : row ∈ (w'.within cap rows).filter fun other => w'.partition other = w'.partition row := by
      simp [within, hrow, hin]
    have hle : (rows.filter fun other => w.partition other = w.partition row ∧ w.order row < w.order other).length ≤
        (((w'.within cap rows).filter fun other => w'.partition other = w'.partition row).filter fun other =>
          w.order row < w.order other).length := by
      rw [within, List.filter_filter, List.filter_filter, ← List.countP_eq_length_filter, ← List.countP_eq_length_filter]
      apply List.countP_mono_left
      intro other hother hover
      simp only [Bool.and_eq_true, decide_eq_true_eq] at hover ⊢
      rw [hpartition] at hover
      refine ⟨⟨hover.2, hover.1⟩, ?_⟩
      by_contra hout
      exact lt_asymm hover.2 (habove row hrow other hother hover.1 hin (not_le.mp hout))
    have hself : ¬ decide (w.order row < w.order row) = true := by simp
    have hlt := (@List.length_filter_lt_length_iff_exists _ (fun other => decide (w.order row < w.order other)) _).mpr
      ⟨row, hsome, hself⟩
    rw [row_number]
    omega

end Orders

end Window

end sql
