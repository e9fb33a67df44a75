import Iac.Collections.FirstDifference
import Iac.Core.Timestamp
import Mathlib.Data.Char
import Mathlib.Data.String.Basic
import Mathlib.Algebra.BigOperators.Group.List.Basic
import Mathlib.Algebra.GroupWithZero.Nat

open first_difference

namespace jiff

theorem digit_lt {m n : Nat} (h : m % 10 < n % 10) : digit m < digit n := by
  have hall : ∀ j : Fin 10, ∀ i : Fin 10, i < j → Char.ofNat (48 + i) < Char.ofNat (48 + j) := by decide
  exact hall ⟨n % 10, Nat.mod_lt _ (by decide)⟩ ⟨m % 10, Nat.mod_lt _ (by decide)⟩ h

theorem digit_ge (n : Nat) : '0' ≤ digit n := by
  have hall : ∀ i : Fin 10, '0' ≤ Char.ofNat (48 + i) := by decide
  exact hall ⟨n % 10, Nat.mod_lt _ (by decide)⟩

theorem mem_padded {width n : Nat} {c : Char} (h : c ∈ padded width n) : '0' ≤ c := by
  induction width generalizing n with
  | zero => simp [padded] at h
  | succ width ih =>
    obtain h | h := List.mem_append.mp h
    · exact ih h
    · rw [List.mem_singleton.mp h]
      exact digit_ge n

/-- Numbers of one width are in the order of their texts. -/
theorem padded_before {width m n : Nat} (h : m < n) (hn : n < 10 ^ width) :
    Before (padded width m) (padded width n) := by
  induction width generalizing m n with
  | zero => omega
  | succ width ih =>
    have hpow : 10 ^ (width + 1) = 10 * 10 ^ width := by rw [Nat.pow_succ, Nat.mul_comm]
    rw [padded, padded]
    by_cases hhead : m / 10 < n / 10
    · exact (ih hhead (by omega)).append _ _
    · have heq : m / 10 = n / 10 := by omega
      rw [heq]
      exact (before_of_lt (digit_lt (by omega)) [] []).prepend _

theorem start_le_locate (len : Nat → Nat) (fuel start n : Nat) : start ≤ (locate len fuel start n).1 := by
  induction fuel generalizing start n with
  | zero => exact Nat.le_refl _
  | succ fuel ih =>
    rw [locate]
    split_ifs
    · exact Nat.le_refl _
    · exact Nat.le_of_succ_le (ih (start + 1) _)

/-- The later of two points is in a later period, or further into the same one. -/
theorem locate_lt (len : Nat → Nat) (fuel start : Nat) {m n : Nat} (h : m < n) :
    (locate len fuel start m).1 < (locate len fuel start n).1 ∨
      (locate len fuel start m).1 = (locate len fuel start n).1 ∧
        (locate len fuel start m).2 < (locate len fuel start n).2 := by
  induction fuel generalizing start m n with
  | zero => exact .inr ⟨rfl, h⟩
  | succ fuel ih =>
    rw [locate, locate]
    split_ifs with hm hn
    · exact .inr ⟨rfl, h⟩
    · have hstart := start_le_locate len fuel (start + 1) (n - len start)
      exact .inl (by simp only; omega)
    · omega
    · exact ih (start + 1) (by omega)

/-- A point before the end of the last period is inside the period it is located in. -/
theorem locate_inside (len : Nat → Nat) (fuel start : Nat) {n : Nat}
    (h : n < ((List.range' start fuel).map len).sum) :
    (locate len fuel start n).1 < start + fuel ∧
      (locate len fuel start n).2 < len (locate len fuel start n).1 := by
  induction fuel generalizing start n with
  | zero => simp at h
  | succ fuel ih =>
    rw [locate]
    split_ifs with hn
    · exact ⟨by simp, hn⟩
    · rw [List.range'_succ, List.map_cons, List.sum_cons] at h
      obtain ⟨hlt, hinside⟩ := ih (start + 1) (by omega : n - len start < _)
      exact ⟨by omega, hinside⟩

theorem days_in_year_eq (year : Nat) : days_in_year year = ((List.range' 1 12).map (days_in_month year)).sum := by
  cases h : is_leap year <;> simp [days_in_year, days_in_month, h, List.range']

theorem days_per_cycle_eq : days_per_cycle.toNat = ((List.range' 0 400).map days_in_year).sum := by
  set_option maxRecDepth 2000 in decide

theorem days_in_month_le (year month : Nat) : days_in_month year month ≤ 31 := by
  simp only [days_in_month]
  split <;> (try split_ifs) <;> omega

private theorem year_of_cycle_lt (day : Int) :
    (locate days_in_year 400 0 (day % days_per_cycle).toNat).1 < 400 ∧
      (locate days_in_year 400 0 (day % days_per_cycle).toNat).2 <
        days_in_year (locate days_in_year 400 0 (day % days_per_cycle).toNat).1 := by
  have hcycle : (day % days_per_cycle).toNat < days_per_cycle.toNat := by
    simp only [days_per_cycle]
    omega
  rw [days_per_cycle_eq] at hcycle
  simpa only [Nat.zero_add] using locate_inside days_in_year 400 0 hcycle

theorem civil_date_bounds (day : Int) :
    let (year, month, day_of_month) := civil_date day
    400 * (day / days_per_cycle) ≤ year ∧ year < 400 * (day / days_per_cycle) + 400 ∧ month < 13 ∧ day_of_month ≤ 31 := by
  have hyear := year_of_cycle_lt day
  simp only [civil_date]
  generalize locate days_in_year 400 0 (day % days_per_cycle).toNat = located at hyear
  have hmonth := locate_inside (days_in_month located.1) 12 1 (hyear.2.trans_eq (days_in_year_eq located.1))
  generalize locate (days_in_month located.1) 12 1 located.2 = located' at hmonth
  have hle := days_in_month_le located.1 located'.1
  refine ⟨?_, ?_, hmonth.1, ?_⟩ <;> omega

/-- A later day has a later date. -/
theorem civil_date_lt {day day' : Int} (h : day < day') :
    let (year, month, day_of_month) := civil_date day
    let (year', month', day_of_month') := civil_date day'
    year < year' ∨ year = year' ∧ (month < month' ∨ month = month' ∧ day_of_month < day_of_month') := by
  by_cases hcycle : day / days_per_cycle < day' / days_per_cycle
  · have hbefore := (civil_date_bounds day).2.1
    have hafter := (civil_date_bounds day').1
    exact .inl (by omega)
  · have heq : day / days_per_cycle = day' / days_per_cycle := by
      have hmono := Int.ediv_le_ediv (by decide : (0 : Int) < days_per_cycle) h.le
      omega
    have hday : (day % days_per_cycle).toNat < (day' % days_per_cycle).toNat := by
      simp only [days_per_cycle] at heq ⊢
      omega
    simp only [civil_date, heq]
    obtain hyear | ⟨hyear, hday_of_year⟩ := locate_lt days_in_year 400 0 hday
    · exact .inl (by omega)
    · rw [hyear]
      refine .inr ⟨rfl, ?_⟩
      rcases locate_lt (days_in_month (locate days_in_year 400 0 (day' % days_per_cycle).toNat).1) 12 1 hday_of_year with
        hmonth | ⟨hmonth, hlt⟩
      · exact .inl hmonth
      · exact .inr ⟨hmonth, by omega⟩

/-- The texts of two dates of the years 0000 to 9999 are in the order of the dates. -/
private theorem date_before {year year' : Int} {month month' day day' : Nat} (rest rest' : List Char)
    (hyear : 0 ≤ year) (hyear' : year' ≤ 9999) (hmonth' : month' < 100) (hday' : day' < 100)
    (h : year < year' ∨ year = year' ∧ (month < month' ∨ month = month' ∧ day < day')) :
    Before (year_text year ++ '-' :: padded 2 month ++ '-' :: padded 2 day ++ rest)
      (year_text year' ++ '-' :: padded 2 month' ++ '-' :: padded 2 day' ++ rest') := by
  have htext (y : Int) (hy : 0 ≤ y) : year_text y = padded 4 y.toNat := by rw [year_text, if_neg (by omega)]
  simp only [List.append_assoc, List.cons_append]
  obtain hlt | ⟨rfl, hlt | ⟨rfl, hlt⟩⟩ := h
  · rw [htext year hyear, htext year' (by omega)]
    exact (@padded_before 4 _ _ (by omega) (by omega)).append _ _
  · exact (((@padded_before 2 _ _ hlt (by omega)).append _ _).prepend ['-']).prepend _
  · refine (Before.prepend ?_ ['-']).prepend _
    exact (((@padded_before 2 _ _ hlt (by omega)).append _ _).prepend ['-']).prepend (padded 2 month)

private theorem clock_before {time time' : Nat} (h : time < time') (hday : time' < 86400) :
    Before (clock_text time) (clock_text time') := by
  simp only [clock_text, List.append_assoc, List.cons_append]
  by_cases hhour : time / 3600 < time' / 3600
  · exact (@padded_before 2 _ _ hhour (by omega)).append _ _
  · have heq : time / 3600 = time' / 3600 := by omega
    rw [heq]
    refine (Before.prepend ?_ [':']).prepend _
    by_cases hminute : time / 60 % 60 < time' / 60 % 60
    · exact (@padded_before 2 _ _ hminute (by omega)).append _ _
    · have heq' : time / 60 % 60 = time' / 60 % 60 := by omega
      have hhours := Nat.div_div_eq_div_mul time 60 60
      have hhours' := Nat.div_div_eq_div_mul time' 60 60
      rw [heq']
      refine (Before.prepend ?_ [':']).prepend (padded 2 (time' / 60 % 60))
      exact @padded_before 2 _ _ (by omega) (by omega)

/-- The texts of two seconds of the years 0000 to 9999 are in the order of the seconds. -/
theorem civil_before {second second' : Int} (hera : 0 ≤ second) (h : second < second')
    (hmax : second' ≤ max_nanos / nanos_per_second) : Before (civil second) (civil second') := by
  have hbounds := civil_date_bounds (second / seconds_per_day)
  have hbounds' := civil_date_bounds (second' / seconds_per_day)
  simp only [civil]
  by_cases hday : second / seconds_per_day < second' / seconds_per_day
  · refine date_before _ _ ?_ ?_ ?_ ?_ (civil_date_lt hday)
    · simp only [seconds_per_day, days_per_cycle] at hbounds ⊢
      omega
    · simp only [seconds_per_day, days_per_cycle, max_nanos, nanos_per_second] at hbounds' hmax ⊢
      omega
    · omega
    · omega
  · simp only [seconds_per_day] at hday ⊢
    have heq : second / 86400 = second' / 86400 := by omega
    rw [heq]
    refine Before.prepend ?_ _
    exact (clock_before (by omega) (by omega)).prepend ['T']

/-- A second before the year 0000 comes first: its text starts with a minus sign. -/
theorem civil_before_of_neg {second second' : Int} (h : second < 0) (h' : 0 ≤ second') :
    Before (civil second) (civil second') := by
  have hneg : (civil_date (second / seconds_per_day)).1 < 0 := by
    have hbounds := civil_date_bounds (second / seconds_per_day)
    simp only [seconds_per_day, days_per_cycle] at hbounds ⊢
    omega
  have hpos : ¬ (civil_date (second' / seconds_per_day)).1 < 0 := by
    have hbounds := civil_date_bounds (second' / seconds_per_day)
    simp only [seconds_per_day, days_per_cycle] at hbounds ⊢
    omega
  simp only [civil, year_text, if_pos hneg, if_neg hpos]
  cases hyear : padded 4 (civil_date (second' / seconds_per_day)).1.toNat with
  | nil => simp [padded] at hyear
  | cons d rest =>
    have hdigit : '0' ≤ d := mem_padded (hyear ▸ List.mem_cons_self)
    exact before_of_lt (lt_of_lt_of_le (by decide) hdigit) _ _

private theorem fraction_eq (subsec : Nat) : fraction subsec = (padded 9 subsec).rdropWhile (· == '0') := rfl

/-- The text of `cutoff` is that of `t` with the last digits cut off. -/
def Truncates (cutoff t : Timestamp) : Prop :=
  cutoff.second = t.second ∧ fraction cutoff.subsec <+: fraction t.subsec ∧ fraction cutoff.subsec ≠ fraction t.subsec

instance (cutoff t : Timestamp) : Decidable (Truncates cutoff t) :=
  inferInstanceAs (Decidable (_ ∧ _ ∧ _))

private theorem fraction_text_before {m n : Nat} (h : m < n) (hn : n < 10 ^ 9) :
    Before (fraction_text m) (fraction_text n) ∨ fraction m <+: fraction n ∧ fraction m ≠ fraction n := by
  rw [fraction_eq, fraction_eq]
  refine ((padded_before h hn).rdropWhile fun x hx y _ hlt => ?_).imp_left fun hbefore => ?_
  · have hdigit : '0' < y := lt_of_le_of_lt (mem_padded hx) hlt
    simpa using hdigit.ne'
  · rw [← fraction_eq, ← fraction_eq] at hbefore
    have hsome : fraction m ≠ [] ∧ fraction n ≠ [] := by
      obtain ⟨common, x, y, rest, rest', hm, hn, -⟩ := hbefore
      simp [hm, hn]
    rw [fraction_text, fraction_text, if_neg (by simp [hsome.1]), if_neg (by simp [hsome.2])]
    have hprepend := hbefore.prepend ['.']
    rwa [List.singleton_append, List.singleton_append] at hprepend

theorem Timestamp.subsec_lt (t : Timestamp) : t.subsec < 10 ^ 9 := by
  simp only [Timestamp.subsec, nanos_per_second]
  omega

/-- An instant of the years 0000 to 9999 that the database takes for the
earlier one by its text is the earlier one, unless the other text is cut short. -/
theorem lt_of_to_string_lt {t cutoff : Timestamp} (hera : 0 ≤ t.nanos) (h : t.to_string < cutoff.to_string) :
    t.nanos < cutoff.nanos ∨ Truncates cutoff t := by
  have hsecond : 0 ≤ t.second := Int.ediv_nonneg hera (by decide)
  have hlt : civil t.second ++ (fraction_text t.subsec ++ ['Z']) <
      civil cutoff.second ++ (fraction_text cutoff.subsec ++ ['Z']) := by
    simpa only [Timestamp.to_string, String.lt_iff_toList_lt, String.toList_ofList] using h
  have hnot : ¬ Before (civil cutoff.second) (civil t.second) := fun hbefore => (hbefore.append _ _).not_lt hlt
  obtain hearlier | heq | hgt := lt_trichotomy t.second cutoff.second
  · simp only [Timestamp.second, nanos_per_second] at hearlier
    exact .inl (by omega)
  · rw [heq] at hlt
    obtain hearlier | hsame | hgt := lt_trichotomy t.subsec cutoff.subsec
    · simp only [Timestamp.second, Timestamp.subsec, nanos_per_second] at heq hearlier
      exact .inl (by omega)
    · rw [hsame] at hlt
      exact absurd hlt (lt_irrefl _)
    · refine .inr ⟨heq.symm, (fraction_text_before hgt t.subsec_lt).resolve_left fun hbefore => ?_⟩
      exact ((hbefore.append ['Z'] ['Z']).prepend (civil cutoff.second)).not_lt hlt
  · by_cases hneg : cutoff.second < 0
    · exact absurd (civil_before_of_neg hneg hsecond) hnot
    · refine absurd (civil_before (by omega) hgt ?_) hnot
      exact Int.ediv_le_ediv (by decide) t.in_range.2

private theorem fraction_text_injective {m n : Nat} (hm : m < 10 ^ 9) (hn : n < 10 ^ 9)
    (h : fraction_text m = fraction_text n) : m = n := by
  have hne {m n : Nat} (hlt : m < n) (hn : n < 10 ^ 9) : fraction_text m ≠ fraction_text n := by
    intro heq
    obtain hbefore | ⟨-, hfraction⟩ := fraction_text_before hlt hn
    · rw [heq] at hbefore
      exact hbefore.lt.ne rfl
    · refine hfraction ?_
      simp only [fraction_text, List.isEmpty_iff] at heq
      split_ifs at heq with hnone hnone'
      · rw [hnone, hnone']
      · exact (List.cons.inj heq).2
  obtain hlt | heq | hgt := Nat.lt_trichotomy m n
  · exact absurd h (hne hlt hn)
  · exact heq
  · exact absurd h.symm (hne hgt hm)

/-- The texts of two dates before the year 0000 differ somewhere: the earlier
year has the greater number, but the months and the days count forwards. -/
private theorem date_apart_of_neg {year year' : Int} {month month' day day' : Nat} (rest rest' : List Char)
    (hyear : -999999 ≤ year) (hyear' : year' < 0) (hmonth' : month' < 100) (hday' : day' < 100)
    (h : year < year' ∨ year = year' ∧ (month < month' ∨ month = month' ∧ day < day')) :
    Apart (year_text year ++ '-' :: padded 2 month ++ '-' :: padded 2 day ++ rest)
      (year_text year' ++ '-' :: padded 2 month' ++ '-' :: padded 2 day' ++ rest') := by
  have htext (y : Int) (hy : y < 0) : year_text y = '-' :: padded 6 y.natAbs := by rw [year_text, if_pos hy]
  simp only [List.append_assoc, List.cons_append]
  obtain hlt | ⟨rfl, hlt | ⟨rfl, hlt⟩⟩ := h
  · rw [htext year (by omega), htext year' hyear']
    have hnumber : Before (padded 6 year'.natAbs) (padded 6 year.natAbs) := padded_before (by omega) (by omega)
    exact .inr ((hnumber.prepend ['-']).append _ _)
  · exact .inl ((((@padded_before 2 _ _ hlt (by omega)).append _ _).prepend ['-']).prepend _)
  · refine .inl ((Before.prepend ?_ ['-']).prepend _)
    exact (((@padded_before 2 _ _ hlt (by omega)).append _ _).prepend ['-']).prepend (padded 2 month)

private theorem civil_apart {t u : Timestamp} (h : t.second < u.second) : Apart (civil t.second) (civil u.second) := by
  have hmax : u.second ≤ max_nanos / nanos_per_second := Int.ediv_le_ediv (by decide) u.in_range.2
  have hmin : min_nanos / nanos_per_second ≤ t.second := Int.ediv_le_ediv (by decide) t.in_range.1
  by_cases hera : 0 ≤ t.second
  · exact .inl (civil_before hera h hmax)
  · by_cases hera' : 0 ≤ u.second
    · exact .inl (civil_before_of_neg (by omega) hera')
    · have hbounds := civil_date_bounds (t.second / seconds_per_day)
      have hbounds' := civil_date_bounds (u.second / seconds_per_day)
      simp only [civil]
      by_cases hday : t.second / seconds_per_day < u.second / seconds_per_day
      · refine date_apart_of_neg _ _ ?_ ?_ ?_ ?_ (civil_date_lt hday)
        · simp only [seconds_per_day, days_per_cycle, min_nanos, nanos_per_second] at hbounds hmin ⊢
          omega
        · simp only [seconds_per_day, days_per_cycle] at hbounds' ⊢
          omega
        · omega
        · omega
      · simp only [seconds_per_day] at hday ⊢
        have heq : t.second / 86400 = u.second / 86400 := by omega
        rw [heq]
        refine .inl (Before.prepend ?_ _)
        exact (clock_before (by omega) (by omega)).prepend ['T']

/-- Two instants have different texts. -/
theorem to_string_injective : Function.Injective Timestamp.to_string := by
  intro t u h
  have htext : civil t.second ++ (fraction_text t.subsec ++ ['Z']) = civil u.second ++ (fraction_text u.subsec ++ ['Z']) :=
    String.ofList_injective h
  obtain hearlier | heq | hlater := lt_trichotomy t.second u.second
  · exact absurd htext ((civil_apart hearlier).append_ne _ _)
  · rw [heq] at htext
    have hfraction := List.append_cancel_right (List.append_cancel_left htext)
    have hsubsec := fraction_text_injective t.subsec_lt u.subsec_lt hfraction
    have hnanos : t.nanos = u.nanos := by
      simp only [Timestamp.second, Timestamp.subsec, nanos_per_second] at heq hsubsec
      omega
    cases t
    cases u
    simpa using hnanos
  · exact absurd htext.symm ((civil_apart hlater).append_ne _ _)

theorem digit_le (n : Nat) : digit n ≤ '9' := by
  have hall : ∀ i : Fin 10, Char.ofNat (48 + i) ≤ '9' := by decide
  exact hall ⟨n % 10, Nat.mod_lt _ (by decide)⟩

theorem le_of_mem_padded {width n : Nat} {c : Char} (h : c ∈ padded width n) : c ≤ '9' := by
  induction width generalizing n with
  | zero => simp [padded] at h
  | succ width ih =>
    obtain h | h := List.mem_append.mp h
    · exact ih h
    · rw [List.mem_singleton.mp h]
      exact digit_le n

private theorem le_of_mem_fraction {subsec : Nat} {c : Char} (h : c ∈ fraction subsec) : c ≤ '9' :=
  le_of_mem_padded ((List.rdropWhile_prefix (· == '0') (padded 9 subsec)).subset (fraction_eq subsec ▸ h))

private theorem fraction_text_of_fraction {m n : Nat} (h : fraction m <+: fraction n) :
    fraction_text m <+: fraction_text n := by
  by_cases hm : fraction m = []
  · simp [fraction_text, hm]
  · have hn : fraction n ≠ [] := fun hnone => hm (List.prefix_nil.mp (hnone ▸ h))
    rw [fraction_text, fraction_text, if_neg (by simpa using hm), if_neg (by simpa using hn)]
    exact List.cons_prefix_cons.mpr ⟨rfl, h⟩

section Truncated

variable {t u : Timestamp}

/-- A text that is cut short stands for the earlier instant. -/
theorem Truncates.nanos_lt (h : Truncates t u) : t.nanos < u.nanos := by
  obtain ⟨hsecond, hfraction, hne⟩ := h
  have hsubsec : t.subsec < u.subsec := by
    by_contra hnot
    obtain hlt | heq := Nat.lt_or_eq_of_le (Nat.le_of_not_lt hnot)
    · obtain hbefore | ⟨hfraction', -⟩ := fraction_text_before hlt t.subsec_lt
      · exact hbefore.not_prefix (fraction_text_of_fraction hfraction)
      · exact hne (hfraction.eq_of_length (Nat.le_antisymm hfraction.length_le hfraction'.length_le))
    · rw [heq] at hne
      exact hne rfl
  simp only [Timestamp.second, Timestamp.subsec, nanos_per_second] at hsecond hsubsec
  omega

/-- And it comes last of the two: every digit and the point are before the `Z`. -/
theorem Truncates.to_string_lt (h : Truncates t u) : u.to_string < t.to_string := by
  obtain ⟨hsecond, ⟨more, hmore⟩, hne⟩ := h
  have hlast : Before (fraction_text u.subsec ++ ['Z']) (fraction_text t.subsec ++ ['Z']) := by
    cases more with
    | nil => exact absurd (by simpa using hmore) hne
    | cons d rest =>
      have hdigit : d ≤ '9' := le_of_mem_fraction (hmore ▸ List.mem_append_right _ List.mem_cons_self)
      have hnext : Before (d :: rest ++ ['Z']) ['Z'] := before_of_lt (lt_of_le_of_lt hdigit (by decide)) _ _
      have hu : fraction_text u.subsec = '.' :: (fraction t.subsec ++ d :: rest) := by
        rw [fraction_text, ← hmore, if_neg (by simp)]
      rw [hu]
      by_cases hwhole : fraction t.subsec = []
      · rw [fraction_text, if_pos (by simp [hwhole])]
        exact before_of_lt (by decide) _ _
      · rw [fraction_text, if_neg (by simpa using hwhole)]
        simpa using (hnext.prepend (fraction t.subsec)).prepend ['.']
  have hbefore := hlast.prepend (civil t.second)
  rw [Timestamp.to_string, Timestamp.to_string, String.lt_iff_toList_lt, String.toList_ofList, String.toList_ofList, ← hsecond]
  exact hbefore.lt

private theorem to_string_lt_of_before (h : Before (civil t.second ++ (fraction_text t.subsec ++ ['Z']))
    (civil u.second ++ (fraction_text u.subsec ++ ['Z']))) : t.to_string < u.to_string := by
  rw [Timestamp.to_string, Timestamp.to_string, String.lt_iff_toList_lt, String.toList_ofList, String.toList_ofList]
  exact h.lt

private theorem civil_before_of_lt (hera : 0 ≤ t.nanos ∨ 0 ≤ u.nanos) (h : t.second < u.second) :
    Before (civil t.second) (civil u.second) := by
  by_cases hneg : t.second < 0
  · have hlater : 0 ≤ u.second := by
      simp only [Timestamp.second, nanos_per_second] at h hneg ⊢
      omega
    exact civil_before_of_neg hneg hlater
  · exact civil_before (by omega) h (Int.ediv_le_ediv (by decide) u.in_range.2)

/-- The earlier of two instants has the first text, unless it is cut short. -/
theorem to_string_lt_of_nanos_lt (hera : 0 ≤ t.nanos ∨ 0 ≤ u.nanos) (h : t.nanos < u.nanos) :
    t.to_string < u.to_string ∨ Truncates t u := by
  have hseconds : t.second ≤ u.second := Int.ediv_le_ediv (by decide) h.le
  obtain hlt | heq := hseconds.lt_or_eq
  · exact .inl (to_string_lt_of_before ((civil_before_of_lt hera hlt).append _ _))
  · have hsubsec : t.subsec < u.subsec := by
      simp only [Timestamp.second, Timestamp.subsec, nanos_per_second] at heq ⊢
      omega
    obtain hbefore | hfraction := fraction_text_before hsubsec u.subsec_lt
    · refine .inl (to_string_lt_of_before ?_)
      rw [heq]
      exact (hbefore.append ['Z'] ['Z']).prepend (civil u.second)
    · exact .inr ⟨heq, hfraction⟩

/-- What comes before a text that is cut short comes before the whole text. -/
theorem Truncates.lt_of_lt {s : Timestamp} (h : Truncates u s) (hera : 0 ≤ t.nanos ∨ 0 ≤ u.nanos)
    (hearlier : t.nanos < u.nanos) (htext : t.to_string < u.to_string) : t.to_string < s.to_string := by
  obtain ⟨hsecond, hfraction, -⟩ := h
  apply to_string_lt_of_before
  rw [← hsecond]
  have hseconds : t.second ≤ u.second := Int.ediv_le_ediv (by decide) hearlier.le
  obtain hlt | heq := hseconds.lt_or_eq
  · exact (civil_before_of_lt hera hlt).append _ _
  · have hsubsec : t.subsec < u.subsec := by
      simp only [Timestamp.second, Timestamp.subsec, nanos_per_second] at heq ⊢
      omega
    have hbefore := (fraction_text_before hsubsec u.subsec_lt).resolve_right fun hshort =>
      lt_asymm htext (Truncates.to_string_lt ⟨heq, hshort⟩)
    obtain ⟨more, hmore⟩ := fraction_text_of_fraction hfraction
    rw [heq, ← hmore, List.append_assoc]
    exact (hbefore.append ['Z'] (more ++ ['Z'])).prepend (civil u.second)

theorem eq_of_nanos_eq (h : t.nanos = u.nanos) : t = u := by
  cases t
  cases u
  cases h
  rfl

/-- Which of two texts comes first. -/
theorem to_string_lt_iff (hera : 0 ≤ t.nanos ∨ 0 ≤ u.nanos) :
    t.to_string < u.to_string ↔ t.nanos < u.nanos ∧ ¬ Truncates t u ∨ Truncates u t := by
  constructor
  · intro htext
    obtain hearlier | hsame | hlater := lt_trichotomy t.nanos u.nanos
    · exact .inl ⟨hearlier, fun htruncates => lt_asymm htext htruncates.to_string_lt⟩
    · obtain rfl := eq_of_nanos_eq hsame
      exact absurd htext (lt_irrefl _)
    · exact .inr ((to_string_lt_of_nanos_lt hera.symm hlater).resolve_left (lt_asymm htext))
  · rintro (⟨hearlier, hkept⟩ | htruncates)
    · exact (to_string_lt_of_nanos_lt hera hearlier).resolve_right hkept
    · exact htruncates.to_string_lt

/-- Two texts are in the order of their instants exactly when neither is the other one cut short. -/
theorem text_order_iff (hera : 0 ≤ t.nanos ∨ 0 ≤ u.nanos) :
    (t.to_string < u.to_string ↔ t.nanos < u.nanos) ↔ ¬ Truncates t u ∧ ¬ Truncates u t := by
  rw [to_string_lt_iff hera]
  constructor
  · intro h
    refine ⟨fun htruncates => ?_, fun htruncates => lt_asymm htruncates.nanos_lt (h.mp (.inr htruncates))⟩
    obtain ⟨-, hkept⟩ | hback := h.mpr htruncates.nanos_lt
    · exact hkept htruncates
    · exact lt_asymm htruncates.nanos_lt hback.nanos_lt
  · rintro ⟨hkept, hkept'⟩
    exact ⟨fun h => (h.resolve_right hkept').1, fun h => .inl ⟨h, hkept⟩⟩

end Truncated

theorem minus_seconds_nanos {t shifted : Timestamp} {seconds : Int} (h : t.minus_seconds seconds = some shifted) :
    shifted.nanos = t.nanos - seconds * nanos_per_second := by
  simp only [Timestamp.minus_seconds] at h
  split_ifs at h
  exact (congrArg Timestamp.nanos (Option.some.inj h)).symm

end jiff
