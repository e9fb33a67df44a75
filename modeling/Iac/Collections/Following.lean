import Iac.Collections.Polling
import Mathlib.Data.List.DropRight

open polling

namespace following

variable {R : Type}

/-- A follower asks for a page and is answered from the rows that the log had then. -/
inductive Phase (R : Type) where
  | resting
  | asked (rows : List R)
  | ended

/-- The visible log and one follower of it. No row below `floor` will become
visible any more. `since` is the log that the first page was read from, before
which there is no cursor. -/
structure Tail (R : Type) where
  log : List R
  floor : Nat
  phase : Phase R
  since : Option (List R)
  cursor : Option Nat
  printed : List R

section Model

variable (id : R → Nat) (wanted : R → Bool) (size : Option Nat → Nat)

/-- The wanted rows behind the cursor. -/
def behind (cursor : Option Nat) (rows : List R) : List R :=
  rows.filter fun r => wanted r && cursor.all fun c => c < id r

/-- The newest of them. -/
def page (cursor : Option Nat) (rows : List R) : List R :=
  (behind id wanted cursor rows).rtake (size cursor)

/-- Wanted rows that became visible after the first page was read. -/
def Tail.Due (T : Tail R) (r : R) : Prop :=
  r ∈ T.log ∧ wanted r = true ∧ ∃ old, T.since = some old ∧ r ∉ old

/-- A page behind a cursor leaves nothing out. -/
def Tail.Whole (T : Tail R) : Prop :=
  ∀ c rows, T.cursor = some c → T.phase = .asked rows → (behind id wanted (some c) rows).length ≤ size (some c)

inductive Step (guard : Tail R → Prop) (T : Tail R) : Tail R → Prop where
  | grow (rows : List R) (floor : Nat) (hsorted : rows.Pairwise fun a b => id a < id b)
      (hnew : ∀ r ∈ rows, T.floor ≤ id r ∧ id r < floor) (hfloor : T.floor ≤ floor) :
      Step guard T { T with log := T.log ++ rows, floor := floor }
  | ask (hphase : T.phase = .resting) :
      Step guard T { T with phase := .asked T.log, since := if T.cursor.isNone then some T.log else T.since }
  | take (rows : List R) (hphase : T.phase = .asked rows) (hguard : guard T) :
      Step guard T { T with
        phase := .resting
        cursor := some (last_id id (T.cursor.getD 0) (page id wanted size T.cursor rows))
        printed := T.printed ++ page id wanted size T.cursor rows }
  | retry : Step guard T { T with phase := .resting }
  | stop : Step guard T { T with phase := .ended }

/-- The log is sorted, a page is read from a part of it that nothing will be
added to, and what is printed is sorted and not behind the cursor. -/
structure Ordered (T : Tail R) : Prop where
  sorted : T.log.Pairwise fun a b => id a < id b
  below : ∀ r ∈ T.log, id r < T.floor
  positive : 0 < T.floor
  cursor_below : ∀ c, T.cursor = some c → c < T.floor
  asked : ∀ rows, T.phase = .asked rows → rows <+: T.log
  first : ∀ rows, T.phase = .asked rows → T.cursor = none → T.since = some rows
  later : ∀ old, T.since = some old → ∀ r ∈ T.log, r ∉ old → 0 < id r
  covered : ∀ c, T.cursor = some c → ∃ old, T.since = some old ∧ ∀ r ∈ old, wanted r = true → id r ≤ c
  fresh : T.cursor = none → T.printed = []
  printed_sorted : T.printed.Pairwise fun a b => id a < id b
  printed_le : ∀ c, T.cursor = some c → ∀ r ∈ T.printed, id r ≤ c

/-- What is due and not behind the cursor has been printed. -/
def Tail.Gapless (T : Tail R) : Prop :=
  ∀ c, T.cursor = some c → ∀ r, T.Due wanted r → id r ≤ c → r ∈ T.printed

end Model

section Page

variable {id : R → Nat} {wanted : R → Bool} {size : Option Nat → Nat} {cursor : Option Nat} {rows : List R}

theorem mem_behind {r : R} : r ∈ behind id wanted cursor rows ↔ r ∈ rows ∧ wanted r = true ∧ ∀ c, cursor = some c → c < id r := by
  cases cursor <;> simp [behind]

theorem behind_sorted (cursor : Option Nat) (h : rows.Pairwise fun a b => id a < id b) :
    (behind id wanted cursor rows).Pairwise fun a b => id a < id b :=
  h.sublist List.filter_sublist

variable (size) in
theorem page_suffix (cursor : Option Nat) (rows : List R) : page id wanted size cursor rows <:+ behind id wanted cursor rows :=
  List.drop_suffix _ _

theorem page_sorted (cursor : Option Nat) (h : rows.Pairwise fun a b => id a < id b) :
    (page id wanted size cursor rows).Pairwise fun a b => id a < id b :=
  (behind_sorted cursor h).sublist (page_suffix size cursor rows).sublist

theorem mem_page {r : R} (h : r ∈ page id wanted size cursor rows) :
    r ∈ rows ∧ wanted r = true ∧ ∀ c, cursor = some c → c < id r :=
  mem_behind.mp ((page_suffix size cursor rows).subset h)

theorem page_eq_behind (h : (behind id wanted cursor rows).length ≤ size cursor) :
    page id wanted size cursor rows = behind id wanted cursor rows := by
  rw [page, List.rtake, Nat.sub_eq_zero_of_le h, List.drop_zero]

/-- No id behind the cursor is after the last one of the page. -/
theorem le_last_id_page (hsize : 0 < size cursor) (hsorted : rows.Pairwise fun a b => id a < id b) {r : R}
    (hr : r ∈ behind id wanted cursor rows) (c : Nat) : id r ≤ last_id id c (page id wanted size cursor rows) := by
  have hpage : page id wanted size cursor rows ≠ [] := by
    have hlength := List.length_pos_of_mem hr
    rw [page, List.rtake, ne_eq, List.drop_eq_nil_iff]
    omega
  have hlast : last_id id c (page id wanted size cursor rows) = last_id id c (behind id wanted cursor rows) := by
    obtain ⟨front, hfront⟩ := page_suffix size cursor rows
    rw [last_id, last_id, ← hfront, List.getLast?_append_of_ne_nil _ hpage]
  rw [hlast]
  exact le_last_id (behind_sorted cursor hsorted) hr

end Page

section Steps

variable {id : R → Nat} {wanted : R → Bool} {size : Option Nat → Nat} {guard : Tail R → Prop} {T U : Tail R}

/-- What is in a sorted log and not after a row of its beginning is in that beginning. -/
theorem mem_of_prefix {rows log : List R} (hbegins : rows <+: log) (hsorted : log.Pairwise fun a b => id a < id b)
    {r last : R} (hlast : last ∈ rows) (hr : r ∈ log) (hle : id r ≤ id last) : r ∈ rows := by
  obtain ⟨rest, rfl⟩ := hbegins
  rw [List.pairwise_append] at hsorted
  refine (List.mem_append.mp hr).resolve_right fun hrest => ?_
  have hlt := hsorted.2.2 last hlast r hrest
  omega

theorem cursor_le_last_id (cursor : Option Nat) (rows : List R) :
    cursor.getD 0 ≤ last_id id (cursor.getD 0) (page id wanted size cursor rows) := by
  obtain ⟨-, hlast⟩ | ⟨r, hr, hlast⟩ := last_id_eq id (cursor.getD 0) (page id wanted size cursor rows)
  · exact Nat.le_of_eq hlast.symm
  · rw [hlast]
    cases hcursor : cursor with
    | none => exact Nat.zero_le _
    | some c => exact Nat.le_of_lt ((mem_page hr).2.2 c hcursor)

theorem Ordered.last_below (h : Ordered id wanted T) {rows : List R} (hphase : T.phase = .asked rows) :
    last_id id (T.cursor.getD 0) (page id wanted size T.cursor rows) < T.floor := by
  obtain ⟨-, hlast⟩ | ⟨r, hr, hlast⟩ := last_id_eq id (T.cursor.getD 0) (page id wanted size T.cursor rows)
  · rw [hlast]
    cases hcursor : T.cursor with
    | none => exact h.positive
    | some c => exact h.cursor_below c hcursor
  · rw [hlast]
    exact h.below r ((h.asked rows hphase).subset (mem_page hr).1)

private theorem Ordered.take (h : Ordered id wanted T) (hfirst : 0 < size none) {rows : List R}
    (hphase : T.phase = .asked rows) : Ordered id wanted { T with
      phase := .resting
      cursor := some (last_id id (T.cursor.getD 0) (page id wanted size T.cursor rows))
      printed := T.printed ++ page id wanted size T.cursor rows } := by
  have hsorted := h.sorted.sublist (h.asked rows hphase).sublist
  refine ⟨h.sorted, h.below, h.positive, fun c hc => ?_, by simp, by simp, h.later, fun c hc => ?_, by simp, ?_, fun c hc r hr => ?_⟩
  · exact Option.some.inj hc ▸ h.last_below hphase
  · obtain rfl := Option.some.inj hc
    cases hcursor : T.cursor with
    | none =>
      refine ⟨rows, h.first rows hphase hcursor, fun r hr hwanted => ?_⟩
      exact le_last_id_page hfirst hsorted (mem_behind.mpr ⟨hr, hwanted, by simp⟩) _
    | some c =>
      obtain ⟨old, hold, hcovered⟩ := h.covered c hcursor
      exact ⟨old, hold, fun r hr hwanted => Nat.le_trans (hcovered r hr hwanted) (cursor_le_last_id (some c) rows)⟩
  · refine List.pairwise_append.mpr ⟨h.printed_sorted, page_sorted _ hsorted, fun a ha b hb => ?_⟩
    cases hcursor : T.cursor with
    | none => simp [h.fresh hcursor] at ha
    | some c => exact Nat.lt_of_le_of_lt (h.printed_le c hcursor a ha) ((mem_page hb).2.2 c hcursor)
  · obtain rfl := Option.some.inj hc
    cases List.mem_append.mp hr with
    | inl hold =>
      cases hcursor : T.cursor with
      | none => simp [h.fresh hcursor] at hold
      | some c => exact Nat.le_trans (h.printed_le c hcursor r hold) (cursor_le_last_id (some c) rows)
    | inr hpage => exact le_last_id (page_sorted _ hsorted) hpage

theorem Ordered.step (h : Ordered id wanted T) (hfirst : 0 < size none) (hstep : Step id wanted size guard T U) :
    Ordered id wanted U := by
  cases hstep with
  | grow rows floor hrows hnew hfloor =>
    refine ⟨?_, fun r hr => ?_, Nat.lt_of_lt_of_le h.positive hfloor, fun c hc => ?_, fun asked hasked => ?_, h.first,
      fun old hold r hr hfresh => ?_, h.covered, h.fresh, h.printed_sorted, h.printed_le⟩
    · refine List.pairwise_append.mpr ⟨h.sorted, hrows, fun a ha b hb => ?_⟩
      exact Nat.lt_of_lt_of_le (h.below a ha) (hnew b hb).1
    · cases List.mem_append.mp hr with
      | inl hold => exact Nat.lt_of_lt_of_le (h.below r hold) hfloor
      | inr hmem => exact (hnew r hmem).2
    · exact Nat.lt_of_lt_of_le (h.cursor_below c hc) hfloor
    · exact (h.asked asked hasked).trans (List.prefix_append _ _)
    · cases List.mem_append.mp hr with
      | inl hmem => exact h.later old hold r hmem hfresh
      | inr hmem => exact Nat.lt_of_lt_of_le h.positive (hnew r hmem).1
  | ask hphase =>
    refine ⟨h.sorted, h.below, h.positive, h.cursor_below, fun rows hrows => ?_, fun rows hrows hcursor => ?_,
      fun old hold r hr hfresh => ?_, fun c hc => ?_, h.fresh, h.printed_sorted, h.printed_le⟩
    · obtain rfl := Phase.asked.inj hrows
      exact List.prefix_refl _
    · obtain rfl := Phase.asked.inj hrows
      exact if_pos (by simp_all)
    · cases hcursor : T.cursor with
      | none =>
        obtain rfl : T.log = old := by simpa [hcursor] using hold
        exact absurd hr hfresh
      | some c => exact h.later old (by simpa [hcursor] using hold) r hr hfresh
    · have hcursor : T.cursor = some c := hc
      simpa [hcursor] using h.covered c hcursor
  | take rows hphase hguard => exact h.take hfirst hphase
  | retry | stop =>
    exact ⟨h.sorted, h.below, h.positive, h.cursor_below, by simp, by simp, h.later, h.covered, h.fresh, h.printed_sorted,
      h.printed_le⟩

/-- As long as no page behind a cursor is cut short there is no gap. -/
theorem Ordered.gapless_step (h : Ordered id wanted T) (hgapless : T.Gapless id wanted)
    (hstep : Step id wanted size (Tail.Whole id wanted size) T U) : U.Gapless id wanted := by
  intro c hc r hdue hle
  cases hstep with
  | grow rows floor hrows hnew hfloor =>
    obtain ⟨hr, hwanted, hsince⟩ := hdue
    cases List.mem_append.mp hr with
    | inl hold => exact hgapless c hc r ⟨hold, hwanted, hsince⟩ hle
    | inr hmem =>
      have hbelow := h.cursor_below c hc
      have hfloor := (hnew r hmem).1
      omega
  | ask hphase =>
    have hcursor : T.cursor = some c := hc
    obtain ⟨hr, hwanted, hsince⟩ := hdue
    exact hgapless c hc r ⟨hr, hwanted, by simpa [hcursor] using hsince⟩ hle
  | take rows hphase hwhole =>
    obtain rfl := Option.some.inj hc
    obtain ⟨hr, hwanted, old, hold, hfresh⟩ := hdue
    have hread (x : R) (hx : x ∈ rows) (hrx : id r ≤ id x) : r ∈ rows :=
      mem_of_prefix (h.asked rows hphase) h.sorted hx hr hrx
    have hlast := last_id_eq id (T.cursor.getD 0) (page id wanted size T.cursor rows)
    cases hcursor : T.cursor with
    | none =>
      obtain rfl : rows = old := Option.some.inj ((h.first rows hphase hcursor).symm.trans hold)
      obtain ⟨-, hlast⟩ | ⟨x, hx, hlast⟩ := hlast
      · have hpos := h.later rows hold r hr hfresh
        have hzero : id r ≤ T.cursor.getD 0 := Nat.le_trans hle (Nat.le_of_eq hlast)
        rw [hcursor, Option.getD_none] at hzero
        omega
      · exact absurd (hread x (mem_page hx).1 (hlast ▸ hle)) hfresh
    | some c =>
      by_cases hbefore : id r ≤ c
      · exact List.mem_append_left _ (hgapless c hcursor r ⟨hr, hwanted, old, hold, hfresh⟩ hbefore)
      · obtain ⟨-, hlast⟩ | ⟨x, hx, hlast⟩ := hlast
        · have hkept : id r ≤ T.cursor.getD 0 := Nat.le_trans hle (Nat.le_of_eq hlast)
          rw [hcursor] at hkept
          exact absurd hkept hbefore
        · refine List.mem_append_right _ ?_
          rw [← hcursor, page_eq_behind (hcursor ▸ hwhole c rows hcursor hphase)]
          refine mem_behind.mpr ⟨hread x (mem_page hx).1 (hlast ▸ hle), hwanted, fun c' hc' => ?_⟩
          obtain rfl : c' = c := Option.some.inj (hc'.symm.trans hcursor)
          omega
  | retry | stop => exact hgapless c hc r hdue hle

/-- A page that is cut short leaves one. -/
theorem Ordered.gap_of_long_page (h : Ordered id wanted T) {rows : List R} {c : Nat} (hphase : T.phase = .asked rows)
    (hcursor : T.cursor = some c) (hsize : 0 < size (some c))
    (hlong : size (some c) < (behind id wanted (some c) rows).length) :
    ∃ r, T.Due wanted r ∧ id r ≤ last_id id c (page id wanted size (some c) rows) ∧
      ∀ x ∈ T.printed ++ page id wanted size (some c) rows, id x ≠ id r := by
  have hbegins := h.asked rows hphase
  have hsorted := h.sorted.sublist hbegins.sublist
  let cut := (behind id wanted (some c) rows).take ((behind id wanted (some c) rows).length - size (some c))
  have hsplit : behind id wanted (some c) rows = cut ++ page id wanted size (some c) rows :=
    (List.take_append_drop _ _).symm
  obtain ⟨r, hr⟩ : ∃ r, r ∈ cut := by
    refine List.exists_mem_of_length_pos ?_
    rw [List.length_take]
    omega
  have hbehind : r ∈ behind id wanted (some c) rows := List.mem_of_mem_take hr
  obtain ⟨hrows, hwanted, hafter⟩ := mem_behind.mp hbehind
  have hafter := hafter c rfl
  obtain ⟨old, hold, hcovered⟩ := h.covered c hcursor
  have hfresh : r ∉ old := fun hmem => by
    have hle := hcovered r hmem hwanted
    omega
  refine ⟨r, ⟨hbegins.subset hrows, hwanted, old, hold, hfresh⟩, le_last_id_page hsize hsorted hbehind c, fun x hx => ?_⟩
  cases List.mem_append.mp hx with
  | inl hbefore =>
    have hle := h.printed_le c hcursor x hbefore
    omega
  | inr hpage =>
    have hdistinct : (behind id wanted (some c) rows).Pairwise fun a b => id a < id b := behind_sorted (some c) hsorted
    rw [hsplit, List.pairwise_append] at hdistinct
    exact Nat.ne_of_gt (hdistinct.2.2 r hr x hpage)

end Steps

end following
