import Iac.Collections.Fallible
import Iac.Core.Numeral
import Iac.Core.Provider
import Iac.Core.Text
import Iac.Core.Timestamp
import Mathlib.Logic.Function.Basic

open jiff

namespace iac_controlplane.maintenance

inductive WindowKind where
  | Absolute
  | Recurring
  deriving DecidableEq, Repr

/-- The counters of the configured windows. -/
structure MaintenanceMetrics where
  per_window_blocked : WindowKind × String → Option UInt64

/-- A window without a counter is skipped. -/
def MaintenanceMetrics.record_window_block (m : MaintenanceMetrics) (kind : WindowKind) (name : String) :
    MaintenanceMetrics :=
  match m.per_window_blocked (kind, name) with
  | some c => ⟨Function.update m.per_window_blocked (kind, name) (some (c + 1))⟩
  | none => m

structure ConfigIssue where
  kind : String
  name : String
  error : String
  deriving DecidableEq, Repr

structure MaintenanceWindow where
  name : String
  environment : String := "*"
  start : String
  end_ : String

structure RecurringMaintenanceWindow where
  name : String
  environment : String := "*"
  weekdays : List String := []
  start_hhmm : String
  end_hhmm : String
  timezone : Option String := none

/-- jiff's reader of timestamps and its database of time zones. -/
structure Libraries where
  parse : String → Except String Timestamp
  get : String → Except String TimeZone

section Configured

variable (libraries : Libraries)

/-- The only error that the windows' `parse` functions return is `Internal`, with this text. -/
def MaintenanceWindow.parse (w : MaintenanceWindow) : Except String (Timestamp × Timestamp) := do
  let start ← (libraries.parse w.start).mapError fun e => "maintenance_window " ++ w.name ++ ": bad start: " ++ e
  let end_ ← (libraries.parse w.end_).mapError fun e => "maintenance_window " ++ w.name ++ ": bad end: " ++ e
  if end_.nanos ≤ start.nanos then .error ("maintenance_window " ++ w.name ++ ": end must be > start")
  else .ok (start, end_)

def parse_hhmm (s : String) : Except String Nat :=
  match iac_core.split_once ':' s.toList with
  | none => .error ("expected HH:MM, got " ++ str.debug s)
  | some (h, m) =>
    match num.from_str_radix 10 num.u32_bound h with
    | none => .error ("bad hour " ++ str.debug (String.ofList h))
    | some hour =>
      match num.from_str_radix 10 num.u32_bound m with
      | none => .error ("bad minute " ++ str.debug (String.ofList m))
      | some minute =>
        if 24 ≤ hour ∨ 60 ≤ minute then .error ("HH:MM out of range: " ++ str.debug s)
        else .ok (hour * 60 + minute)

/-- The letters of the names are the lower case of ASCII letters only. -/
def parse_weekday (s : String) : Option Weekday :=
  match String.ofList (s.toList.map Char.toLower) with
  | "mon" => some .Monday
  | "tue" => some .Tuesday
  | "wed" => some .Wednesday
  | "thu" => some .Thursday
  | "fri" => some .Friday
  | "sat" => some .Saturday
  | "sun" => some .Sunday
  | _ => none

structure RecurringWindowParsed where
  start_min : Nat
  end_min : Nat
  days : List Weekday
  tz : TimeZone

def RecurringMaintenanceWindow.parse_days (w : RecurringMaintenanceWindow) : List String → Except String (List Weekday)
  | [] => .ok []
  | d :: weekdays =>
    match parse_weekday d with
    | none => .error ("recurring_maintenance_window " ++ w.name ++ ": unknown weekday " ++ str.debug d)
    | some wd => (w.parse_days weekdays).map (wd :: ·)

def RecurringMaintenanceWindow.resolve_zone (w : RecurringMaintenanceWindow) : Except String TimeZone :=
  match w.timezone with
  | none => .ok .UTC
  | some "" => .ok .UTC
  | some name => (libraries.get name).mapError fun e =>
      "recurring_maintenance_window " ++ w.name ++ ": unknown timezone " ++ str.debug name ++ ": " ++ e

def RecurringMaintenanceWindow.parse (w : RecurringMaintenanceWindow) : Except String RecurringWindowParsed := do
  let start_min ← (parse_hhmm w.start_hhmm).mapError fun e =>
    "recurring_maintenance_window " ++ w.name ++ ": bad start_hhmm: " ++ e
  let end_min ← (parse_hhmm w.end_hhmm).mapError fun e =>
    "recurring_maintenance_window " ++ w.name ++ ": bad end_hhmm: " ++ e
  if end_min ≤ start_min then
    .error ("recurring_maintenance_window " ++ w.name ++
      ": end_hhmm must be > start_hhmm (split overnight windows into two entries)")
  else
    let days ← w.parse_days w.weekdays
    let tz ← w.resolve_zone libraries
    return ⟨start_min, end_min, days, tz⟩

def collect_config_issues (absolute : List MaintenanceWindow) (recurring : List RecurringMaintenanceWindow) :
    List ConfigIssue :=
  (absolute.filterMap fun w =>
    match w.parse libraries with
    | .error e => some ⟨"maintenance_window", w.name, e⟩
    | .ok _ => none) ++
  recurring.filterMap fun w =>
    match w.parse libraries with
    | .error e => some ⟨"recurring_maintenance_window", w.name, e⟩
    | .ok _ => none

/-- The error `ServiceUnavailable`, the only one that the checks return. -/
structure ServiceUnavailable where
  reason : String
  retry_after_secs : Nat
  deriving DecidableEq, Repr

/-- The seconds until the window closes, at least one and at most a day. -/
def absolute_retry (now end_ : Timestamp) : Nat :=
  max 1 (min (24 * 60 * 60) ((end_.nanos - now.nanos) / nanos_per_second).toNat)

def check (windows : List MaintenanceWindow) (environment : String) (now : Timestamp) (metrics : MaintenanceMetrics) :
    MaintenanceMetrics × Except ServiceUnavailable Unit :=
  match windows with
  | [] => (metrics, .ok ())
  | w :: windows =>
    if w.environment ≠ "*" ∧ w.environment ≠ environment then check windows environment now metrics
    else
      match w.parse libraries with
      | .error _ => check windows environment now metrics
      | .ok (start, end_) =>
        if start.nanos ≤ now.nanos ∧ now.nanos < end_.nanos then
          (metrics.record_window_block .Absolute w.name,
            .error ⟨"maintenance window " ++ str.debug w.name ++ " is active until " ++ w.end_, absolute_retry now end_⟩)
        else check windows environment now metrics

/-- The seconds left of the window; the rest of the running minute is counted once more. -/
def recurring_retry (now_zoned : Zoned) (end_min : Nat) : Nat :=
  let now_minute := now_zoned.hour * 60 + now_zoned.minute
  max ((end_min - now_minute) * 60 + (60 - now_zoned.second)) 1

def check_recurring (windows : List RecurringMaintenanceWindow) (environment : String) (now : Timestamp)
    (metrics : MaintenanceMetrics) : MaintenanceMetrics × Except ServiceUnavailable Unit :=
  match windows with
  | [] => (metrics, .ok ())
  | w :: windows =>
    if w.environment ≠ "*" ∧ w.environment ≠ environment then check_recurring windows environment now metrics
    else
      match w.parse libraries with
      | .error _ => check_recurring windows environment now metrics
      | .ok parsed =>
        let now_zoned := now.to_zoned parsed.tz
        let now_minute := now_zoned.hour * 60 + now_zoned.minute
        if ¬ parsed.days.isEmpty ∧ ¬ parsed.days.contains now_zoned.weekday then
          check_recurring windows environment now metrics
        else if parsed.start_min ≤ now_minute ∧ now_minute < parsed.end_min then
          (metrics.record_window_block .Recurring w.name,
            .error ⟨"recurring maintenance window " ++ str.debug w.name ++ " is active until " ++ w.end_hhmm ++ " " ++
              w.timezone.getD "UTC", recurring_retry now_zoned parsed.end_min⟩)
        else check_recurring windows environment now metrics

/-- The two checks of a submission. -/
def maintenance_gate (absolute : List MaintenanceWindow) (recurring : List RecurringMaintenanceWindow)
    (environment : String) (now : Timestamp) (metrics : MaintenanceMetrics) :
    MaintenanceMetrics × Except ServiceUnavailable Unit :=
  match check libraries absolute environment now metrics with
  | (metrics, .error e) => (metrics, .error e)
  | (metrics, .ok ()) => check_recurring libraries recurring environment now metrics

end Configured

variable {libraries : Libraries} {environment : String} {now : Timestamp} {metrics : MaintenanceMetrics}

/-- The first of the windows of which `p` holds. -/
def First {W : Type} (p : W → Prop) (windows : List W) (w : W) : Prop :=
  ∃ before after, windows = before ++ w :: after ∧ p w ∧ ∀ earlier ∈ before, ¬ p earlier

section First

variable {W : Type} {p : W → Prop} {w first other : W} {windows : List W}

theorem First.head (h : p w) (windows : List W) : First p (w :: windows) w :=
  ⟨[], windows, rfl, h, fun _ hmem => absurd hmem List.not_mem_nil⟩

theorem First.skip (hnot : ¬ p w) (h : First p windows first) : First p (w :: windows) first := by
  obtain ⟨before, after, rfl, hp, hbefore⟩ := h
  refine ⟨w :: before, after, rfl, hp, fun earlier hmem => ?_⟩
  obtain rfl | hmem := List.mem_cons.mp hmem
  · exact hnot
  · exact hbefore earlier hmem

theorem First.mem (h : First p windows first) : first ∈ windows := by
  obtain ⟨before, after, rfl, -⟩ := h
  exact List.mem_append_right _ (List.mem_cons_self ..)

theorem First.unique (h : First p windows first) (hother : First p windows other) : first = other := by
  obtain ⟨before, after, rfl, hp, hbefore⟩ := h
  obtain ⟨before', after', heq, hp', hbefore'⟩ := hother
  obtain ⟨between, rfl, hrest⟩ | ⟨between, rfl, hrest⟩ := List.append_eq_append_iff.mp heq
  · cases between with
    | nil => exact (List.cons.inj hrest).1
    | cons v between =>
      obtain ⟨rfl, -⟩ := List.cons.inj hrest
      exact absurd hp (hbefore' first (List.mem_append_right _ (List.mem_cons_self ..)))
  · cases between with
    | nil => exact (List.cons.inj hrest).1.symm
    | cons v between =>
      obtain ⟨rfl, -⟩ := List.cons.inj hrest
      exact absurd hp' (hbefore other (List.mem_append_right _ (List.mem_cons_self ..)))

end First

/-- The window is well formed, applies to the environment and contains the
instant, and it closes so many nanoseconds later. -/
def MaintenanceWindow.Closes (libraries : Libraries) (environment : String) (now : Timestamp) (left : Int)
    (w : MaintenanceWindow) : Prop :=
  (w.environment = "*" ∨ w.environment = environment) ∧ ∃ start end_, w.parse libraries = .ok (start, end_) ∧
    start.nanos ≤ now.nanos ∧ now.nanos < end_.nanos ∧ left = end_.nanos - now.nanos

/-- The same for a window of a day of its zone. -/
def RecurringMaintenanceWindow.Closes (libraries : Libraries) (environment : String) (now : Timestamp) (left : Int)
    (w : RecurringMaintenanceWindow) : Prop :=
  (w.environment = "*" ∨ w.environment = environment) ∧ ∃ parsed day, w.parse libraries = .ok parsed ∧
    (parsed.days = [] ∨ Weekday.of_day day ∈ parsed.days) ∧ parsed.tz.instant day parsed.start_min ≤ now.nanos ∧
    now.nanos < parsed.tz.instant day parsed.end_min ∧ left = parsed.tz.instant day parsed.end_min - now.nanos

def MaintenanceWindow.Contains (libraries : Libraries) (environment : String) (now : Timestamp)
    (w : MaintenanceWindow) : Prop := ∃ left, w.Closes libraries environment now left

def RecurringMaintenanceWindow.Contains (libraries : Libraries) (environment : String) (now : Timestamp)
    (w : RecurringMaintenanceWindow) : Prop := ∃ left, w.Closes libraries environment now left

/-- At least a second, and at most a second away from the time left. -/
def Near (retry_after_secs : Nat) (left : Int) : Prop :=
  1 ≤ retry_after_secs ∧ left ≤ (retry_after_secs + 1) * nanos_per_second ∧
    (retry_after_secs - 1) * nanos_per_second ≤ left

def day_nanos : Int := 86400 * nanos_per_second

/-- The submission is blocked exactly when a window contains the instant, and
the retry time is near the time that is left of the window that blocks it. -/
structure Honest (libraries : Libraries) (absolute : List MaintenanceWindow)
    (recurring : List RecurringMaintenanceWindow) (environment : String) (now : Timestamp)
    (result : Except ServiceUnavailable Unit) : Prop where
  blocks : (∃ e, result = .error e) ↔ (∃ w ∈ absolute, w.Contains libraries environment now) ∨
    ∃ w ∈ recurring, w.Contains libraries environment now
  absolute_retry : ∀ e w left, result = .error e → First (·.Contains libraries environment now) absolute w →
    w.Closes libraries environment now left → Near e.retry_after_secs (min left day_nanos)
  recurring_retry : ∀ e w left, result = .error e → (∀ w ∈ absolute, ¬ w.Contains libraries environment now) →
    First (·.Contains libraries environment now) recurring w → w.Closes libraries environment now left →
    Near e.retry_after_secs left

/-- What `parse` accepts closes before its day ends. -/
theorem parse_hhmm_lt {s : String} {minute : Nat} (h : parse_hhmm s = .ok minute) : minute < 1440 := by
  unfold parse_hhmm at h
  split at h
  · cases h
  split at h
  · cases h
  split at h
  · cases h
  split at h
  · cases h
  · cases h
    omega

theorem RecurringMaintenanceWindow.parse_bounds {w : RecurringMaintenanceWindow} {parsed : RecurringWindowParsed}
    (h : w.parse libraries = .ok parsed) : parsed.end_min < 1440 := by
  unfold RecurringMaintenanceWindow.parse at h
  cases hstart : parse_hhmm w.start_hhmm with
  | error e => simp [hstart, bind, Except.bind] at h
  | ok start_min =>
    cases hend : parse_hhmm w.end_hhmm with
    | error e => simp [hstart, hend, bind, Except.bind] at h
    | ok end_min =>
      have hlt := parse_hhmm_lt hend
      simp only [hstart, hend, fallible.mapError_ok, bind, Except.bind] at h
      split at h
      · cases h
      cases hdays : w.parse_days w.weekdays with
      | error e => simp [hdays] at h
      | ok days =>
        cases htz : w.resolve_zone libraries with
        | error e => simp [hdays, htz] at h
        | ok tz =>
          simp only [hdays, htz, pure, Except.pure, Except.ok.injEq] at h
          rw [← h]
          exact hlt

/-- A recurring window closes on the current day of its zone. -/
theorem RecurringMaintenanceWindow.closes_iff {w : RecurringMaintenanceWindow} {parsed : RecurringWindowParsed}
    (hparse : w.parse libraries = .ok parsed) (happlies : w.environment = "*" ∨ w.environment = environment) (left : Int) :
    w.Closes libraries environment now left ↔
      (parsed.days = [] ∨ (now.to_zoned parsed.tz).weekday ∈ parsed.days) ∧
      parsed.start_min ≤ (now.to_zoned parsed.tz).hour * 60 + (now.to_zoned parsed.tz).minute ∧
      (now.to_zoned parsed.tz).hour * 60 + (now.to_zoned parsed.tz).minute < parsed.end_min ∧
      left = parsed.tz.instant (now.to_zoned parsed.tz).day parsed.end_min - now.nanos := by
  have hend := parse_bounds hparse
  have hstarts := TimeZone.instant_le_iff now parsed.tz parsed.start_min
  have hends := TimeZone.instant_le_iff now parsed.tz parsed.end_min
  constructor
  · rintro ⟨-, parsed', day, hparse', hday, hfirst, hbefore, hleft⟩
    obtain rfl := Except.ok.inj (hparse.symm.trans hparse')
    obtain rfl := TimeZone.day_unique (by omega) hfirst hbefore
    exact ⟨hday, hstarts.mp hfirst, by omega, hleft⟩
  · rintro ⟨hday, hfirst, hbefore, hleft⟩
    exact ⟨happlies, parsed, (now.to_zoned parsed.tz).day, hparse, hday, hstarts.mpr hfirst, by omega, hleft⟩

theorem not_contains_of_environment {w : MaintenanceWindow} (h : w.environment ≠ "*" ∧ w.environment ≠ environment) :
    ¬ w.Contains libraries environment now :=
  fun ⟨_, happlies, _⟩ => happlies.elim h.1 h.2

theorem not_recurring_contains_of_environment {w : RecurringMaintenanceWindow}
    (h : w.environment ≠ "*" ∧ w.environment ≠ environment) : ¬ w.Contains libraries environment now :=
  fun ⟨_, happlies, _⟩ => happlies.elim h.1 h.2

/-- The check lets the submission pass, or the first window that contains the instant blocks it. -/
theorem check_spec (windows : List MaintenanceWindow) :
    ((∀ w ∈ windows, ¬ w.Contains libraries environment now) ∧
      check libraries windows environment now metrics = (metrics, .ok ())) ∨
    ∃ w start end_ reason, First (·.Contains libraries environment now) windows w ∧
      w.parse libraries = .ok (start, end_) ∧ now.nanos < end_.nanos ∧
      (check libraries windows environment now metrics).2 = .error ⟨reason, absolute_retry now end_⟩ := by
  induction windows with
  | nil => exact .inl ⟨fun _ hmem => absurd hmem List.not_mem_nil, rfl⟩
  | cons w windows ih =>
    have hskip (hnot : ¬ w.Contains libraries environment now)
        (hcheck : check libraries (w :: windows) environment now metrics = check libraries windows environment now metrics) :
        ((∀ w' ∈ w :: windows, ¬ w'.Contains libraries environment now) ∧
          check libraries (w :: windows) environment now metrics = (metrics, .ok ())) ∨
        ∃ first start end_ reason, First (·.Contains libraries environment now) (w :: windows) first ∧
          first.parse libraries = .ok (start, end_) ∧ now.nanos < end_.nanos ∧
          (check libraries (w :: windows) environment now metrics).2 = .error ⟨reason, absolute_retry now end_⟩ := by
      rw [hcheck]
      obtain ⟨hnone, hok⟩ | ⟨first, start, end_, reason, hfirst, hrest⟩ := ih
      · exact .inl ⟨List.forall_mem_cons.mpr ⟨hnot, hnone⟩, hok⟩
      · exact .inr ⟨first, start, end_, reason, hfirst.skip hnot, hrest⟩
    by_cases henv : w.environment ≠ "*" ∧ w.environment ≠ environment
    · exact hskip (not_contains_of_environment henv) (by rw [check, if_pos henv])
    have happlies : w.environment = "*" ∨ w.environment = environment := Decidable.or_iff_not_not_and_not.mpr henv
    cases hparse : w.parse libraries with
    | error e =>
      refine hskip (fun ⟨_, _, _, _, hok, _⟩ => ?_) (by rw [check, if_neg henv, hparse])
      rw [hparse] at hok
      cases hok
    | ok bounds =>
      obtain ⟨start, end_⟩ := bounds
      by_cases hin : start.nanos ≤ now.nanos ∧ now.nanos < end_.nanos
      · have hcontains : w.Contains libraries environment now :=
          ⟨_, happlies, start, end_, hparse, hin.1, hin.2, rfl⟩
        refine .inr ⟨w, start, end_, "maintenance window " ++ str.debug w.name ++ " is active until " ++ w.end_,
          First.head hcontains windows, hparse, hin.2, ?_⟩
        rw [check, if_neg henv, hparse]
        simp only [if_pos hin]
      · refine hskip (fun ⟨_, _, _, _, hok, hstart, hend, _⟩ => ?_) ?_
        · rw [hparse] at hok
          obtain ⟨rfl, rfl⟩ := Prod.mk.inj (Except.ok.inj hok)
          exact hin ⟨hstart, hend⟩
        · rw [check, if_neg henv, hparse]
          simp only [if_neg hin]

/-- The same for the recurring windows. -/
theorem check_recurring_spec (windows : List RecurringMaintenanceWindow) :
    ((∀ w ∈ windows, ¬ w.Contains libraries environment now) ∧
      check_recurring libraries windows environment now metrics = (metrics, .ok ())) ∨
    ∃ w parsed reason, First (·.Contains libraries environment now) windows w ∧ w.parse libraries = .ok parsed ∧
      (check_recurring libraries windows environment now metrics).2 =
        .error ⟨reason, recurring_retry (now.to_zoned parsed.tz) parsed.end_min⟩ := by
  induction windows with
  | nil => exact .inl ⟨fun _ hmem => absurd hmem List.not_mem_nil, rfl⟩
  | cons w windows ih =>
    have hskip (hnot : ¬ w.Contains libraries environment now)
        (hcheck : check_recurring libraries (w :: windows) environment now metrics =
          check_recurring libraries windows environment now metrics) :
        ((∀ w' ∈ w :: windows, ¬ w'.Contains libraries environment now) ∧
          check_recurring libraries (w :: windows) environment now metrics = (metrics, .ok ())) ∨
        ∃ first parsed reason, First (·.Contains libraries environment now) (w :: windows) first ∧
          first.parse libraries = .ok parsed ∧
          (check_recurring libraries (w :: windows) environment now metrics).2 =
            .error ⟨reason, recurring_retry (now.to_zoned parsed.tz) parsed.end_min⟩ := by
      rw [hcheck]
      obtain ⟨hnone, hok⟩ | ⟨first, parsed, reason, hfirst, hrest⟩ := ih
      · exact .inl ⟨List.forall_mem_cons.mpr ⟨hnot, hnone⟩, hok⟩
      · exact .inr ⟨first, parsed, reason, hfirst.skip hnot, hrest⟩
    by_cases henv : w.environment ≠ "*" ∧ w.environment ≠ environment
    · exact hskip (not_recurring_contains_of_environment henv) (by rw [check_recurring, if_pos henv])
    have happlies : w.environment = "*" ∨ w.environment = environment := Decidable.or_iff_not_not_and_not.mpr henv
    cases hparse : w.parse libraries with
    | error e =>
      refine hskip (fun ⟨_, _, _, _, hok, _⟩ => ?_) (by rw [check_recurring, if_neg henv, hparse])
      rw [hparse] at hok
      cases hok
    | ok parsed =>
      have hcloses := @RecurringMaintenanceWindow.closes_iff libraries environment now w parsed hparse happlies
      by_cases hday : ¬ parsed.days.isEmpty ∧ ¬ parsed.days.contains (now.to_zoned parsed.tz).weekday
      · refine hskip (fun ⟨left, hleft⟩ => ?_) (by rw [check_recurring, if_neg henv, hparse]; simp only [if_pos hday])
        obtain hnil | hmem := ((hcloses left).mp hleft).1
        · exact hday.1 (List.isEmpty_iff.mpr hnil)
        · exact hday.2 (List.contains_iff_mem.mpr hmem)
      have hdays : parsed.days = [] ∨ (now.to_zoned parsed.tz).weekday ∈ parsed.days := by
        by_cases hnil : parsed.days = []
        · exact .inl hnil
        · refine .inr (List.contains_iff_mem.mp (Decidable.not_not.mp fun hmem => hday ⟨?_, hmem⟩))
          rwa [List.isEmpty_iff]
      by_cases hin : parsed.start_min ≤ (now.to_zoned parsed.tz).hour * 60 + (now.to_zoned parsed.tz).minute ∧
          (now.to_zoned parsed.tz).hour * 60 + (now.to_zoned parsed.tz).minute < parsed.end_min
      · have hcontains : w.Contains libraries environment now := ⟨_, (hcloses _).mpr ⟨hdays, hin.1, hin.2, rfl⟩⟩
        refine .inr ⟨w, parsed, "recurring maintenance window " ++ str.debug w.name ++ " is active until " ++ w.end_hhmm ++
          " " ++ w.timezone.getD "UTC", First.head hcontains windows, hparse, ?_⟩
        rw [check_recurring, if_neg henv, hparse]
        simp only [if_neg hday, if_pos hin]
      · refine hskip (fun ⟨left, hleft⟩ => ?_) ?_
        · obtain ⟨-, hstart, hend, -⟩ := (hcloses left).mp hleft
          exact hin ⟨hstart, hend⟩
        · rw [check_recurring, if_neg henv, hparse]
          simp only [if_neg hday, if_neg hin]

theorem near_absolute_retry {end_ : Timestamp} (hopen : now.nanos < end_.nanos) :
    Near (absolute_retry now end_) (min (end_.nanos - now.nanos) day_nanos) := by
  simp only [Near, absolute_retry, day_nanos, nanos_per_second]
  omega

/-- The time that a recurring window returns is a minute more than what is left, or later still. -/
theorem recurring_retry_late {tz : TimeZone} {end_min : Nat}
    (hopen : (now.to_zoned tz).hour * 60 + (now.to_zoned tz).minute < end_min) :
    tz.instant (now.to_zoned tz).day end_min - now.nanos + 60 * nanos_per_second ≤
      recurring_retry (now.to_zoned tz) end_min * nanos_per_second := by
  have hreading := now.to_zoned_reading tz
  have hsecond := (now.to_zoned tz).second_lt
  have hnow := now.second_bounds.1
  simp only [recurring_retry, TimeZone.instant, nanos_per_second] at hnow ⊢
  omega

theorem not_near_of_late {retry_after_secs : Nat} {left : Int}
    (hlate : left + 60 * nanos_per_second ≤ retry_after_secs * nanos_per_second) : ¬ Near retry_after_secs left := by
  simp only [Near, nanos_per_second] at hlate ⊢
  omega

/-- A submission that a recurring window blocks is told to come back too late. -/
theorem not_honest_of_recurring {absolute : List MaintenanceWindow} {recurring : List RecurringMaintenanceWindow}
    (habsolute : ∀ w ∈ absolute, ¬ w.Contains libraries environment now)
    (hrecurring : ∃ w ∈ recurring, w.Contains libraries environment now) :
    ¬ Honest libraries absolute recurring environment now
      (maintenance_gate libraries absolute recurring environment now metrics).2 := by
  intro honest
  have hgate : maintenance_gate libraries absolute recurring environment now metrics =
      check_recurring libraries recurring environment now metrics := by
    obtain ⟨-, hok⟩ | ⟨w, _, _, _, hfirst, -⟩ := @check_spec libraries environment now metrics absolute
    · rw [maintenance_gate, hok]
    · obtain ⟨_, _, _, hcontains, -⟩ := id hfirst
      exact absurd hcontains (habsolute w hfirst.mem)
  rcases @check_recurring_spec libraries environment now metrics recurring with
    ⟨hnone, -⟩ | ⟨w, parsed, reason, hfirst, hparse, herror⟩
  · obtain ⟨w, hw, hcontains⟩ := hrecurring
    exact hnone w hw hcontains
  · obtain ⟨_, _, _, ⟨left, hleft⟩, -⟩ := id hfirst
    have hcloses := (RecurringMaintenanceWindow.closes_iff hparse hleft.1 left).mp hleft
    obtain ⟨-, -, hopen, heq⟩ := hcloses
    have hlate := recurring_retry_late hopen
    rw [← heq] at hlate
    exact not_near_of_late hlate (honest.recurring_retry _ w left (by rw [hgate, herror]) habsolute hfirst hleft)

/-- The checks block exactly what the windows contain, and the retry time is
near the time left exactly when no recurring window blocks the submission. -/
theorem gate_honest_iff (libraries : Libraries) (absolute : List MaintenanceWindow)
    (recurring : List RecurringMaintenanceWindow) (environment : String) (now : Timestamp) (metrics : MaintenanceMetrics) :
    Honest libraries absolute recurring environment now
        (maintenance_gate libraries absolute recurring environment now metrics).2 ↔
      (∃ w ∈ absolute, w.Contains libraries environment now) ∨ ∀ w ∈ recurring, ¬ w.Contains libraries environment now := by
  constructor
  · intro honest
    by_cases habsolute : ∃ w ∈ absolute, w.Contains libraries environment now
    · exact .inl habsolute
    · refine .inr fun w hw hcontains => ?_
      exact not_honest_of_recurring (fun w hw hcontains => habsolute ⟨w, hw, hcontains⟩) ⟨w, hw, hcontains⟩ honest
  intro hcases
  rcases @check_spec libraries environment now metrics absolute with
    ⟨hnone, hok⟩ | ⟨w, start, end_, reason, hfirst, hparse, hopen, herror⟩
  · have hrecurring : ∀ w ∈ recurring, ¬ w.Contains libraries environment now :=
      hcases.resolve_left fun ⟨w, hw, hcontains⟩ => hnone w hw hcontains
    have hgate : (maintenance_gate libraries absolute recurring environment now metrics).2 = .ok () := by
      obtain ⟨-, hok'⟩ | ⟨w, _, _, hfirst, -⟩ := @check_recurring_spec libraries environment now metrics recurring
      · rw [maintenance_gate, hok]
        exact congrArg Prod.snd hok'
      · obtain ⟨_, _, _, hcontains, -⟩ := id hfirst
        exact absurd hcontains (hrecurring w hfirst.mem)
    refine ⟨⟨fun ⟨e, he⟩ => ?_, fun hblocked => ?_⟩, fun e w left he => ?_, fun e w left he => ?_⟩
    · rw [hgate] at he
      cases he
    · obtain ⟨w, hw, hcontains⟩ | ⟨w, hw, hcontains⟩ := hblocked
      · exact absurd hcontains (hnone w hw)
      · exact absurd hcontains (hrecurring w hw)
    · rw [hgate] at he
      cases he
    · rw [hgate] at he
      cases he
  · have hgate : (maintenance_gate libraries absolute recurring environment now metrics).2 =
        .error ⟨reason, absolute_retry now end_⟩ := by
      rw [maintenance_gate]
      split
      · next hcheck => rw [hcheck] at herror; exact herror
      · next hcheck => rw [hcheck] at herror; cases herror
    have hcontains : w.Contains libraries environment now := by
      obtain ⟨_, _, _, hcontains, -⟩ := id hfirst
      exact hcontains
    refine ⟨⟨fun _ => .inl ⟨w, hfirst.mem, hcontains⟩, fun _ => ⟨_, hgate⟩⟩, fun e' w' left he' hfirst' hleft => ?_,
      fun _ _ _ _ hnone => absurd hcontains (hnone w hfirst.mem)⟩
    obtain rfl := Except.error.inj (hgate.symm.trans he')
    obtain rfl := hfirst.unique hfirst'
    obtain ⟨-, start', end', hparse', -, -, rfl⟩ := hleft
    obtain ⟨rfl, rfl⟩ := Prod.mk.inj (Except.ok.inj (hparse.symm.trans hparse'))
    exact near_absolute_retry hopen

section Samples

def utc_only : Libraries := ⟨fun _ => .error "", fun _ => .error ""⟩

/-- Mondays from two to four. -/
def monday : RecurringMaintenanceWindow where
  name := "monday"
  weekdays := ["mon"]
  start_hhmm := "02:00"
  end_hhmm := "04:00"

/-- Monday 2026-05-04, half a minute after three. -/
def three_oclock : Timestamp := ⟨63945082830000000000, by decide⟩

/-- With 3570 seconds left the submission is told to come back in 3630. -/
theorem monday_is_a_minute_late :
    ¬ Honest utc_only [] [monday] "prod" three_oclock
      (maintenance_gate utc_only [] [monday] "prod" three_oclock ⟨fun _ => none⟩).2 := by
  have hparse : monday.parse utc_only = .ok ⟨120, 240, [.Monday], .UTC⟩ := by rfl
  have hcontains : monday.Contains utc_only "prod" three_oclock :=
    ⟨_, (RecurringMaintenanceWindow.closes_iff hparse (.inl rfl) _).mpr ⟨by decide, by decide, by decide, rfl⟩⟩
  exact not_honest_of_recurring (fun _ hw => absurd hw List.not_mem_nil) ⟨monday, List.mem_singleton_self _, hcontains⟩

end Samples

end iac_controlplane.maintenance
