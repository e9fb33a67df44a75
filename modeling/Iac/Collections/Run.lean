import Mathlib.Algebra.BigOperators.Group.List.Basic
import Mathlib.Algebra.GroupWithZero.Nat
import Mathlib.Data.List.Basic

namespace transition

variable {σ α : Type} {step : σ → α → Option σ} {allowed : σ → α → Prop} {s t : σ}

/-- The states that steps lead to when `allowed` admits each of them. -/
inductive Run (step : σ → α → Option σ) (allowed : σ → α → Prop) (s : σ) : σ → Prop where
  | start : Run step allowed s s
  | step {t u : σ} {a : α} (hrun : Run step allowed s t) (hallowed : allowed t a) (hstep : step t a = some u) :
      Run step allowed s u

/-- What holds at the start and is kept by every admitted step holds throughout. -/
theorem Run.invariant {I : σ → Prop} (hrun : Run step allowed s t) (hstart : I s)
    (hkeeps : ∀ t u a, I t → allowed t a → step t a = some u → I u) : I t := by
  induction hrun with
  | start => exact hstart
  | step hrun hallowed hstep ih => exact hkeeps _ _ _ ih hallowed hstep

/-- A run stays one when more is admitted. -/
theorem Run.mono {allowed' : σ → α → Prop} (h : ∀ t a, allowed t a → allowed' t a) (hrun : Run step allowed s t) :
    Run step allowed' s t := by
  induction hrun with
  | start => exact .start
  | step hrun hallowed hstep ih => exact .step ih (h _ _ hallowed) hstep

/-- The state that a schedule leads to, when each of its steps is admitted and possible. -/
def follow (step : σ → α → Option σ) (ok : σ → α → Bool) (s : σ) : List α → Option σ
  | [] => some s
  | a :: schedule => if ok s a then (step s a).bind fun t => follow step ok t schedule else none

theorem follow_cons {ok : σ → α → Bool} {a : α} {schedule : List α} (hok : ok s a = true) (hstep : step s a = some t) :
    follow step ok s (a :: schedule) = follow step ok t schedule := by
  simp [follow, hok, hstep]

theorem follow_append {ok : σ → α → Bool} (schedule later : List α) :
    follow step ok s (schedule ++ later) = (follow step ok s schedule).bind fun t => follow step ok t later := by
  induction schedule generalizing s with
  | nil => rfl
  | cons a schedule ih =>
    simp only [List.cons_append, follow]
    split
    · cases step s a with
      | none => rfl
      | some t => exact ih
    · rfl

theorem run_of_follow_from {ok : σ → α → Bool} (hok : ∀ s a, ok s a = true → allowed s a) {u : σ} {schedule : List α}
    (hrun : Run step allowed s t) (h : follow step ok t schedule = some u) : Run step allowed s u := by
  induction schedule generalizing t with
  | nil => exact Option.some.inj h ▸ hrun
  | cons a schedule ih =>
    simp only [follow] at h
    split_ifs at h with hallowed
    obtain ⟨next, hstep, hrest⟩ := Option.bind_eq_some_iff.mp h
    exact ih (hrun.step (hok t a hallowed) hstep) hrest

/-- A schedule that leads to a state with `p` shows that there is such a run. -/
theorem run_of_follow {ok : σ → α → Bool} (hok : ∀ s a, ok s a = true → allowed s a) {schedule : List α} {p : σ → Bool}
    (h : (follow step ok s schedule).any p = true) : ∃ t, Run step allowed s t ∧ p t = true := by
  cases ht : follow step ok s schedule with
  | none => simp [ht] at h
  | some t => exact ⟨t, run_of_follow_from hok .start ht, by simpa [ht] using h⟩

end transition

open transition

namespace timed

/-- Threads and what they run beside, under one clock. A thread that can go on does
so before any time passes, and no timer is slept through. -/
structure System (σ α : Type) where
  act : σ → α → Option σ
  now : σ → Nat
  wait : σ → Nat → σ
  /-- Some thread can go on. -/
  urgent : σ → Bool
  /-- When the next timer ends. -/
  wake : σ → Option Nat

inductive Action (α : Type) where
  | act (a : α)
  | tick (d : Nat)
  deriving DecidableEq

variable {σ α : Type} {sys : System σ α} {s t : σ}

def System.step (sys : System σ α) (s : σ) : Action α → Option σ
  | .act a => sys.act s a
  | .tick d => if !sys.urgent s && (sys.wake s).all fun wake => decide (sys.now s + d ≤ wake) then some (sys.wait s d) else none

theorem step_tick_iff {d : Nat} : sys.step s (.tick d) = some t ↔
    sys.urgent s = false ∧ (∀ wake, sys.wake s = some wake → sys.now s + d ≤ wake) ∧ t = sys.wait s d := by
  simp only [System.step]
  cases hurgent : sys.urgent s
  · cases hwake : sys.wake s with
    | none => simp [eq_comm]
    | some wake => by_cases hle : sys.now s + d ≤ wake <;> simp [hle, eq_comm]
  · simp

/-- Time can pass unless a thread can go on. -/
theorem tick_of_not_urgent (hdue : ∀ wake, sys.wake s = some wake → sys.now s < wake) (h : sys.urgent s = false) :
    sys.step s (.tick 1) = some (sys.wait s 1) :=
  step_tick_iff.mpr ⟨h, fun wake hwake => hdue wake hwake, rfl⟩

/-- What every admitted step of the threads and every admitted passing of time keep holds throughout a run. -/
theorem Run.invariant {allowed : σ → Action α → Prop} {I : σ → Prop} (hrun : Run sys.step allowed s t) (hstart : I s)
    (hact : ∀ s a t, I s → allowed s (.act a) → sys.act s a = some t → I t)
    (htick : ∀ s d, I s → allowed s (.tick d) → sys.urgent s = false →
      (∀ wake, sys.wake s = some wake → sys.now s + d ≤ wake) → I (sys.wait s d)) : I t := by
  refine hrun.invariant hstart fun s t a hs hallowed hstep => ?_
  cases a with
  | act a => exact hact s a t hs hallowed hstep
  | tick d =>
    obtain ⟨hurgent, hwake, rfl⟩ := step_tick_iff.mp hstep
    exact htick s d hs hallowed hurgent hwake

end timed

namespace slots

variable {α : Type} {slots : List α} {i : Nat} {old : α}

/-- A sum over slots when one of them is rewritten. -/
theorem sum_map_set (weight : α → Nat) (new : α) (h : slots[i]? = some old) :
    ((slots.set i new).map weight).sum + weight old = (slots.map weight).sum + weight new := by
  induction slots generalizing i with
  | nil => simp at h
  | cons slot slots ih =>
    cases i with
    | zero =>
      obtain rfl : slot = old := by simpa using h
      simp only [List.set_cons_zero, List.map_cons, List.sum_cons]
      omega
    | succ i =>
      have hrest := ih (i := i) (by simpa using h)
      simp only [List.set_cons_succ, List.map_cons, List.sum_cons]
      omega

/-- The slots that count at least one are at most as many as the sum. -/
theorem countP_le_sum {p : α → Bool} {weight : α → Nat} (h : ∀ slot, p slot = true → 1 ≤ weight slot) :
    slots.countP p ≤ (slots.map weight).sum := by
  induction slots with
  | nil => exact Nat.le_refl 0
  | cons slot slots ih =>
    rw [List.countP_cons, List.map_cons, List.sum_cons]
    have hslot := h slot
    split
    · have := hslot ‹_›
      omega
    · omega

end slots
