import Iac.Collections.Fallible
import Mathlib.Algebra.BigOperators.Group.List.Basic
import Mathlib.Algebra.GroupWithZero.Nat

/-- What a program answers, and the events of its run in their order. -/
structure Logged (E ε α : Type) where
  outcome : Except ε α
  events : List E := []

namespace logged

variable {E ε α β : Type}

/-- The second program runs when the first succeeds. -/
def bind (p : Logged E ε α) (k : α → Logged E ε β) : Logged E ε β :=
  match p.outcome with
  | .ok a => ⟨(k a).outcome, p.events ++ (k a).events⟩
  | .error e => ⟨.error e, p.events⟩

instance : Monad (Logged E ε) where
  pure a := { outcome := .ok a }
  bind := bind

/-- A program without events. -/
def of_outcome (outcome : Except ε α) : Logged E ε α := { outcome }

/-- A single event, with what it answers. -/
def emit (event : E) (outcome : Except ε α) : Logged E ε α := ⟨outcome, [event]⟩

/-- The program with its failure as a result. -/
def attempt {ε' : Type} (p : Logged E ε α) : Logged E ε' (Except ε α) := ⟨.ok p.outcome, p.events⟩

/-- The program with its failure reported in other words. -/
def map_error {ε' : Type} (f : ε → ε') (p : Logged E ε α) : Logged E ε' α := ⟨p.outcome.mapError f, p.events⟩

section Equations

variable {p : Logged E ε α} {k : α → Logged E ε β}

@[simp] theorem outcome_pure (a : α) : (pure a : Logged E ε α).outcome = .ok a := rfl

@[simp] theorem events_pure (a : α) : (pure a : Logged E ε α).events = [] := rfl

@[simp] theorem events_of_outcome (outcome : Except ε α) : (of_outcome outcome : Logged E ε α).events = [] := rfl

@[simp] theorem events_emit (event : E) (outcome : Except ε α) : (emit event outcome).events = [event] := rfl

@[simp] theorem events_attempt {ε' : Type} (p : Logged E ε α) :
    (attempt p : Logged E ε' (Except ε α)).events = p.events := rfl

@[simp] theorem events_map_error {ε' : Type} (f : ε → ε') (p : Logged E ε α) : (map_error f p).events = p.events := rfl

theorem bind_of_ok {a : α} (h : p.outcome = .ok a) : p >>= k = ⟨(k a).outcome, p.events ++ (k a).events⟩ := by
  change bind p k = _
  rw [bind, h]

theorem bind_of_error {e : ε} (h : p.outcome = .error e) : p >>= k = ⟨.error e, p.events⟩ := by
  change bind p k = _
  rw [bind, h]

theorem outcome_bind : (p >>= k).outcome = p.outcome >>= fun a => (k a).outcome := by
  cases h : p.outcome with
  | ok a => rw [bind_of_ok h]; rfl
  | error e => rw [bind_of_error h]; rfl

end Equations

section Rules

variable {p : Logged E ε α} {k : α → Logged E ε β}

/-- The condition holds of every event. -/
def Every (P : E → Prop) (p : Logged E ε α) : Prop := ∀ e ∈ p.events, P e

theorem every_silent {P : E → Prop} (h : p.events = []) : Every P p := by
  intro e he
  rw [h] at he
  cases he

theorem every_bind {P : E → Prop} (hp : Every P p) (hk : ∀ a, p.outcome = .ok a → Every P (k a)) : Every P (p >>= k) := by
  cases h : p.outcome with
  | ok a =>
    rw [bind_of_ok h]
    intro e he
    exact (List.mem_append.mp he).elim (hp e) (hk a h e)
  | error e =>
    rw [bind_of_error h]
    exact hp

/-- What the events cost together. -/
def cost (f : E → Nat) (p : Logged E ε α) : Nat := (p.events.map f).sum

variable {f : E → Nat} {m n : Nat}

@[simp] theorem cost_map_error {ε' : Type} (g : ε → ε') (p : Logged E ε α) : cost f (map_error g p) = cost f p := rfl

@[simp] theorem cost_attempt {ε' : Type} (p : Logged E ε α) :
    cost f (attempt p : Logged E ε' (Except ε α)) = cost f p := rfl

theorem cost_bind_of_ok {a : α} (h : p.outcome = .ok a) : cost f (p >>= k) = cost f p + cost f (k a) := by
  rw [bind_of_ok h]
  simp [cost]

theorem cost_bind_of_error {e : ε} (h : p.outcome = .error e) : cost f (p >>= k) = cost f p := by
  rw [bind_of_error h]
  rfl

theorem cost_bind_le (hp : cost f p ≤ m) (hk : ∀ a, p.outcome = .ok a → cost f (k a) ≤ n) : cost f (p >>= k) ≤ m + n := by
  cases h : p.outcome with
  | ok a =>
    have hrest := hk a h
    rw [cost_bind_of_ok h]
    omega
  | error e =>
    rw [cost_bind_of_error h]
    omega

/-- The second program only adds. -/
theorem le_cost_bind : cost f p ≤ cost f (p >>= k) := by
  cases h : p.outcome with
  | ok a => simp [cost_bind_of_ok h]
  | error e => exact Nat.le_of_eq (cost_bind_of_error h).symm

theorem le_cost_bind_of_ok {a : α} (h : p.outcome = .ok a) (hk : n ≤ cost f (k a)) : n ≤ cost f (p >>= k) := by
  rw [cost_bind_of_ok h]
  omega

end Rules

end logged
