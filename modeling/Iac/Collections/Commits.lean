import Mathlib.Data.List.Basic

namespace commits

variable {σ κ : Type}

/-- The state after steps that are all committed. -/
def write_all (write : κ → σ → σ) (steps : List κ) (s : σ) : σ := steps.foldl (fun s step => write step s) s

/-- Steps that are committed one by one, up to the first one that is refused: whether none was, and the state then. -/
def run (refuses : κ → σ → Bool) (write : κ → σ → σ) : List κ → σ → Bool × σ
  | [], s => (true, s)
  | step :: rest, s => if refuses step s then (false, s) else run refuses write rest (write step s)

/-- None of the steps is refused. -/
def Accepted (refuses : κ → σ → Bool) (write : κ → σ → σ) : List κ → σ → Prop
  | [], _ => True
  | step :: rest, s => refuses step s = false ∧ Accepted refuses write rest (write step s)

/-- A step is refused after those before it have changed the state. -/
def Interrupted (refuses : κ → σ → Bool) (write : κ → σ → σ) (steps : List κ) (s : σ) : Prop :=
  ∃ done step rest, steps = done ++ step :: rest ∧ Accepted refuses write done s ∧
    refuses step (write_all write done s) = true ∧ write_all write done s ≠ s

variable {refuses : κ → σ → Bool} {write : κ → σ → σ} {steps done rest : List κ} {step : κ} {s : σ}

theorem run_of_accepted (h : Accepted refuses write steps s) : run refuses write steps s = (true, write_all write steps s) := by
  induction steps generalizing s with
  | nil => rfl
  | cons step rest ih =>
    rw [run, if_neg (by simp [h.1]), ih h.2]
    rfl

theorem run_of_refused (hdone : Accepted refuses write done s) (hstep : refuses step (write_all write done s) = true) :
    run refuses write (done ++ step :: rest) s = (false, write_all write done s) := by
  induction done generalizing s with
  | nil => exact if_pos hstep
  | cons first done ih =>
    rw [List.cons_append, run, if_neg (by simp [hdone.1]), ih hdone.2 hstep]
    rfl

theorem accepted_append : Accepted refuses write (done ++ rest) s ↔
    Accepted refuses write done s ∧ Accepted refuses write rest (write_all write done s) := by
  induction done generalizing s with
  | nil => exact ⟨fun h => ⟨trivial, h⟩, And.right⟩
  | cons first done ih =>
    rw [List.cons_append, Accepted, ih, Accepted, and_assoc]
    rfl

/-- All steps are committed, or there is a first one that is refused. -/
theorem accepted_or_refused (refuses : κ → σ → Bool) (write : κ → σ → σ) (steps : List κ) (s : σ) :
    Accepted refuses write steps s ∨
    ∃ done step rest, steps = done ++ step :: rest ∧ Accepted refuses write done s ∧
      refuses step (write_all write done s) = true := by
  induction steps generalizing s with
  | nil => exact .inl trivial
  | cons step rest ih =>
    cases hstep : refuses step s with
    | true => exact .inr ⟨[], step, rest, rfl, trivial, hstep⟩
    | false =>
      obtain haccepted | ⟨done, later, rest', rfl, hdone, hlater⟩ := ih (write step s)
      · exact .inl ⟨hstep, haccepted⟩
      · exact .inr ⟨step :: done, later, rest', rfl, ⟨hstep, hdone⟩, hlater⟩

theorem accepted_iff : Accepted refuses write steps s ↔ (run refuses write steps s).1 = true := by
  refine ⟨fun h => by rw [run_of_accepted h], fun h => ?_⟩
  obtain haccepted | ⟨done, step, rest, rfl, hdone, hstep⟩ := accepted_or_refused refuses write steps s
  · exact haccepted
  · rw [run_of_refused hdone hstep] at h
    cases h

/-- The steps stop on a refusal in a state that is not the first one exactly when they are interrupted. -/
theorem interrupted_iff : Interrupted refuses write steps s ↔
    (run refuses write steps s).1 = false ∧ (run refuses write steps s).2 ≠ s := by
  constructor
  · rintro ⟨done, step, rest, rfl, hdone, hstep, hchanged⟩
    rw [run_of_refused hdone hstep]
    exact ⟨rfl, hchanged⟩
  · rintro ⟨hstopped, hchanged⟩
    obtain haccepted | ⟨done, step, rest, rfl, hdone, hstep⟩ := accepted_or_refused refuses write steps s
    · rw [run_of_accepted haccepted] at hstopped
      cases hstopped
    · rw [run_of_refused hdone hstep] at hchanged
      exact ⟨done, step, rest, rfl, hdone, hstep, hchanged⟩

end commits
