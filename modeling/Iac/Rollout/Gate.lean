import Mathlib.Data.List.Basic

namespace rollout

variable {R : Type} {before : R → R → Prop} {released done : R → Prop} {rows new : List R}

/-- Nothing is released unless everything that comes before it is done. -/
def Gated (before : R → R → Prop) (released done : R → Prop) (rows : List R) : Prop :=
  ∀ a ∈ rows, ∀ b ∈ rows, before a b → released b → done a

theorem Gated.nil : Gated before released done [] := by
  simp [Gated]

/-- What is not done holds back everything after it. -/
theorem Gated.blocks (h : Gated before released done rows) {a b : R} (ha : a ∈ rows) (hb : b ∈ rows)
    (hbefore : before a b) (hdone : ¬ done a) : ¬ released b :=
  fun hreleased => hdone (h a ha b hb hbefore hreleased)

/-- A change of the rows keeps the gate when it keeps what is done and
releases only rows with nothing undone before them. -/
theorem Gated.map (h : Gated before released done rows) {g : R → R}
    (hbefore : ∀ a ∈ rows, ∀ b ∈ rows, before (g a) (g b) → before a b)
    (hdone : ∀ a ∈ rows, done a → done (g a))
    (hreleased : ∀ b ∈ rows, released (g b) → released b ∨ ∀ a ∈ rows, before a b → done (g a)) :
    Gated before released done (rows.map g) := by
  intro a' ha' b' hb' hab hb'released
  obtain ⟨a, ha, rfl⟩ := List.mem_map.mp ha'
  obtain ⟨b, hb, rfl⟩ := List.mem_map.mp hb'
  have hab := hbefore a ha b hb hab
  obtain hold | hclear := hreleased b hb hb'released
  · exact hdone a ha (h a ha b hb hab hold)
  · exact hclear a ha hab

/-- New rows keep the gate when they are unrelated to the old ones and gated among themselves. -/
theorem Gated.append (hold : Gated before released done rows) (hnew : Gated before released done new)
    (hunrelated : ∀ a ∈ rows, ∀ b ∈ new, ¬ before a b ∧ ¬ before b a) :
    Gated before released done (rows ++ new) := by
  intro a ha b hb hab
  rcases List.mem_append.mp ha with ha | ha <;> rcases List.mem_append.mp hb with hb | hb
  · exact hold a ha b hb hab
  · exact absurd hab (hunrelated a ha b hb).1
  · exact absurd hab (hunrelated b hb a ha).2
  · exact hnew a ha b hb hab

/-- Two gates are one gate. -/
theorem Gated.or {before' : R → R → Prop} (h : Gated before released done rows)
    (h' : Gated before' released done rows) :
    Gated (fun a b => before a b ∨ before' a b) released done rows := by
  intro a ha b hb hab
  obtain hab | hab := hab
  · exact h a ha b hb hab
  · exact h' a ha b hb hab

end rollout

namespace rollout

variable {S : Type} {step : S → S → Prop} {goal : S → Prop}

/-- Whichever steps are taken, one can be taken until a state of `goal` is reached. -/
inductive Inevitable (step : S → S → Prop) (goal : S → Prop) : S → Prop where
  | now {s : S} (hgoal : goal s) : Inevitable step goal s
  | later {s : S} (hcan : ∃ s', step s s') (hnext : ∀ s', step s s' → Inevitable step goal s') :
      Inevitable step goal s

/-- The goal is inevitable when the steps keep an invariant under which they
lower a measure and none is missing short of the goal. -/
theorem Inevitable.of_measure (keeps : S → Prop) (measure : S → Nat)
    (hkeeps : ∀ s s', keeps s → step s s' → keeps s')
    (hlower : ∀ s s', keeps s → step s s' → measure s' < measure s)
    (hcan : ∀ s, keeps s → ¬ goal s → ∃ s', step s s') {s : S} (h : keeps s) : Inevitable step goal s := by
  generalize hbound : measure s = bound
  induction bound using Nat.strongRecOn generalizing s with
  | ind bound ih =>
    by_cases hgoal : goal s
    · exact .now hgoal
    · refine .later (hcan s h hgoal) fun s' hstep => ?_
      exact ih _ (hbound ▸ hlower s s' h hstep) (hkeeps s s' h hstep) rfl

end rollout
