import Iac.Collections.Fallible
import Mathlib.Order.Defs.Unbundled

namespace effect

/-- A program that changes a state and may fail. What it did before it failed stays. -/
abbrev Prog (σ ε α : Type) := ExceptT ε (StateM σ) α

variable {σ ε α β τ : Type}

/-- The outcome in a state, and the state after it. -/
def perform (p : Prog σ ε α) (s : σ) : Except ε α × σ := p.run.run s

/-- A function on states as a program. -/
def of_fun (f : σ → Except ε α × σ) : Prog σ ε α := ExceptT.mk f

/-- The program with its failure as a result. -/
def attempt (p : Prog σ ε α) : Prog σ ε (Except ε α) := of_fun fun s => (.ok (perform p s).1, (perform p s).2)

/-- The program with its failure reported in other words. -/
def map_error {ε' : Type} (f : ε → ε') (p : Prog σ ε α) : Prog σ ε' α :=
  of_fun fun s => ((perform p s).1.mapError f, (perform p s).2)

theorem perform_of_fun (f : σ → Except ε α × σ) (s : σ) : perform (of_fun f) s = f s := rfl

theorem perform_attempt (p : Prog σ ε α) (s : σ) : perform (attempt p) s = (.ok (perform p s).1, (perform p s).2) := rfl

theorem perform_pure (a : α) (s : σ) : perform (pure a : Prog σ ε α) s = (.ok a, s) := rfl

theorem perform_throw (e : ε) (s : σ) : perform (throw e : Prog σ ε α) s = (.error e, s) := rfl

theorem perform_get (s : σ) : perform (get : Prog σ ε σ) s = (.ok s, s) := rfl

theorem perform_bind (p : Prog σ ε α) (k : α → Prog σ ε β) (s : σ) :
    perform (p >>= k) s =
      match perform p s with
      | (.ok a, t) => perform (k a) t
      | (.error e, t) => (.error e, t) := by
  change (ExceptT.bindCont k (perform p s).1) (perform p s).2 = _
  rcases perform p s with ⟨e | a, t⟩ <;> rfl

theorem perform_bind_ok {p : Prog σ ε α} {k : α → Prog σ ε β} {s t : σ} {a : α} (h : perform p s = (.ok a, t)) :
    perform (p >>= k) s = perform (k a) t := by
  rw [perform_bind, h]

theorem perform_bind_error {p : Prog σ ε α} {k : α → Prog σ ε β} {s t : σ} {e : ε} (h : perform p s = (.error e, t)) :
    perform (p >>= k) s = (.error e, t) := by
  rw [perform_bind, h]

theorem perform_bind_eq_ok_iff {p : Prog σ ε α} {k : α → Prog σ ε β} {s u : σ} {b : β} :
    perform (p >>= k) s = (.ok b, u) ↔ ∃ a t, perform p s = (.ok a, t) ∧ perform (k a) t = (.ok b, u) := by
  rw [perform_bind]
  obtain ⟨e | a, t⟩ := perform p s
  · simp
  · simp [and_assoc]

theorem perform_bind_pure_snd (p : Prog σ ε α) (f : α → β) (s : σ) :
    (perform (p >>= fun a => pure (f a)) s).2 = (perform p s).2 := by
  rw [perform_bind]
  rcases perform p s with ⟨e | a, t⟩ <;> rfl

theorem perform_map_error_eq_ok_iff {ε' : Type} {f : ε → ε'} {p : Prog σ ε α} {s t : σ} {a : α} :
    perform (map_error f p) s = (.ok a, t) ↔ perform p s = (.ok a, t) := by
  rw [map_error, perform_of_fun]
  rcases perform p s with ⟨e | b, u⟩ <;> simp

/-- The program does not fail. -/
def Completes (p : Prog σ ε α) : Prop := ∀ s, ∃ a t, perform p s = (.ok a, t)

section Completes

variable {p : Prog σ ε α} {k : α → Prog σ ε β}

theorem completes_pure (a : α) : Completes (pure a : Prog σ ε α) := fun s => ⟨a, s, rfl⟩

theorem completes_modify (f : σ → σ) : Completes (modify f : Prog σ ε PUnit) := fun s => ⟨⟨⟩, f s, rfl⟩

theorem completes_attempt (p : Prog σ ε α) : Completes (attempt p) := fun s => ⟨_, _, perform_attempt p s⟩

theorem completes_bind (hp : Completes p) (hk : ∀ a, Completes (k a)) : Completes (p >>= k) := by
  intro s
  obtain ⟨a, t, hrun⟩ := hp s
  rw [perform_bind_ok hrun]
  exact hk a t

end Completes

/-- What the program returns satisfies `P`. -/
def Yields (P : α → Prop) (p : Prog σ ε α) : Prop := ∀ s a t, perform p s = (.ok a, t) → P a

section Yields

variable {P : β → Prop} {k : α → Prog σ ε β}

theorem yields_pure {b : β} (h : P b) : Yields P (pure b : Prog σ ε β) := by
  intro s a t hrun
  obtain ⟨hresult, -⟩ := Prod.mk.inj hrun
  exact Except.ok.inj hresult ▸ h

theorem yields_bind (p : Prog σ ε α) (hk : ∀ a, Yields P (k a)) : Yields P (p >>= k) := by
  intro s b u hrun
  obtain ⟨a, t, -, hrest⟩ := perform_bind_eq_ok_iff.mp hrun
  exact hk a t b u hrest

end Yields

/-- The states before and after the program are related. -/
def Moves (R : σ → σ → Prop) (p : Prog σ ε α) : Prop := ∀ s, R s (perform p s).2

section Moves

variable {R : σ → σ → Prop} {p : Prog σ ε α} {k : α → Prog σ ε β}

theorem moves_pure [Std.Refl R] (a : α) : Moves R (pure a : Prog σ ε α) := fun s => Std.Refl.refl s

theorem moves_throw [Std.Refl R] (e : ε) : Moves R (throw e : Prog σ ε α) := fun s => Std.Refl.refl s

theorem moves_bind_of [IsTrans σ R] {P : α → Prop} (hp : Moves R p) (hyields : Yields P p) (hk : ∀ a, P a → Moves R (k a)) :
    Moves R (p >>= k) := by
  intro s
  have hfirst := hp s
  rw [perform_bind]
  rcases hrun : perform p s with ⟨e | a, t⟩
  · rwa [hrun] at hfirst
  · rw [hrun] at hfirst
    exact IsTrans.trans _ _ _ hfirst (hk a (hyields s a t hrun) t)

theorem moves_bind [IsTrans σ R] (hp : Moves R p) (hk : ∀ a, Moves R (k a)) : Moves R (p >>= k) :=
  moves_bind_of hp (P := fun _ => True) (fun _ _ _ _ => trivial) fun a _ => hk a

/-- The invariant holds after the program when it holds before. -/
def Keeps (I : σ → Prop) (s t : σ) : Prop := I s → I t

instance (I : σ → Prop) : Std.Refl (Keeps I) := ⟨fun _ h => h⟩

instance (I : σ → Prop) : IsTrans σ (Keeps I) := ⟨fun _ _ _ h₁ h₂ h => h₂ (h₁ h)⟩

end Moves

end effect
