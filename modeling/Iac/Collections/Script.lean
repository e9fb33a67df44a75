import Mathlib.Data.List.Basic

/-- A program that reads and writes a state on disk, one atomic write after
the other, and ends with a result or an error. -/
inductive Script (σ ε α : Type) where
  | stop (result : Except ε α)
  | read (next : σ → Script σ ε α)
  | write (f : σ → σ) (next : Script σ ε α)

namespace Script

variable {σ ε α β : Type}

def bind : Script σ ε α → (α → Script σ ε β) → Script σ ε β
  | stop (.ok a), k => k a
  | stop (.error e), _ => stop (.error e)
  | read next, k => read fun s => (next s).bind k
  | write f next, k => write f (next.bind k)

instance : Monad (Script σ ε) where
  pure a := stop (.ok a)
  bind := bind

/-- The state on disk. -/
def get : Script σ ε σ := read fun s => stop (.ok s)

/-- One atomic write. -/
def put (f : σ → σ) : Script σ ε Unit := write f (stop (.ok ()))

def fail (e : ε) : Script σ ε α := stop (.error e)

/-- The result, and the state after it. -/
def run : Script σ ε α → σ → Except ε α × σ
  | stop result, s => (result, s)
  | read next, s => (next s).run s
  | write f next, s => next.run (f s)

/-- The program with a crash after so many writes; there is no result when the crash comes before its end. -/
def interrupted : Nat → Script σ ε α → σ → Option (Except ε α) × σ
  | _, stop result, s => (some result, s)
  | n, read next, s => interrupted n (next s) s
  | 0, write _ _, s => (none, s)
  | n + 1, write f next, s => interrupted n next (f s)

/-- The outcome of a program that may crash. -/
def outcome (crash : Option Nat) (p : Script σ ε α) (s : σ) : Option (Except ε α) × σ :=
  match crash with
  | some n => interrupted n p s
  | none => (some (p.run s).1, (p.run s).2)

/-- A crash after the last write is none. -/
theorem outcome_eq_run {crash : Option Nat} {p : Script σ ε α} {s t : σ} {result : Except ε α}
    (h : outcome crash p s = (some result, t)) : p.run s = (result, t) := by
  cases crash with
  | none =>
    obtain ⟨hresult, hstate⟩ := Prod.mk.inj h
    exact Prod.ext (Option.some.inj hresult) hstate
  | some n =>
    induction p generalizing n s with
    | stop r =>
      have hstop : (some r, s) = (some result, t) := by simpa only [outcome, interrupted] using h
      obtain ⟨hresult, hstate⟩ := Prod.mk.inj hstop
      exact Prod.ext (Option.some.inj hresult) hstate
    | read next ih => exact ih s n (by simpa only [outcome, interrupted] using h)
    | write f next ih =>
      cases n with
      | zero => simp [outcome, interrupted] at h
      | succ n => exact ih n (by simpa only [outcome, interrupted] using h)

/-- The predicate holds of the state wherever the program can crash, and at its end. -/
def Always (P : σ → Prop) : Script σ ε α → σ → Prop
  | stop _, s => P s
  | read next, s => (next s).Always P s
  | write f next, s => P s ∧ next.Always P (f s)

variable {P Q : σ → Prop} {p : Script σ ε α} {s : σ}

theorem Always.run (h : p.Always P s) : P (p.run s).2 := by
  induction p generalizing s with
  | stop r => exact h
  | read next ih => exact ih s h
  | write f next ih => exact ih h.2

theorem Always.interrupted (h : p.Always P s) (n : Nat) : P (p.interrupted n s).2 := by
  induction p generalizing n s with
  | stop r =>
    rw [Script.interrupted]
    exact h
  | read next ih =>
    rw [Script.interrupted]
    exact ih s h n
  | write f next ih =>
    cases n with
    | zero => exact h.1
    | succ n => exact ih h.2 n

/-- Whenever the program crashes, the state has what holds throughout. -/
theorem Always.outcome (h : p.Always P s) (crash : Option Nat) : P (p.outcome crash s).2 := by
  cases crash with
  | none => exact h.run
  | some n => exact h.interrupted n

section Rules

variable {k : α → Script σ ε β} {f : σ → σ} {e : ε} {a : α} {crash : Option Nat}

private theorem bind_pure_script (p : Script σ ε α) : p.bind (fun a => stop (.ok a)) = p := by
  induction p with
  | stop result => cases result <;> rfl
  | read next ih => exact congrArg read (funext ih)
  | write f next ih => exact congrArg (write f) ih

private theorem bind_assoc_script {γ : Type} (p : Script σ ε α) (k : α → Script σ ε β) (l : β → Script σ ε γ) :
    (p.bind k).bind l = p.bind fun a => (k a).bind l := by
  induction p with
  | stop result => cases result <;> rfl
  | read next ih => exact congrArg read (funext ih)
  | write f next ih => exact congrArg (write f) ih

instance : LawfulMonad (Script σ ε) := LawfulMonad.mk' (Script σ ε)
  (fun p => bind_pure_script p) (fun _ _ => rfl) (fun p k l => bind_assoc_script p k l)

@[simp] theorem fail_bind : ((fail e : Script σ ε α) >>= k) = fail e := rfl

@[simp] theorem always_pure : (pure a : Script σ ε α).Always P s ↔ P s := Iff.rfl

@[simp] theorem always_fail : (fail e : Script σ ε α).Always P s ↔ P s := Iff.rfl

@[simp] theorem always_put : (put f : Script σ ε Unit).Always P s ↔ P s ∧ P (f s) := Iff.rfl

@[simp] theorem always_get_bind {k : σ → Script σ ε β} : (get >>= k).Always P s ↔ (k s).Always P s := Iff.rfl

@[simp] theorem always_put_bind {k : Unit → Script σ ε β} :
    (put f >>= k).Always P s ↔ P s ∧ (k ()).Always P (f s) := Iff.rfl

/-- What holds throughout a program and is kept by what comes after it holds throughout both. -/
theorem always_bind {p : Script σ ε α} {k : α → Script σ ε β} (h : p.Always P s)
    (hk : ∀ a t, P t → (k a).Always P t) : (p >>= k).Always P s := by
  induction p generalizing s with
  | stop result =>
    cases result with
    | ok a => exact hk a s h
    | error e => exact h
  | read next ih => exact ih s h
  | write f next ih => exact ⟨h.1, ih h.2⟩

@[simp] theorem run_pure : (pure a : Script σ ε α).run s = (.ok a, s) := rfl

@[simp] theorem run_fail : (fail e : Script σ ε α).run s = (.error e, s) := rfl

@[simp] theorem run_put : (put f : Script σ ε Unit).run s = (.ok (), f s) := rfl

@[simp] theorem run_get_bind {k : σ → Script σ ε β} : (get >>= k).run s = (k s).run s := rfl

@[simp] theorem run_put_bind {k : Unit → Script σ ε β} : (put f >>= k).run s = (k ()).run (f s) := rfl

theorem run_bind_ok {p : Script σ ε α} {k : α → Script σ ε β} {t : σ} (h : p.run s = (.ok a, t)) :
    (p >>= k).run s = (k a).run t := by
  induction p generalizing s with
  | stop result =>
    obtain ⟨rfl, rfl⟩ := Prod.mk.inj h
    rfl
  | read next ih => exact ih s h
  | write f next ih => exact ih h

@[simp] theorem outcome_get_bind {k : σ → Script σ ε β} : (get >>= k).outcome crash s = (k s).outcome crash s := by
  cases crash with
  | none => rfl
  | some n => cases n <;> rfl

@[simp] theorem outcome_put_bind {k : Unit → Script σ ε β} {n : Nat} :
    (put f >>= k).outcome (some (n + 1)) s = (k ()).outcome (some n) (f s) := rfl

@[simp] theorem outcome_put_bind_zero {k : Unit → Script σ ε β} : (put f >>= k).outcome (some 0) s = (none, s) := rfl

end Rules

section Ensures

/-- Wherever the program can crash `I` holds, and its result and the state after it are in `Q`. -/
def Ensures (I : σ → Prop) (Q : Except ε α → σ → Prop) : Script σ ε α → σ → Prop
  | stop result, s => I s ∧ Q result s
  | read next, s => (next s).Ensures I Q s
  | write f next, s => I s ∧ next.Ensures I Q (f s)

variable {I I' : σ → Prop} {Q Q' : Except ε α → σ → Prop} {R : Except ε β → σ → Prop} {k : α → Script σ ε β} {f : σ → σ}
  {crash : Option Nat}

theorem Ensures.outcome (h : p.Ensures I Q s) (crash : Option Nat) :
    I (p.outcome crash s).2 ∧ ∀ result, (p.outcome crash s).1 = some result → Q result (p.outcome crash s).2 := by
  induction p generalizing s crash with
  | stop r =>
    have hstop : outcome crash (stop r) s = (some r, s) := by cases crash <;> simp [Script.outcome, interrupted, Script.run]
    rw [hstop]
    refine ⟨h.1, fun result hresult => ?_⟩
    obtain rfl := Option.some.inj hresult
    exact h.2
  | read next ih =>
    have hread : outcome crash (read next) s = outcome crash (next s) s := by
      cases crash <;> simp [Script.outcome, interrupted, Script.run]
    rw [hread]
    exact ih s h crash
  | write f next ih =>
    cases crash with
    | none => exact ih h.2 none
    | some n =>
      cases n with
      | zero => exact ⟨h.1, nofun⟩
      | succ n => exact ih h.2 (some n)

theorem Ensures.run (h : p.Ensures I Q s) : Q (p.run s).1 (p.run s).2 := (h.outcome none).2 _ rfl

theorem Ensures.imp (h : p.Ensures I Q s) (hI : ∀ t, I t → I' t) (hQ : ∀ result t, Q result t → Q' result t) :
    p.Ensures I' Q' s := by
  induction p generalizing s with
  | stop r => exact ⟨hI s h.1, hQ r s h.2⟩
  | read next ih => exact ih s h
  | write f next ih => exact ⟨hI s h.1, ih h.2⟩

@[simp] theorem ensures_pure {a : α} : (pure a : Script σ ε α).Ensures I Q s ↔ I s ∧ Q (.ok a) s := Iff.rfl

@[simp] theorem ensures_fail {e : ε} : (fail e : Script σ ε α).Ensures I Q s ↔ I s ∧ Q (.error e) s := Iff.rfl

@[simp] theorem ensures_get_bind {k : σ → Script σ ε α} : (get >>= k).Ensures I Q s ↔ (k s).Ensures I Q s := Iff.rfl

@[simp] theorem ensures_put_bind {k : Unit → Script σ ε α} :
    (put f >>= k).Ensures I Q s ↔ I s ∧ (k ()).Ensures I Q (f s) := Iff.rfl

/-- What the first program leaves for the second. -/
def continued (I : σ → Prop) (R : Except ε β → σ → Prop) (k : α → Script σ ε β) : Except ε α → σ → Prop
  | .ok a, t => (k a).Ensures I R t
  | .error e, t => R (.error e) t

theorem ensures_bind (h : p.Ensures I (continued I R k) s) : (p >>= k).Ensures I R s := by
  induction p generalizing s with
  | stop r =>
    cases r with
    | ok a => exact h.2
    | error e => exact h
  | read next ih => exact ih s h
  | write f next ih => exact ⟨h.1, ih h.2⟩

/-- What a program leaves that does its work or nothing: with a result the work
is done, with an error it is not, and with a crash one or the other. -/
def Atomic (done kept : σ → Prop) : Option (Except ε α) × σ → Prop
  | (some (.ok _), s) => done s
  | (some (.error _), s) => kept s
  | (none, s) => kept s ∨ done s

def all_or_nothing (done kept : σ → Prop) : Except ε α → σ → Prop
  | .ok _, s => done s
  | .error _, s => kept s

theorem Ensures.atomic {done kept : σ → Prop}
    (h : p.Ensures (fun t => kept t ∨ done t) (all_or_nothing done kept) s) (crash : Option Nat) :
    Atomic done kept (p.outcome crash s) := by
  obtain ⟨halways, hresult⟩ := h.outcome crash
  rcases hout : p.outcome crash s with ⟨result | result, t⟩
  · rw [hout] at halways
    exact halways
  · rw [hout] at hresult
    cases result with
    | ok a => exact hresult _ rfl
    | error e => exact hresult _ rfl

end Ensures

end Script
