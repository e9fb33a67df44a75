import Mathlib.Data.List.Perm.Basic

namespace fallible

variable {ε α β : Type}

section Pairs

variable {R : α → β → Prop} {as : List α} {bs : List β}

theorem exists_right (h : List.Forall₂ R as bs) {a : α} (ha : a ∈ as) : ∃ b ∈ bs, R a b := by
  induction h with
  | nil => cases ha
  | @cons a' b as bs hhead _ ih =>
    obtain rfl | hmem := List.mem_cons.mp ha
    · exact ⟨b, List.mem_cons_self, hhead⟩
    · obtain ⟨b', hb', hrel⟩ := ih hmem
      exact ⟨b', List.mem_cons_of_mem _ hb', hrel⟩

theorem exists_left (h : List.Forall₂ R as bs) {b : β} (hb : b ∈ bs) : ∃ a ∈ as, R a b :=
  exists_right (R := flip R) h.flip hb

end Pairs

theorem bind_eq_ok_iff {x : Except ε α} {f : α → Except ε β} {b : β} :
    (x >>= f) = .ok b ↔ ∃ a, x = .ok a ∧ f a = .ok b := by
  cases x <;> simp [bind, Except.bind]

section MapError

variable {ε' : Type} {f : ε → ε'} {a : α}

@[simp] theorem mapError_ok : (Except.ok a : Except ε α).mapError f = .ok a := rfl

@[simp] theorem mapError_error {e : ε} : (Except.error e : Except ε α).mapError f = .error (f e) := rfl

theorem mapError_eq_ok_iff {x : Except ε α} : x.mapError f = .ok a ↔ x = .ok a := by
  cases x <;> simp

end MapError

variable {f : α → Except ε β}

/-- A fallible map succeeds when it does on every entry. -/
theorem mapM_ok_iff {as : List α} {bs : List β} :
    as.mapM f = .ok bs ↔ List.Forall₂ (fun a b => f a = .ok b) as bs := by
  induction as generalizing bs with
  | nil => simp [pure, Except.pure, eq_comm]
  | cons a as ih =>
    rw [List.mapM_cons, List.forall₂_cons_left_iff]
    cases hf : f a with
    | error e => simp [bind, Except.bind]
    | ok b =>
      cases hrest : as.mapM f with
      | error e => simp [← ih, hrest, bind, Except.bind]
      | ok rest =>
        simp only [← ih, hrest, bind, Except.bind, pure, Except.pure, Except.ok.injEq]
        constructor
        · rintro rfl
          exact ⟨b, rest, rfl, rfl, rfl⟩
        · rintro ⟨b', rest', rfl, rfl, rfl⟩
          rfl

/-- A fallible map gives the same results of the entries in any order. -/
theorem mapM_perm {as as' : List α} {bs : List β} (h : as.mapM f = .ok bs) (hperm : as'.Perm as) :
    ∃ bs', as'.mapM f = .ok bs' ∧ bs'.Perm bs := by
  obtain ⟨bs', hbs', hperm'⟩ := List.perm_comp_forall₂ hperm (mapM_ok_iff.mp h)
  exact ⟨bs', mapM_ok_iff.mpr hbs', hperm'⟩

theorem mem_of_mapM_ok {as : List α} {bs : List β} (h : as.mapM f = .ok bs) {b : β} (hb : b ∈ bs) :
    ∃ a ∈ as, f a = .ok b :=
  exists_left (mapM_ok_iff.mp h) hb

/-- A fallible map gives only results with a property when every entry has such a result. -/
theorem exists_mapM_ok_iff {P : β → Prop} {as : List α} :
    (∃ bs, as.mapM f = .ok bs ∧ ∀ b ∈ bs, P b) ↔ ∀ a ∈ as, ∃ b, f a = .ok b ∧ P b := by
  constructor
  · rintro ⟨bs, hbs, hP⟩ a ha
    obtain ⟨b, hb, hf⟩ := exists_right (mapM_ok_iff.mp hbs) ha
    exact ⟨b, hf, hP b hb⟩
  · intro h
    induction as with
    | nil => exact ⟨[], rfl, by simp⟩
    | cons a as ih =>
      obtain ⟨⟨b, hb, hPb⟩, hrest⟩ := List.forall_mem_cons.mp h
      obtain ⟨bs, hbs, hPbs⟩ := ih hrest
      refine ⟨b :: bs, mapM_ok_iff.mpr (.cons hb (mapM_ok_iff.mp hbs)), ?_⟩
      exact List.forall_mem_cons.mpr ⟨hPb, hPbs⟩

/-- The entries of a list that a fallible map keeps. -/
theorem mapM_eq_self_iff {f : α → Except ε α} {as : List α} : as.mapM f = .ok as ↔ ∀ a ∈ as, f a = .ok a := by
  rw [mapM_ok_iff, List.forall₂_same]

/-- Checks made one after the other pass when each of them does. -/
theorem forM_ok_iff {check : α → Except ε Unit} {as : List α} : forM as check = .ok () ↔ ∀ a ∈ as, check a = .ok () := by
  induction as with
  | nil => simp [pure, Except.pure]
  | cons a as ih =>
    rw [List.forM_cons, bind_eq_ok_iff, List.forall_mem_cons]
    exact ⟨fun ⟨_, ha, hrest⟩ => ⟨ha, ih.mp hrest⟩, fun ⟨ha, hrest⟩ => ⟨(), ha, ih.mpr hrest⟩⟩

end fallible
