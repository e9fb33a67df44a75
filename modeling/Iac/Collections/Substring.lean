import Mathlib.Data.List.Infix

namespace substring

variable {α : Type} {p text before after : List α}

/-- The pattern stands between `before` and `after`, and nowhere earlier in the text. -/
structure FirstCut (p text before after : List α) : Prop where
  split : text = before ++ (p ++ after)
  first : ∀ before' after', text = before' ++ (p ++ after') → before.length ≤ before'.length

theorem FirstCut.unique {before' after' : List α} (h : FirstCut p text before after)
    (h' : FirstCut p text before' after') : before = before' ∧ after = after' := by
  have hlength : before.length = before'.length :=
    Nat.le_antisymm (h.first _ _ h'.split) (h'.first _ _ h.split)
  obtain ⟨hbefore, hrest⟩ := List.append_inj (h.split.symm.trans h'.split) hlength
  exact ⟨hbefore, List.append_cancel_left hrest⟩

theorem FirstCut.contained (h : FirstCut p text before after) : p <:+: text :=
  ⟨before, after, by rw [h.split, List.append_assoc]⟩

theorem FirstCut.length (h : FirstCut p text before after) :
    text.length = before.length + (p.length + after.length) := by
  rw [h.split, List.length_append, List.length_append]

theorem firstCut_of_prefix : FirstCut p (p ++ after) [] after :=
  ⟨rfl, fun _ _ _ => Nat.zero_le _⟩

theorem firstCut_cons {c : α} (hnot : ¬ p <+: c :: text) :
    FirstCut p (c :: text) (c :: before) after ↔ FirstCut p text before after := by
  constructor
  · intro h
    refine ⟨(List.cons.inj h.split).2, fun before' after' hsplit => ?_⟩
    have hle := h.first (c :: before') after' (by rw [hsplit, List.cons_append])
    simpa using hle
  · intro h
    refine ⟨by rw [h.split, List.cons_append], fun before' after' hsplit => ?_⟩
    cases before' with
    | nil => exact absurd ⟨after', hsplit.symm⟩ hnot
    | cons d before' =>
      rw [List.length_cons, List.length_cons, Nat.add_le_add_iff_right]
      exact h.first before' after' (List.cons.inj hsplit).2

/-- A cut that is not at the start of the text is one of its tail. -/
theorem FirstCut.tail {c : α} (hnot : ¬ p <+: c :: text) (h : FirstCut p (c :: text) before after) :
    ∃ before', before = c :: before' ∧ FirstCut p text before' after := by
  cases before with
  | nil => exact absurd ⟨after, h.split.symm⟩ hnot
  | cons d before' =>
    obtain ⟨rfl, -⟩ := List.cons.inj h.split
    exact ⟨before', rfl, (firstCut_cons hnot).mp h⟩

section Cut

variable [DecidableEq α]

/-- The text before and after the first place where the pattern stands. -/
def cut (p : List α) : List α → Option (List α × List α)
  | [] => if p = [] then some ([], []) else none
  | c :: text =>
    if p.isPrefixOf (c :: text) then some ([], (c :: text).drop p.length)
    else (cut p text).map fun halves => (c :: halves.1, halves.2)

theorem cut_eq_some_iff : cut p text = some (before, after) ↔ FirstCut p text before after := by
  induction text generalizing before with
  | nil =>
    rw [cut]
    constructor
    · intro h
      split at h
      · next hp =>
        obtain ⟨rfl, rfl⟩ := Prod.mk.inj (Option.some.inj h)
        exact ⟨by simp [hp], fun _ _ _ => Nat.zero_le _⟩
      · cases h
    · intro h
      obtain ⟨rfl, hrest⟩ := List.append_eq_nil_iff.mp h.split.symm
      obtain ⟨rfl, rfl⟩ := List.append_eq_nil_iff.mp hrest
      simp
  | cons c text ih =>
    rw [cut]
    by_cases hstarts : p <+: c :: text
    · rw [if_pos (List.isPrefixOf_iff_prefix.mpr hstarts)]
      obtain ⟨rest, hrest⟩ := hstarts
      have hcut : FirstCut p (c :: text) [] rest := hrest ▸ firstCut_of_prefix
      rw [← hrest, List.drop_left, hrest]
      constructor
      · intro h
        obtain ⟨rfl, rfl⟩ := Prod.mk.inj (Option.some.inj h)
        exact hcut
      · intro h
        obtain ⟨rfl, rfl⟩ := hcut.unique h
        rfl
    · rw [if_neg (List.isPrefixOf_iff_prefix.not.mpr hstarts)]
      constructor
      · intro h
        obtain ⟨⟨before', after'⟩, hcut, heq⟩ := Option.map_eq_some_iff.mp h
        obtain ⟨rfl, rfl⟩ := Prod.mk.inj heq
        exact (firstCut_cons hstarts).mpr (ih.mp hcut)
      · intro h
        obtain ⟨before', rfl, hcut⟩ := h.tail hstarts
        rw [ih.mpr hcut]
        rfl

theorem exists_firstCut (h : p <:+: text) : ∃ before after, FirstCut p text before after := by
  induction text with
  | nil =>
    obtain rfl := List.infix_nil.mp h
    exact ⟨[], [], firstCut_of_prefix⟩
  | cons c text ih =>
    by_cases hstarts : p <+: c :: text
    · obtain ⟨rest, hrest⟩ := hstarts
      exact ⟨[], rest, hrest ▸ firstCut_of_prefix⟩
    · obtain hhere | hlater := List.infix_cons_iff.mp h
      · exact absurd hhere hstarts
      · obtain ⟨before, after, hcut⟩ := ih hlater
        exact ⟨c :: before, after, (firstCut_cons hstarts).mpr hcut⟩

theorem cut_eq_none_iff : cut p text = none ↔ ¬ p <:+: text := by
  constructor
  · intro hnone hcontains
    obtain ⟨before, after, hcut⟩ := exists_firstCut hcontains
    rw [cut_eq_some_iff.mpr hcut] at hnone
    cases hnone
  · intro hnot
    cases hcut : cut p text with
    | none => rfl
    | some halves => exact absurd (cut_eq_some_iff.mp hcut).contained hnot

end Cut

end substring
