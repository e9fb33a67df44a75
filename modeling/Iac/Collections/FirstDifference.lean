import Mathlib.Data.List.DropRight
import Mathlib.Data.List.Lex
import Mathlib.Order.Lattice

namespace first_difference

theorem rdropWhile_append_cons {β : Type} {p : β → Bool} {y : β} (hy : p y = false) (front back : List β) :
    (front ++ y :: back).rdropWhile p = front ++ y :: back.rdropWhile p := by
  induction back using List.reverseRecOn with
  | nil =>
    rw [List.rdropWhile_concat_neg p front y (by simp [hy])]
    simp
  | append_singleton back z ih =>
    have hassoc : front ++ y :: (back ++ [z]) = (front ++ y :: back) ++ [z] := by simp
    rw [hassoc, List.rdropWhile_concat, List.rdropWhile_concat]
    split_ifs
    · exact ih
    · exact hassoc.symm

variable {α : Type} [LinearOrder α] {a b : List α}

/-- The lists differ somewhere, and where they first do the element of `a` is the smaller one. -/
def Before (a b : List α) : Prop :=
  ∃ common x y rest rest', a = common ++ x :: rest ∧ b = common ++ y :: rest' ∧ x < y

theorem Before.append (h : Before a b) (c d : List α) : Before (a ++ c) (b ++ d) := by
  obtain ⟨common, x, y, rest, rest', rfl, rfl, hlt⟩ := h
  exact ⟨common, x, y, rest ++ c, rest' ++ d, by simp, by simp, hlt⟩

theorem Before.prepend (h : Before a b) (c : List α) : Before (c ++ a) (c ++ b) := by
  obtain ⟨common, x, y, rest, rest', rfl, rfl, hlt⟩ := h
  exact ⟨c ++ common, x, y, rest, rest', by simp, by simp, hlt⟩

theorem before_of_lt {x y : α} (h : x < y) (rest rest' : List α) : Before (x :: rest) (y :: rest') :=
  ⟨[], x, y, rest, rest', rfl, rfl, h⟩

theorem Before.lt (h : Before a b) : a < b := by
  obtain ⟨common, x, y, rest, rest', rfl, rfl, hlt⟩ := h
  exact List.append_left_lt (List.Lex.rel hlt)

theorem Before.not_lt (h : Before a b) : ¬ b < a :=
  fun hlt => lt_asymm h.lt hlt

/-- The lists differ somewhere, and neither ends there. -/
def Apart (a b : List α) : Prop := Before a b ∨ Before b a

theorem Apart.append_ne (h : Apart a b) (c d : List α) : a ++ c ≠ b ++ d := by
  obtain hbefore | hbefore := h
  · exact (hbefore.append c d).lt.ne
  · exact (hbefore.append d c).lt.ne'

theorem Before.not_prefix (h : Before a b) : ¬ b <+: a := by
  obtain ⟨common, x, y, rest, rest', rfl, rfl, hlt⟩ := h
  intro hprefix
  obtain ⟨hhead, -⟩ := List.cons_prefix_cons.mp ((List.prefix_append_right_inj common).mp hprefix)
  exact hlt.ne' hhead

/-- Dropping from the right keeps a first difference, unless nothing of the
smaller list is left from there on. -/
theorem Before.rdropWhile (h : Before a b) {p : α → Bool} (hp : ∀ x ∈ a, ∀ y ∈ b, x < y → p y = false) :
    Before (a.rdropWhile p) (b.rdropWhile p) ∨
      a.rdropWhile p <+: b.rdropWhile p ∧ a.rdropWhile p ≠ b.rdropWhile p := by
  obtain ⟨common, x, y, rest, rest', rfl, rfl, hlt⟩ := h
  have hkept := rdropWhile_append_cons (hp x (by simp) y (by simp) hlt) common rest'
  have hprefix : (common ++ x :: rest).rdropWhile p <+: common ++ x :: rest := List.rdropWhile_prefix p _
  generalize (common ++ x :: rest).rdropWhile p = left at hprefix
  have hbefore (rest'' : List α) : Before (common ++ x :: rest'') (common ++ y :: rest'.rdropWhile p) :=
    ⟨common, x, y, rest'', _, rfl, rfl, hlt⟩
  rw [hkept]
  have hcommon : common ++ [x] <+: common ++ x :: rest := ⟨rest, by simp⟩
  obtain hshort | ⟨rest'', rfl⟩ := List.prefix_or_prefix_of_prefix hprefix hcommon
  · obtain rfl | hwithin := List.prefix_concat_iff.mp hshort
    · exact .inl (hbefore [])
    · refine .inr ⟨hwithin.trans ⟨_, rfl⟩, fun heq => ?_⟩
      have hlength := hwithin.length_le
      rw [heq, List.length_append, List.length_cons] at hlength
      omega
  · exact .inl (by simpa using hbefore rest'')

end first_difference
