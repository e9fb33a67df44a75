import Iac.Core.Utf8

/-! Patterns in which a star stands for any text. -/

namespace glob

variable {α : Type} [DecidableEq α] {star p c : α} {pat seg text front back : List α}

/-- The text splits into what the pattern spells out and a text for each star. -/
def Matches (star : α) : List α → List α → Prop
  | [], text => text = []
  | p :: pat, text =>
    if p = star then ∃ front back, text = front ++ back ∧ Matches star pat back
    else ∃ back, text = p :: back ∧ Matches star pat back

theorem matches_star : Matches star (star :: pat) text ↔ ∃ front back, text = front ++ back ∧ Matches star pat back := by
  rw [Matches, if_pos rfl]

theorem matches_cons (h : p ≠ star) : Matches star (p :: pat) text ↔ ∃ back, text = p :: back ∧ Matches star pat back := by
  rw [Matches, if_neg h]

theorem matches_cons_cons (h : p ≠ star) : Matches star (p :: pat) (c :: text) ↔ p = c ∧ Matches star pat text := by
  rw [matches_cons h]
  simp [eq_comm, and_assoc]

/-- A star takes nothing, or the first character. -/
theorem matches_star_iff_drop :
    Matches star (star :: pat) text ↔ Matches star pat text ∨ Matches star (star :: pat) (text.drop 1) := by
  rw [matches_star, matches_star]
  constructor
  · rintro ⟨_ | ⟨c, front⟩, back, rfl, hback⟩
    · exact .inl hback
    · exact .inr ⟨front, back, rfl, hback⟩
  · rintro (hnone | ⟨front, back, hdrop, hback⟩)
    · exact ⟨[], text, rfl, hnone⟩
    · refine ⟨text.take 1 ++ front, back, ?_, hback⟩
      rw [List.append_assoc, ← hdrop, List.take_append_drop]

/-- What a star matches may be longer. -/
theorem Matches.extend (h : Matches star (star :: pat) back) (front : List α) :
    Matches star (star :: pat) (front ++ back) := by
  obtain ⟨mid, rest, rfl, hrest⟩ := matches_star.mp h
  exact matches_star.mpr ⟨front ++ mid, rest, (List.append_assoc ..).symm, hrest⟩

/-- Without a star a part of the pattern is a part of the text. -/
theorem matches_append (hseg : star ∉ seg) :
    Matches star (seg ++ pat) text ↔ ∃ back, text = seg ++ back ∧ Matches star pat back := by
  induction seg generalizing text with
  | nil => simp
  | cons p seg ih =>
    obtain ⟨hp, hseg⟩ := not_or.mp (List.mem_cons.not.mp hseg)
    rw [List.cons_append, matches_cons (Ne.symm hp)]
    simp only [ih hseg]
    constructor
    · rintro ⟨_, rfl, back, rfl, hback⟩
      exact ⟨back, rfl, hback⟩
    · rintro ⟨back, rfl, hback⟩
      exact ⟨seg ++ back, rfl, back, rfl, hback⟩

theorem matches_literal (h : star ∉ pat) : Matches star pat text ↔ text = pat := by
  have hsplit : Matches star (pat ++ []) text ↔ ∃ back, text = pat ++ back ∧ Matches star [] back := matches_append h
  rw [List.append_nil] at hsplit
  rw [hsplit]
  simp [Matches]

theorem matches_nil : Matches star pat [] ↔ ∀ p ∈ pat, p = star := by
  induction pat with
  | nil => simp [Matches]
  | cons p pat ih =>
    by_cases hp : p = star
    · subst hp
      rw [matches_star]
      simp [ih]
    · rw [matches_cons hp]
      simp [hp]

section Utf8

open utf8

private theorem star_not_mem {c : Char} (h : c ≠ '*') : (42 : UInt8) ∉ String.utf8EncodeChar c := by
  intro hmem
  obtain ⟨i, hi, hget⟩ := List.mem_iff_getElem.mp hmem
  have hfirst : (String.utf8EncodeChar c)[i].IsUTF8FirstByte := by
    rw [hget]
    exact .inl (by decide)
  obtain rfl := UInt8.isUTF8FirstByte_getElem_utf8EncodeChar.mp hfirst
  obtain ⟨b, rest, hencode, -⟩ := encode_eq_cons c
  obtain rfl : b = 42 := by simpa [hencode] using hget
  have hinj : String.utf8EncodeChar c ++ [] = String.utf8EncodeChar '*' ++ rest := by
    rw [List.append_nil, hencode]
    rfl
  exact h (encode_append_inj hinj).1

theorem matches_utf8_cons {c : Char} {pat : List Char} {bytes : List UInt8} (h : c ≠ '*') :
    Matches 42 (utf8 (c :: pat)) bytes ↔ ∃ back, bytes = String.utf8EncodeChar c ++ back ∧ Matches 42 (utf8 pat) back := by
  rw [utf8_cons]
  exact matches_append (star_not_mem h)

theorem matches_utf8_star {pat : List Char} {bytes : List UInt8} : Matches 42 (utf8 ('*' :: pat)) bytes ↔
    ∃ front back, bytes = front ++ back ∧ Matches 42 (utf8 pat) back := by
  rw [← matches_star]
  rfl

private theorem matches_of_bytes {pat text : List Char} (h : Matches 42 (utf8 pat) (utf8 text)) : Matches '*' pat text := by
  induction pat generalizing text with
  | nil => exact utf8_eq_nil_iff.mp h
  | cons p pat ih =>
    by_cases hp : p = '*'
    · subst hp
      obtain ⟨front, back, hsplit, hback⟩ := matches_utf8_star.mp h
      rw [matches_star]
      cases pat with
      | nil => exact ⟨text, [], by simp, rfl⟩
      | cons q pat =>
        by_cases hq : q = '*'
        · subst hq
          -- a second star takes what the first one would
          exact ⟨[], text, rfl, ih (hsplit ▸ (show Matches 42 (42 :: utf8 pat) back from hback).extend front)⟩
        · obtain ⟨rest, rfl, -⟩ := (matches_utf8_cons hq).mp hback
          obtain ⟨b, tail, hencode, hfirst⟩ := encode_eq_cons q
          rw [hencode, List.cons_append] at hsplit hback
          obtain ⟨before, after, rfl, hafter⟩ := boundary hsplit hfirst
          exact ⟨before, after, rfl, ih (hafter ▸ hback)⟩
    · obtain ⟨back, hsplit, hback⟩ := (matches_utf8_cons hp).mp h
      rw [matches_cons hp]
      cases text with
      | nil => simp [utf8_nil, String.utf8EncodeChar_ne_nil] at hsplit
      | cons c text =>
        obtain ⟨rfl, rfl⟩ := encode_append_inj hsplit
        exact ⟨text, rfl, ih hback⟩

private theorem bytes_match {pat text : List Char} (h : Matches '*' pat text) : Matches 42 (utf8 pat) (utf8 text) := by
  induction pat generalizing text with
  | nil => exact utf8_eq_nil_iff.mpr h
  | cons p pat ih =>
    by_cases hp : p = '*'
    · subst hp
      obtain ⟨front, back, rfl, hback⟩ := matches_star.mp h
      exact matches_utf8_star.mpr ⟨utf8 front, utf8 back, utf8_append front back, ih hback⟩
    · obtain ⟨back, rfl, hback⟩ := (matches_cons hp).mp h
      exact (matches_utf8_cons hp).mpr ⟨utf8 back, rfl, ih hback⟩

/-- A pattern matches the bytes of a text exactly when it matches the text. -/
theorem matches_utf8 {pat text : List Char} : Matches 42 (utf8 pat) (utf8 text) ↔ Matches '*' pat text :=
  ⟨matches_of_bytes, bytes_match⟩

end Utf8

end glob
