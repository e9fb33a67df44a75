import Iac.Core.Numeral
import Mathlib.Data.List.Range

namespace iac_controlplane.store

mutual

/-- The loop over the text, after `counter` placeholders. -/
def translate_chars (counter : UInt32) : List Char → List Char
  | [] => []
  | c :: chars =>
    if c = '\'' then c :: translate_literal counter chars
    else if c = '-' ∧ chars.head? = some '-' then c :: translate_comment counter chars
    else if c = '?' then '$' :: Nat.toDigits 10 (counter + 1).toNat ++ translate_chars (counter + 1) chars
    else c :: translate_chars counter chars

/-- The loop over a literal, with what follows it; a doubled quote does not end it. -/
def translate_literal (counter : UInt32) : List Char → List Char
  | [] => []
  | c2 :: chars =>
    if c2 = '\'' then
      match chars with
      | [] => [c2]
      | c3 :: chars =>
        if c3 = '\'' then c2 :: c3 :: translate_literal counter chars
        else c2 :: translate_chars counter (c3 :: chars)
    else c2 :: translate_literal counter chars

/-- The loop over a line comment, with what follows it. -/
def translate_comment (counter : UInt32) : List Char → List Char
  | [] => []
  | c2 :: chars =>
    if c2 = '\n' then c2 :: translate_chars counter chars else c2 :: translate_comment counter chars

end

def translate_placeholders_to_pg (sql : List Char) : List Char := translate_chars 0 sql

/-- Where the end of a text stands. -/
inductive Region where
  | code
  | dash
  | slash
  | literal
  | identifier
  | line_comment
  | block_comment
  | star
  deriving DecidableEq

/-- What is passed over besides literals and line comments. -/
structure Skips where
  identifiers : Bool
  block_comments : Bool

def Region.outside : Region → Bool
  | .code | .dash | .slash => true
  | _ => false

def Region.next (skips : Skips) (region : Region) (c : Char) : Region :=
  match region with
  | .literal => if c = '\'' then .code else .literal
  | .identifier => if c = '"' then .code else .identifier
  | .line_comment => if c = '\n' then .code else .line_comment
  | .block_comment => if c = '*' then .star else .block_comment
  | .star => if c = '/' then .code else if c = '*' then .star else .block_comment
  | .code | .dash | .slash =>
    if c = '\'' then .literal
    else if c = '"' ∧ skips.identifiers then .identifier
    else if c = '-' then (if region = .dash then .line_comment else .dash)
    else if c = '/' ∧ skips.block_comments then .slash
    else if c = '*' ∧ region = .slash then .block_comment
    else .code

def region (skips : Skips) (text : List Char) : Region := text.foldl (Region.next skips) .code

/-- A question mark stands there, outside of what is passed over. -/
def IsPlaceholder (skips : Skips) (sql : List Char) (i : Nat) : Prop :=
  sql[i]? = some '?' ∧ (region skips (sql.take i)).outside = true

instance (skips : Skips) (sql : List Char) (i : Nat) : Decidable (IsPlaceholder skips sql i) :=
  inferInstanceAs (Decidable (_ ∧ _))

/-- The placeholders before a position, in order. -/
def placeholders (skips : Skips) (sql : List Char) (i : Nat) : List Nat :=
  (List.range i).filter (IsPlaceholder skips sql)

/-- Which placeholder stands there: the k-th, from one. -/
def ordinal (skips : Skips) (sql : List Char) (i : Nat) : Nat := (placeholders skips sql (i + 1)).length

/-- The text with `$k` for its k-th placeholder, in the 32 bits of the counter. -/
def with_numbers (skips : Skips) (sql : List Char) : List Char :=
  sql.zipIdx.flatMap fun (c, i) =>
    if IsPlaceholder skips sql i then '$' :: Nat.toDigits 10 (ordinal skips sql i % 2 ^ 32) else [c]

/-- Only literals and line comments. -/
def documented : Skips := ⟨false, false⟩

/-- The regions character by character. -/
def rewrite_from (skips : Skips) (region : Region) (counter : UInt32) : List Char → List Char
  | [] => []
  | c :: chars =>
    if c = '?' ∧ region.outside = true then
      '$' :: Nat.toDigits 10 (counter + 1).toNat ++ rewrite_from skips (region.next skips c) (counter + 1) chars
    else c :: rewrite_from skips (region.next skips c) counter chars

theorem rewrite_dash {chars : List Char} (counter : UInt32) (hdash : chars.head? ≠ some '-') :
    rewrite_from documented .dash counter chars = rewrite_from documented .code counter chars := by
  cases chars with
  | nil => rfl
  | cons c chars =>
    have hc : c ≠ '-' := fun h => hdash (by rw [h, List.head?_cons])
    have hnext : Region.next documented .dash c = Region.next documented .code c := by simp [Region.next, hc]
    rw [rewrite_from, rewrite_from, hnext]
    rfl

/-- The nested loops go through the regions. -/
theorem translate_eq_rewrite (n : Nat) (counter : UInt32) (chars : List Char) (hn : chars.length ≤ n) :
    translate_chars counter chars = rewrite_from documented .code counter chars ∧
      translate_literal counter chars = rewrite_from documented .literal counter chars ∧
      translate_comment counter chars = rewrite_from documented .line_comment counter chars := by
  induction n generalizing counter chars with
  | zero =>
    obtain rfl := List.eq_nil_of_length_eq_zero (Nat.le_zero.mp hn)
    exact ⟨rfl, rfl, rfl⟩
  | succ n ih =>
    cases chars with
    | nil => exact ⟨rfl, rfl, rfl⟩
    | cons c chars =>
      have hlength : chars.length ≤ n := Nat.le_of_succ_le_succ hn
      obtain ⟨hcode, hliteral, hcomment⟩ := ih counter chars hlength
      refine ⟨?_, ?_, ?_⟩
      · rw [translate_chars, rewrite_from]
        by_cases hquote : c = '\''
        · simp [hquote, hliteral, Region.next]
        · by_cases hdash : c = '-'
          · subst hdash
            by_cases hnext : chars.head? = some '-'
            · obtain ⟨rest, rfl⟩ := List.head?_eq_some_iff.mp hnext
              simp [hcomment, Region.next, rewrite_from]
            · simp [hnext, hcode, Region.next, rewrite_dash counter hnext]
          · by_cases hmark : c = '?'
            · simp [hmark, Region.next, Region.outside, documented, (ih (counter + 1) chars hlength).1]
            · simp [hquote, hdash, hmark, hcode, Region.next, documented]
      · rw [rewrite_from]
        by_cases hquote : c = '\''
        · subst hquote
          cases chars with
          | nil => rfl
          | cons c3 chars =>
            by_cases hdouble : c3 = '\''
            · have hrest := (ih counter chars (by simp at hlength; omega)).2.1
              simp [translate_literal, hdouble, rewrite_from, Region.next, hrest]
            · simp [translate_literal, hdouble, Region.next, hcode, Region.outside]
        · have hcopied : translate_literal counter (c :: chars) = c :: translate_literal counter chars := by
            cases chars with
            | nil => simp [translate_literal, hquote]
            | cons c3 chars => simp [translate_literal, hquote]
          simp [hcopied, hquote, hliteral, Region.next, Region.outside]
      · rw [translate_comment, rewrite_from]
        by_cases hline : c = '\n'
        · simp [hline, hcode, Region.next]
        · simp [hline, hcomment, Region.next, Region.outside]

theorem placeholders_succ (skips : Skips) (sql : List Char) (i : Nat) :
    placeholders skips sql (i + 1) = placeholders skips sql i ++ if IsPlaceholder skips sql i then [i] else [] := by
  unfold placeholders
  rw [List.range_succ, List.filter_append]
  split_ifs with h
  · simp [h]
  · simp [h]

/-- The characters from a position on, each as its region and its number want it. -/
theorem rewrite_eq_numbers {skips : Skips} {sql : List Char} (before chars : List Char) (hsql : sql = before ++ chars) :
    rewrite_from skips (region skips before) (UInt32.ofNat (placeholders skips sql before.length).length) chars =
      (chars.zipIdx before.length).flatMap fun (c, i) =>
        if IsPlaceholder skips sql i then '$' :: Nat.toDigits 10 (ordinal skips sql i % 2 ^ 32) else [c] := by
  induction chars generalizing before with
  | nil => rfl
  | cons c chars ih =>
    have hstep := ih (before ++ [c]) (by rw [hsql, List.append_assoc]; rfl)
    have hregion : region skips (before ++ [c]) = (region skips before).next skips c := by
      simp [region, List.foldl_append]
    have hhere : IsPlaceholder skips sql before.length ↔ c = '?' ∧ (region skips before).outside = true := by
      simp [IsPlaceholder, hsql]
    rw [List.length_append, List.length_singleton, hregion, placeholders_succ] at hstep
    rw [rewrite_from, List.zipIdx_cons, List.flatMap_cons]
    simp only [← hhere]
    by_cases hmark : IsPlaceholder skips sql before.length
    · rw [if_pos hmark, List.length_append, List.length_singleton, UInt32.ofNat_add] at hstep
      have hnumber : (UInt32.ofNat (placeholders skips sql before.length).length + 1).toNat =
          ordinal skips sql before.length % 2 ^ 32 := by
        rw [ordinal, placeholders_succ, if_pos hmark, List.length_append, List.length_singleton, ← UInt32.toNat_ofNat',
          UInt32.ofNat_add]
        rfl
      rw [if_pos hmark, if_pos hmark, hnumber, ← hstep]
      rfl
    · rw [if_neg hmark, List.append_nil] at hstep
      rw [if_neg hmark, if_neg hmark, hstep]
      rfl

/-- The placeholders of a text have the numbers from one on, in their order. -/
theorem ordinals_in_order (skips : Skips) (sql : List Char) (n : Nat) :
    (placeholders skips sql n).map (ordinal skips sql) = List.range' 1 (placeholders skips sql n).length := by
  induction n with
  | zero => rfl
  | succ n ih =>
    by_cases hmark : IsPlaceholder skips sql n
    · have hlast : ordinal skips sql n = 1 + (placeholders skips sql n).length := by
        rw [ordinal, placeholders_succ, if_pos hmark, List.length_append, List.length_singleton, Nat.add_comm]
      rw [placeholders_succ, if_pos hmark, List.map_append, ih, List.length_append, List.length_singleton,
        List.range'_1_concat, List.map_singleton, hlast]
    · rw [placeholders_succ, if_neg hmark, List.append_nil, ih]

theorem no_placeholder {skips : Skips} {sql : List Char} (h : placeholders skips sql sql.length = []) (i : Nat) :
    ¬ IsPlaceholder skips sql i := by
  intro hmark
  obtain ⟨hlt, -⟩ := List.getElem?_eq_some_iff.mp hmark.1
  have hmem : i ∈ placeholders skips sql sql.length :=
    List.mem_filter.mpr ⟨List.mem_range.mpr hlt, decide_eq_true hmark⟩
  rw [h] at hmem
  cases hmem

theorem without_placeholders {skips : Skips} {sql : List Char} (h : ∀ i, ¬ IsPlaceholder skips sql i) :
    with_numbers skips sql = sql := by
  unfold with_numbers
  simp only [h, ↓reduceIte]
  rw [← List.map_eq_flatMap]
  exact List.zipIdx_map_fst 0 sql

/-- The k-th question mark outside of literals and line comments becomes `$k`, the
numbers follow the order of the text, and no other character changes. -/
theorem translate_numbers (sql : List Char) :
    translate_placeholders_to_pg sql = with_numbers documented sql ∧
      (placeholders documented sql sql.length).map (ordinal documented sql) =
        List.range' 1 (placeholders documented sql sql.length).length ∧
      ((∀ i, ¬ IsPlaceholder documented sql i) → translate_placeholders_to_pg sql = sql) := by
  have hsame : translate_placeholders_to_pg sql = with_numbers documented sql := by
    rw [translate_placeholders_to_pg, (translate_eq_rewrite sql.length 0 sql (Nat.le_refl _)).1]
    exact rewrite_eq_numbers [] sql rfl
  exact ⟨hsame, ordinals_in_order documented sql sql.length, fun h => by rw [hsame, without_placeholders h]⟩

/-- All that SQL passes over. -/
def sql_skips : Skips := ⟨true, true⟩

/-- A question mark in a quoted identifier, and one in a block comment, are rewritten. -/
theorem identifier_is_rewritten :
    (∀ i, ¬ IsPlaceholder sql_skips "SELECT \"a?\" FROM t".toList i) ∧
      translate_placeholders_to_pg "SELECT \"a?\" FROM t".toList = "SELECT \"a$1\" FROM t".toList ∧
      (∀ i, ¬ IsPlaceholder sql_skips "SELECT 1 /* ? */".toList i) ∧
      translate_placeholders_to_pg "SELECT 1 /* ? */".toList = "SELECT 1 /* $1 */".toList := by
  exact ⟨no_placeholder (by decide), by decide, no_placeholder (by decide), by decide⟩

end iac_controlplane.store
