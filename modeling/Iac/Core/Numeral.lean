import Mathlib.Data.List.Basic
import Mathlib.Data.Nat.Basic
import Mathlib.Algebra.Group.Nat.Defs
import Mathlib.Algebra.Group.Int.Defs

namespace num

/-- Whether a character is a digit of a base up to ten. -/
def is_digit (radix : Nat) (c : Char) : Bool := c.isDigit && decide (c.toNat - 48 < radix)

/-- `from_str_radix` of an unsigned type whose values are below `bound`, for a base up to ten. -/
def from_str_radix (radix bound : Nat) (text : List Char) : Option Nat :=
  let digits := if text.head? = some '+' then text.tail else text
  let value := Nat.ofDigitChars radix digits 0
  if digits.isEmpty || !digits.all (is_digit radix) then none else if value < bound then some value else none

/-- What `ParseIntError` says of a text that is no such number. -/
def parse_int_error (radix bound : Nat) (text : List Char) : String :=
  let rec read (value : Nat) : List Char → String
    | [] => "invalid digit found in string"
    | c :: rest =>
      if !is_digit radix c then "invalid digit found in string"
      else if radix * value + (c.toNat - 48) < bound then read (radix * value + (c.toNat - 48)) rest
      else "number too large to fit in target type"
  if text = [] then "cannot parse integer from empty string"
  else read 0 (if text.head? = some '+' then text.tail else text)

/-- One more than the greatest `u32`. -/
def u32_bound : Nat := 4294967296

/-- `u64::from_str`. -/
def parse_u64 (text : List Char) : Option UInt64 := (from_str_radix 10 (2 ^ 64) text).map UInt64.ofNat

def saturating_mul (a b : UInt64) : UInt64 := .ofNat (min (a.toNat * b.toNat) (2 ^ 64 - 1))

theorem from_str_radix_lt {radix bound value : Nat} {text : List Char}
    (h : from_str_radix radix bound text = some value) : value < bound := by
  simp only [from_str_radix] at h
  generalize (if text.head? = some '+' then text.tail else text) = digits at h
  split_ifs at h with hdigits hbound
  exact Option.some.inj h ▸ hbound

theorem saturating_mul_toInt64 {a b : UInt64} (h : a.toNat * b.toNat < 2 ^ 63) :
    (saturating_mul a b).toInt64.toInt = (a.toNat * b.toNat : Nat) := by
  have hmin : min (a.toNat * b.toNat) (2 ^ 64 - 1) = a.toNat * b.toNat := by omega
  have hbits : (saturating_mul a b).toInt64.toInt = (saturating_mul a b).toBitVec.toInt := rfl
  have hnat : (saturating_mul a b).toBitVec.toNat = a.toNat * b.toNat := by
    have hsame : (saturating_mul a b).toBitVec.toNat = (saturating_mul a b).toNat := rfl
    rw [hsame, saturating_mul, hmin, UInt64.toNat_ofNat_of_lt' (by simp [UInt64.size]; omega)]
  rw [hbits, BitVec.toInt_eq_toNat_of_lt (by omega), hnat]

theorem parse_u64_toNat {text : List Char} {n : UInt64} (h : parse_u64 text = some n) :
    from_str_radix 10 (2 ^ 64) text = some n.toNat := by
  obtain ⟨value, hvalue, rfl⟩ := Option.map_eq_some_iff.mp h
  have hlt : value < 2 ^ 64 := from_str_radix_lt hvalue
  rw [hvalue, UInt64.toNat_ofNat_of_lt' hlt]

/-- The digits of a number in a base are digits of it. -/
theorem toDigits_digits {radix n : Nat} (hone : 1 < radix) (hten : radix ≤ 10) :
    (Nat.toDigits radix n).all (is_digit radix) = true := by
  have hdigit : ∀ d < 10, d.digitChar.isDigit = true ∧ d.digitChar.toNat - 48 = d := by decide
  induction n using Nat.strong_induction_on with
  | _ n ih =>
    rw [Nat.toDigits_eq_if hone]
    split
    · next hlt => simp [is_digit, hdigit n (by omega), hlt]
    · next hle =>
      have hmod := Nat.mod_lt n (by omega : 0 < radix)
      have hdiv := ih (n / radix) (Nat.div_lt_self (by omega) hone)
      simp [is_digit, hdiv, hdigit (n % radix) (by omega), hmod]

/-- `i64`'s `Display`. -/
def display_i64 (n : Int64) : List Char :=
  (if n.toInt < 0 then ['-'] else []) ++ Nat.toDigits 10 n.toInt.natAbs

/-- The value of decimal digits, with the sign, when an `i64` holds it. -/
def read_i64 (negative : Bool) (digits : List Char) : Option Int64 :=
  let magnitude : Int := Nat.ofDigitChars 10 digits 0
  let value := if negative then -magnitude else magnitude
  if digits.isEmpty || !digits.all (is_digit 10) then none
  else if -2 ^ 63 ≤ value ∧ value < 2 ^ 63 then some (Int64.ofInt value)
  else none

/-- `i64::from_str`. -/
def parse_i64 (text : List Char) : Option Int64 :=
  match text with
  | '-' :: digits => read_i64 true digits
  | '+' :: digits => read_i64 false digits
  | digits => read_i64 false digits

theorem digits_of_nat (n : Nat) : (Nat.toDigits 10 n).all (is_digit 10) = true ∧ Nat.toDigits 10 n ≠ [] := by
  refine ⟨toDigits_digits (by decide) (by decide), fun hnil => ?_⟩
  have hlength := Nat.length_toDigits_pos (b := 10) (n := n)
  simp [hnil] at hlength

theorem is_digit_iff {c : Char} (h : is_digit 10 c = true) : c.isDigit = true := by
  simp only [is_digit, Bool.and_eq_true] at h
  exact h.1

theorem head_toDigits (n : Nat) : ∃ c rest, Nat.toDigits 10 n = c :: rest ∧ c.isDigit = true := by
  obtain ⟨hdigits, hne⟩ := digits_of_nat n
  obtain ⟨c, rest, htext⟩ := List.exists_cons_of_ne_nil hne
  exact ⟨c, rest, htext, is_digit_iff (List.all_eq_true.mp hdigits c (by simp [htext]))⟩

theorem digit_of_mem_toString {n : Nat} {c : Char} (h : c ∈ (toString n).toList) : c.isDigit = true := by
  have htext : (toString n).toList = Nat.toDigits 10 n := by simp
  rw [htext] at h
  exact is_digit_iff (List.all_eq_true.mp (digits_of_nat n).1 c h)

/-- The text of a number is read as the number where it fits. -/
theorem from_str_radix_toString {n bound : Nat} (h : n < bound) : from_str_radix 10 bound (toString n).toList = some n := by
  have htext : (toString n).toList = Nat.toDigits 10 n := by simp
  obtain ⟨hdigits, hne⟩ := digits_of_nat n
  obtain ⟨c, rest, hhead, hc⟩ := head_toDigits n
  have hplus : (Nat.toDigits 10 n).head? ≠ some '+' := by
    rw [hhead]
    rintro ⟨⟩
    exact absurd hc (by decide)
  rw [htext, from_str_radix]
  simp only [if_neg hplus, hdigits, Nat.ofDigitChars_ten_toDigits, List.isEmpty_eq_false_iff.mpr hne, Bool.not_true,
    Bool.or_self, Bool.false_eq_true, if_false, if_pos h]

/-- The text of a number has digits and a sign only. -/
theorem mem_display_i64 {n : Int64} {c : Char} (h : c ∈ display_i64 n) : c = '-' ∨ c.isDigit = true := by
  obtain h | h := List.mem_append.mp h
  · split at h
    · exact .inl (List.mem_singleton.mp h)
    · cases h
  · exact .inr (is_digit_iff (List.all_eq_true.mp (digits_of_nat _).1 c h))

theorem read_i64_toDigits {negative : Bool} {magnitude : Nat} {n : Int64}
    (h : n.toInt = if negative then -(magnitude : Int) else magnitude) :
    read_i64 negative (Nat.toDigits 10 magnitude) = some n := by
  obtain ⟨hdigits, hne⟩ := digits_of_nat magnitude
  have hvalue : Nat.ofDigitChars 10 (Nat.toDigits 10 magnitude) 0 = magnitude := Nat.ofDigitChars_toDigits (by decide) (by decide)
  have hlow := n.le_toInt
  have hhigh := n.toInt_lt
  have hempty : (Nat.toDigits 10 magnitude).isEmpty = false := by simp [hne]
  unfold read_i64
  simp only [hvalue, hempty, hdigits, ← h, Bool.not_true, Bool.or_self, Bool.false_eq_true, ↓reduceIte]
  rw [if_pos ⟨hlow, hhigh⟩, Int64.ofInt_toInt]

/-- A number is read back from its text. -/
theorem parse_display_i64 (n : Int64) : parse_i64 (display_i64 n) = some n := by
  unfold display_i64
  split
  · next hneg =>
    refine read_i64_toDigits ?_
    simp only [↓reduceIte]
    omega
  · next hneg =>
    have hread : read_i64 false (Nat.toDigits 10 n.toInt.natAbs) = some n := by
      refine read_i64_toDigits ?_
      simp only [Bool.false_eq_true, ↓reduceIte]
      omega
    rw [List.nil_append]
    obtain ⟨hdigits, hne⟩ := digits_of_nat n.toInt.natAbs
    cases htext : Nat.toDigits 10 n.toInt.natAbs with
    | nil => exact absurd htext hne
    | cons c rest =>
      have hc : c.isDigit = true := is_digit_iff (List.all_eq_true.mp hdigits c (by simp [htext]))
      rw [htext] at hread
      unfold parse_i64
      split
      · next heq => exact absurd ((List.cons.inj heq).1 ▸ hc) (by decide)
      · next heq => exact absurd ((List.cons.inj heq).1 ▸ hc) (by decide)
      · exact hread

theorem display_i64_injective : Function.Injective display_i64 := fun m n h =>
  Option.some.inj ((parse_display_i64 m).symm.trans ((congrArg parse_i64 h).trans (parse_display_i64 n)))

end num
