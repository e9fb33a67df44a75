import Mathlib.Data.List.Basic
import Mathlib.Algebra.Group.Nat.Defs

/-- The bytes of a text. -/
def utf8 (text : List Char) : List UInt8 := text.flatMap String.utf8EncodeChar

/-- `str::as_bytes`. -/
def as_bytes (text : String) : List UInt8 := text.toUTF8.data.toList

namespace utf8

theorem utf8_nil : utf8 [] = [] := rfl

theorem utf8_cons (c : Char) (text : List Char) : utf8 (c :: text) = String.utf8EncodeChar c ++ utf8 text := rfl

theorem utf8_append (front back : List Char) : utf8 (front ++ back) = utf8 front ++ utf8 back := List.flatMap_append

theorem as_bytes_eq (text : String) : as_bytes text = utf8 text.toList := by
  have hencode : as_bytes text = text.toList.utf8Encode.data.toList := by
    rw [String.utf8Encode_toList]
    rfl
  rw [hencode, List.utf8Encode, List.toList_data_toByteArray, utf8]

theorem toByteArray_utf8 (text : List Char) : (utf8 text).toByteArray = (String.ofList text).toByteArray := by
  have hbytes : as_bytes (String.ofList text) = utf8 text := by rw [as_bytes_eq, String.toList_ofList]
  rw [← hbytes]
  exact ByteArray.ext (by simp [as_bytes, List.data_toByteArray])

theorem utf8_injective : Function.Injective utf8 := by
  intro a b h
  have hsame : (String.ofList a).toByteArray = (String.ofList b).toByteArray := by
    rw [← toByteArray_utf8, ← toByteArray_utf8, h]
  exact String.ofList_injective (String.toByteArray_inj.mp hsame)

theorem encode_eq_cons (c : Char) : ∃ b rest, String.utf8EncodeChar c = b :: rest ∧ b.IsUTF8FirstByte := by
  obtain ⟨b, rest, hencode⟩ := List.exists_cons_of_ne_nil (String.utf8EncodeChar_ne_nil (c := c))
  refine ⟨b, rest, hencode, ?_⟩
  have hfirst := UInt8.isUTF8FirstByte_getElem_zero_utf8EncodeChar (c := c)
  simpa only [hencode, List.getElem_cons_zero] using hfirst

theorem utf8_eq_nil_iff {text : List Char} : utf8 text = [] ↔ text = [] := by
  cases text with
  | nil => simp [utf8_nil]
  | cons c text => simp [utf8_cons, String.utf8EncodeChar_ne_nil]

/-- The bytes of a character do not begin those of another. -/
theorem encode_append_inj {c d : Char} {x y : List UInt8} (h : String.utf8EncodeChar c ++ x = String.utf8EncodeChar d ++ y) :
    c = d ∧ x = y := by
  have hbytes := congrArg List.toByteArray h
  rw [List.toByteArray_append, List.toByteArray_append] at hbytes
  have hdecode := congrArg (ByteArray.utf8DecodeChar? · 0) hbytes
  simp only [ByteArray.utf8DecodeChar?_utf8EncodeChar_append] at hdecode
  obtain rfl := Option.some.inj hdecode
  exact ⟨rfl, List.append_cancel_left h⟩

/-- A first byte stands where a character begins. -/
theorem boundary {text : List Char} {front back : List UInt8} {b : UInt8} (h : utf8 text = front ++ b :: back)
    (hb : b.IsUTF8FirstByte) : ∃ before after, text = before ++ after ∧ b :: back = utf8 after := by
  induction text generalizing front with
  | nil => simp [utf8_nil] at h
  | cons c text ih =>
    cases front with
    | nil => exact ⟨[], c :: text, rfl, h.symm⟩
    | cons a front =>
      rw [utf8_cons] at h
      obtain ⟨rest, hfront, hrest⟩ | ⟨rest, hencode, hrest⟩ := List.append_eq_append_iff.mp h
      · obtain ⟨before, after, rfl, hafter⟩ := ih hrest
        exact ⟨c :: before, after, rfl, hafter⟩
      · cases rest with
        | nil =>
          obtain ⟨before, after, rfl, hafter⟩ := ih (show utf8 text = [] ++ b :: back by simpa using hrest.symm)
          exact ⟨c :: before, after, rfl, hafter⟩
        | cons b' rest =>
          -- the byte is inside the character
          obtain ⟨rfl, -⟩ := List.cons.inj hrest
          have hinside : (String.utf8EncodeChar c)[front.length + 1]? = some b := by simp [hencode]
          obtain ⟨hlt, hget⟩ := List.getElem?_eq_some_iff.mp hinside
          rw [← hget, UInt8.isUTF8FirstByte_getElem_utf8EncodeChar] at hb
          omega

end utf8

namespace str

/-- `std::str::from_utf8`. -/
def from_utf8 (bytes : List UInt8) : Option (List Char) := (String.fromUTF8? bytes.toByteArray).map String.toList

theorem from_utf8_utf8 (text : List Char) : from_utf8 (utf8 text) = some text := by
  have hbytes := utf8.toByteArray_utf8 text
  have hvalid : (utf8 text).toByteArray.IsValidUTF8 := hbytes ▸ (String.ofList text).isValidUTF8
  unfold from_utf8 String.fromUTF8?
  rw [dif_pos hvalid]
  have hsame : String.fromUTF8 (utf8 text).toByteArray hvalid = String.ofList text :=
    String.toByteArray_inj.mp hbytes
  rw [Option.map_some, hsame, String.toList_ofList]

def is_continuation (b : UInt8) : Bool := 0x80 ≤ b && b ≤ 0xBF

/-- U+FFFD. -/
def replacement : Char := Char.ofNat 0xFFFD

/-- How many continuation bytes follow the first byte of a character, and the range of the first of them. -/
def sequence (b : UInt8) : Option (Nat × UInt8 × UInt8) :=
  if b < 0x80 then some (0, 0, 0)
  else if 0xC2 ≤ b && b ≤ 0xDF then some (1, 0x80, 0xBF)
  else if b = 0xE0 then some (2, 0xA0, 0xBF)
  else if b = 0xED then some (2, 0x80, 0x9F)
  else if 0xE1 ≤ b && b ≤ 0xEF then some (2, 0x80, 0xBF)
  else if b = 0xF0 then some (3, 0x90, 0xBF)
  else if b = 0xF4 then some (3, 0x80, 0x8F)
  else if 0xF1 ≤ b && b ≤ 0xF3 then some (3, 0x80, 0xBF)
  else none

/-- The continuation bytes of a character that are there, at most `n`. -/
def continuation (n : Nat) (lo hi : UInt8) (rest : List UInt8) : List UInt8 :=
  match n, rest with
  | n + 1, c :: rest => if lo ≤ c && c ≤ hi then c :: (rest.take n).takeWhile is_continuation else []
  | _, _ => []

def scalar (first : Nat) (rest : List UInt8) : Char :=
  Char.ofNat (rest.foldl (fun n b => n * 64 + b.toNat % 64) first)

/-- The character at the first byte and the number of bytes after it that it
takes; the bytes of a character that breaks off are replaced by one. -/
def lossy_char (b : UInt8) (rest : List UInt8) : Char × Nat :=
  match sequence b with
  | none => (replacement, 0)
  | some (n, lo, hi) =>
    let tail := continuation n lo hi rest
    if tail.length = n then (scalar (if n = 0 then b.toNat else b.toNat % 2 ^ (6 - n)) tail, n)
    else (replacement, tail.length)

def lossy : Nat → List UInt8 → List Char
  | 0, _ | _, [] => []
  | fuel + 1, b :: rest => (lossy_char b rest).1 :: lossy fuel (rest.drop (lossy_char b rest).2)

/-- `String::from_utf8_lossy`. -/
def from_utf8_lossy (bytes : List UInt8) : String := String.ofList (lossy bytes.length bytes)

example : from_utf8_lossy [0xE2, 0x82, 0xAC, 0xF0, 0x9F, 0x41, 0xFF] = "€\uFFFDA\uFFFD" := by decide

end str
