import Mathlib.Data.List.Basic
import Mathlib.Data.List.DropRight

namespace str

/-- Unicode's White_Space, which `str::trim` removes. -/
def is_whitespace (c : Char) : Bool :=
  let n := c.toNat
  (9 ≤ n && n ≤ 13) || n == 0x20 || n == 0x85 || n == 0xA0 || n == 0x1680 || (0x2000 ≤ n && n ≤ 0x200A) ||
    n == 0x2028 || n == 0x2029 || n == 0x202F || n == 0x205F || n == 0x3000

/-- A condition on each character, checked along the text. -/
theorem forall_mem_of_all {p : Char → Prop} [DecidablePred p] {text : List Char}
    (h : (text.all fun c => decide (p c)) = true) : ∀ c ∈ text, p c :=
  fun c hc => of_decide_eq_true (List.all_eq_true.mp h c hc)

/-- `str::contains`. -/
def contains (text pattern : List Char) : Bool := text.tails.any pattern.isPrefixOf

def strip_prefix (start text : List Char) : Option (List Char) :=
  if start.isPrefixOf text then some (text.drop start.length) else none

def strip_suffix (final text : List Char) : Option (List Char) :=
  if final.isSuffixOf text then some (text.take (text.length - final.length)) else none

/-- `str::rsplit_once` at a character. -/
def rsplit_once (separator : Char) (text : List Char) : Option (List Char × List Char) :=
  match text.reverse.dropWhile (· != separator) with
  | [] => none
  | _ :: front => some (front.reverse, (text.reverse.takeWhile (· != separator)).reverse)

def trim (text : List Char) : List Char :=
  (text.dropWhile is_whitespace).rdropWhile is_whitespace

theorem not_whitespace_of_digit {c : Char} (h : c.isDigit = true) : is_whitespace c = false := by
  simp only [Char.isDigit, Bool.and_eq_true, decide_eq_true_eq, UInt32.le_iff_toNat_le, ge_iff_le] at h
  have hcode : c.val.toNat = c.toNat := rfl
  rw [hcode] at h
  simp only [is_whitespace, Bool.or_eq_false_iff, Bool.and_eq_false_iff, decide_eq_false_iff_not, beq_eq_false_iff_ne]
  simp at h
  omega

theorem not_whitespace_of_graphic {c : Char} (hlow : 32 < c.toNat) (hhigh : c.toNat < 127) : is_whitespace c = false := by
  simp only [is_whitespace, Bool.or_eq_false_iff, Bool.and_eq_false_iff, decide_eq_false_iff_not, beq_eq_false_iff_ne]
  omega

/-- A text without whitespace stays as it is. -/
theorem trim_eq_self {text : List Char} (h : ∀ c ∈ text, is_whitespace c = false) : trim text = text := by
  have hstart : text.dropWhile is_whitespace = text := by
    cases text with
    | nil => rfl
    | cons c rest => simp [h c (List.mem_cons_self ..)]
  unfold trim
  rw [hstart, List.rdropWhile_eq_self_iff]
  intro hne
  rw [h _ (List.getLast_mem hne)]
  exact Bool.false_ne_true

/-- The line without the carriage return that ends it. -/
def strip_cr (line : List Char) : List Char :=
  if line.getLast? = some '\r' then line.dropLast else line

/-- `str::lines`: the last line counts when it is not empty. -/
def lines (text : List Char) : List (List Char) :=
  let pieces := text.splitOn '\n'
  pieces.dropLast.map strip_cr ++ (pieces.getLast?.filter fun last => last ≠ []).toList

/-- The text of lines that each end with a line feed. -/
def unlines (list : List (List Char)) : List Char := list.flatMap fun line => line ++ ['\n']

/-- A line without line feed and without a carriage return at its end. -/
def PlainLine (line : List Char) : Prop := '\n' ∉ line ∧ line.getLast? ≠ some '\r'

theorem splitOn_unlines {list : List (List Char)} (h : ∀ line ∈ list, '\n' ∉ line) :
    (unlines list).splitOn '\n' = list ++ [[]] := by
  induction list with
  | nil => rfl
  | cons line list ih =>
    obtain ⟨hline, hrest⟩ := List.forall_mem_cons.mp h
    have hcons : unlines (line :: list) = line ++ '\n' :: unlines list := by simp [unlines]
    rw [hcons, List.splitOn_append_cons_self_of_not_mem hline, ih hrest, List.cons_append]

theorem lines_unlines {list : List (List Char)} (h : ∀ line ∈ list, PlainLine line) : lines (unlines list) = list := by
  rw [lines, splitOn_unlines fun line hline => (h line hline).1]
  have hstrip : list.map strip_cr = list := by
    refine (List.map_congr_left fun line hline => ?_).trans (List.map_id' list)
    exact if_neg (h line hline).2
  simp [hstrip]

theorem from_utf8_eq_some_iff {bytes : ByteArray} {text : String} :
    String.fromUTF8? bytes = some text ↔ text.toByteArray = bytes := by
  unfold String.fromUTF8?
  split_ifs with hvalid
  · rw [Option.some.injEq]
    constructor
    · rintro rfl
      rfl
    · rintro rfl
      exact String.toByteArray_inj.mp rfl
  · refine iff_of_false (by simp) ?_
    rintro rfl
    exact hvalid text.isValidUTF8

def debug_char (c : Char) : List Char :=
  if c = '"' then ['\\', '"']
  else if c = '\\' then ['\\', '\\']
  else if c = '\n' then ['\\', 'n']
  else if c = '\r' then ['\\', 'r']
  else if c = '\t' then ['\\', 't']
  else [c]

/-- The `{:?}` form of a text without unprintable characters other than tab
and line breaks. -/
def debug (s : String) : String :=
  String.ofList ('"' :: s.toList.flatMap debug_char ++ ['"'])

end str
