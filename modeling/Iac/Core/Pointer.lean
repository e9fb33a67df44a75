import Iac.Collections.Paths
import Iac.Core.Json
import Iac.Core.Numeral

namespace serde_json

/-- `str::replace` of two characters by one. -/
def replace_pair (a b c : Char) : List Char → List Char
  | x :: y :: rest => if x = a ∧ y = b then c :: replace_pair a b c rest else x :: replace_pair a b c (y :: rest)
  | rest => rest

/-- A reference token as it stands in a pointer. -/
def escaped (token : List Char) : List Char :=
  token.flatMap fun c => if c = '~' then ['~', '0'] else if c = '/' then ['~', '1'] else [c]

def unescaped (text : List Char) : List Char := replace_pair '~' '0' '~' (replace_pair '~' '1' '/' text)

/-- The reference tokens of an RFC 6901 pointer. -/
def reference_tokens (pointer : String) : Option (List String) :=
  match pointer.toList with
  | [] => some []
  | '/' :: rest => some ((rest.splitOn '/').map fun text => String.ofList (unescaped text))
  | _ => none

/-- The pointer with the given reference tokens. -/
def render_tokens (tokens : List String) : String :=
  String.ofList (path.slashed (tokens.map fun token => escaped token.toList))

/-- The index that a token stands for: it has no sign and no leading zero. -/
def parse_index (token : String) : Option Nat :=
  if token.toList.head? = some '+' ∨ token.toList.head? = some '0' ∧ token.toList.length ≠ 1 then none
  else num.from_str_radix 10 (2 ^ 64) token.toList

/-- The child of an array or of an object that a token stands for. -/
def Value.child (v : Value) (token : String) : Option Value :=
  match v with
  | .object _ => v.get token
  | .array items => (parse_index token).bind fun i => items[i]?
  | _ => none

def Value.locate (v : Value) : List String → Option Value
  | [] => some v
  | token :: tokens => (v.child token).bind fun w => w.locate tokens

/-- `Value::pointer` -/
def Value.pointer (v : Value) (pointer : String) : Option Value :=
  (reference_tokens pointer).bind v.locate

/-- The entry under the key, changed. -/
def change_field (key : String) (change : Value → Value) : List (String × Value) → List (String × Value)
  | [] => []
  | (k, v) :: rest => if k == key then (k, change v) :: rest else (k, v) :: change_field key change rest

/-- The value with another one in the place that the tokens lead to, when there is such a place. -/
def Value.put (new : Value) : List String → Value → Value
  | [], _ => new
  | token :: tokens, .object fields => .object (change_field token (put new tokens) fields)
  | token :: tokens, .array items =>
    match parse_index token with
    | some i => .array (items.modify i (put new tokens))
    | none => .array items
  | _ :: _, v => v

/-- An assignment through `Value::pointer_mut`. -/
def Value.set_pointer (v : Value) (pointer : String) (new : Value) : Value :=
  match reference_tokens pointer with
  | some tokens => Value.put new tokens v
  | none => v

section Escaping

theorem replace_pair_cons_of_ne {a b c x : Char} (h : x ≠ a) (rest : List Char) :
    replace_pair a b c (x :: rest) = x :: replace_pair a b c rest := by
  cases rest with
  | nil => rfl
  | cons y rest => rw [replace_pair, if_neg fun hboth => h hboth.1]

private theorem replace_slash (token : List Char) : replace_pair '~' '1' '/' (escaped token) =
    token.flatMap fun c => if c = '~' then ['~', '0'] else [c] := by
  induction token with
  | nil => rfl
  | cons c token ih =>
    rw [escaped, List.flatMap_cons, List.flatMap_cons, ← escaped]
    by_cases htilde : c = '~'
    · subst htilde
      simp only [if_true, List.cons_append, List.nil_append]
      rw [replace_pair, if_neg (by decide), replace_pair_cons_of_ne (by decide), ih]
    · by_cases hslash : c = '/'
      · subst hslash
        rw [if_neg htilde, if_pos rfl, if_neg htilde, List.cons_append, List.cons_append, List.nil_append]
        rw [replace_pair, if_pos ⟨rfl, rfl⟩, ih]
        rfl
      · rw [if_neg htilde, if_neg hslash, if_neg htilde, List.cons_append, List.nil_append,
          replace_pair_cons_of_ne htilde, ih]
        rfl

private theorem replace_tilde (token : List Char) : replace_pair '~' '0' '~'
    (token.flatMap fun c => if c = '~' then ['~', '0'] else [c]) = token := by
  induction token with
  | nil => rfl
  | cons c token ih =>
    rw [List.flatMap_cons]
    by_cases htilde : c = '~'
    · subst htilde
      rw [if_pos rfl, List.cons_append, List.cons_append, List.nil_append, replace_pair, if_pos ⟨rfl, rfl⟩, ih]
    · rw [if_neg htilde, List.cons_append, List.nil_append, replace_pair_cons_of_ne htilde, ih]

theorem unescaped_escaped (token : List Char) : unescaped (escaped token) = token := by
  rw [unescaped, replace_slash, replace_tilde]

theorem slash_not_mem_escaped (token : List Char) : '/' ∉ escaped token := by
  intro h
  obtain ⟨c, -, hc⟩ := List.mem_flatMap.mp h
  split_ifs at hc with htilde hslash
  · simp at hc
  · simp at hc
  · exact hslash (List.mem_singleton.mp hc).symm

theorem splitOn_slashed {segments : List (List Char)} (h : ∀ s ∈ segments, '/' ∉ s) :
    (path.slashed segments).splitOn '/' = [] :: segments := by
  induction segments using List.reverseRecOn with
  | nil => rfl
  | append_singleton segments last ih =>
    have hlast : path.slashed (segments ++ [last]) = path.slashed segments ++ '/' :: last := by simp [path.slashed]
    rw [hlast, List.splitOn_append_cons_self, ih fun s hs => h s (List.mem_append_left _ hs),
      List.splitOn_eq_singleton (h last (by simp)), List.cons_append]

/-- A pointer is read back as the tokens it was made of. -/
theorem reference_tokens_render (tokens : List String) : reference_tokens (render_tokens tokens) = some tokens := by
  cases tokens with
  | nil => rfl
  | cons token tokens =>
    have hfree : ∀ s ∈ (token :: tokens).map (fun token => escaped token.toList), '/' ∉ s := by
      intro s hs
      obtain ⟨token, -, rfl⟩ := List.mem_map.mp hs
      exact slash_not_mem_escaped _
    have hsplit := splitOn_slashed hfree
    have hslashed : path.slashed ((token :: tokens).map fun token => escaped token.toList) =
        '/' :: (escaped token.toList ++ path.slashed (tokens.map fun token => escaped token.toList)) := rfl
    rw [hslashed, ← List.nil_append ('/' :: _), List.splitOn_append_cons_self, List.splitOn_nil,
      List.singleton_append] at hsplit
    have hrest := List.cons.inj hsplit |>.2
    rw [reference_tokens, render_tokens, String.toList_ofList, hslashed]
    simp only
    rw [hrest, List.map_map]
    simp [Function.comp_def, unescaped_escaped]

end Escaping

section Locate

variable {v w new old : Value} {token : String} {tokens rest : List String}

theorem get_cons_of_ne {key k : String} (h : k ≠ key) (value : Value) (fields : List (String × Value)) :
    (Value.object ((k, value) :: fields)).get key = (Value.object fields).get key := by
  simp [Value.get, h]

theorem get_cons_self (key : String) (value : Value) (fields : List (String × Value)) :
    (Value.object ((key, value) :: fields)).get key = some value := by
  simp [Value.get]

/-- A change under a key is a change of what the key leads to. -/
theorem change_field_spec {key : String} {value : Value} {fields : List (String × Value)}
    (h : (Value.object fields).get key = some value) (change : Value → Value) :
    ∃ before after, fields = before ++ (key, value) :: after ∧ (∀ field ∈ before, field.1 ≠ key) ∧
      change_field key change fields = before ++ (key, change value) :: after := by
  induction fields with
  | nil => simp [Value.get] at h
  | cons field fields ih =>
    obtain ⟨k, old⟩ := field
    by_cases hk : k = key
    · subst hk
      rw [get_cons_self] at h
      obtain rfl := Option.some.inj h
      exact ⟨[], fields, rfl, by simp, by simp [change_field]⟩
    · rw [get_cons_of_ne hk] at h
      obtain ⟨before, after, rfl, hbefore, hchange⟩ := ih h
      exact ⟨(k, old) :: before, after, rfl, by simpa [hk] using hbefore, by simp [change_field, hk, hchange]⟩

theorem get_between {key : String} {before after : List (String × Value)} (h : ∀ field ∈ before, field.1 ≠ key)
    (value : Value) : (Value.object (before ++ (key, value) :: after)).get key = some value := by
  induction before with
  | nil => exact get_cons_self key value after
  | cons field before ih =>
    obtain ⟨hfield, hrest⟩ := List.forall_mem_cons.mp h
    exact (get_cons_of_ne hfield field.2 _).trans (ih hrest)

theorem change_field_between {key : String} {before after : List (String × Value)}
    (h : ∀ field ∈ before, field.1 ≠ key) (value : Value) (change : Value → Value) :
    change_field key change (before ++ (key, value) :: after) = before ++ (key, change value) :: after := by
  induction before with
  | nil => simp [change_field]
  | cons field before ih =>
    obtain ⟨hfield, hrest⟩ := List.forall_mem_cons.mp h
    obtain ⟨k, old⟩ := field
    simp only [List.cons_append, change_field, ih hrest]
    rw [if_neg (by simpa using hfield)]

theorem locate_append (v : Value) (tokens rest : List String) :
    v.locate (tokens ++ rest) = (v.locate tokens).bind fun w => w.locate rest := by
  induction tokens generalizing v with
  | nil => rfl
  | cons token tokens ih =>
    rw [List.cons_append, Value.locate, Value.locate]
    cases v.child token with
    | none => rfl
    | some w => exact ih w

private theorem modify_set {items : List Value} {i : Nat} {x : Value} (change : Value → Value) :
    (items.set i x).modify i change = items.set i (change x) := by
  refine List.ext_getElem? fun j => ?_
  rw [List.getElem?_modify, List.getElem?_set, List.getElem?_set]
  split_ifs <;> simp_all

/-- A child stands in a frame, which neither a look at it nor a put below it changes. -/
theorem child_in_frame (h : v.child token = some w) : ∃ frame : Value → Value, v = frame w ∧
    (∀ x, (frame x).child token = some x) ∧
    ∀ new tokens x, Value.put new (token :: tokens) (frame x) = frame (Value.put new tokens x) := by
  cases v with
  | object fields =>
    obtain ⟨before, after, hfields, hbefore, -⟩ := change_field_spec h id
    refine ⟨fun x => .object (before ++ (token, x) :: after), congrArg _ hfields, fun x => ?_, fun new tokens x => ?_⟩
    · exact get_between hbefore x
    · exact congrArg Value.object (change_field_between hbefore x _)
  | array items =>
    obtain ⟨i, hindex, hitem⟩ := Option.bind_eq_some_iff.mp h
    obtain ⟨hi, rfl⟩ := List.getElem?_eq_some_iff.mp hitem
    refine ⟨fun x => .array (items.set i x), ?_, fun x => ?_, fun new tokens x => ?_⟩
    · exact congrArg Value.array (List.set_getElem_self hi).symm
    · simp [Value.child, hindex, hi]
    · simp only [Value.put, hindex, modify_set]
  | _ => simp [Value.child] at h

theorem locate_put (h : v.locate tokens = some w) (new : Value) : (Value.put new tokens v).locate tokens = some new := by
  induction tokens generalizing v with
  | nil => rfl
  | cons token tokens ih =>
    obtain ⟨x, hchild, hrest⟩ := Option.bind_eq_some_iff.mp h
    obtain ⟨frame, rfl, hlook, hput⟩ := child_in_frame hchild
    rw [hput, Value.locate, hlook]
    exact ih hrest

/-- A put into a place is a put of the changed value that stood there. -/
theorem put_append (h : v.locate tokens = some w) (new : Value) (rest : List String) :
    Value.put new (tokens ++ rest) v = Value.put (Value.put new rest w) tokens v := by
  induction tokens generalizing v with
  | nil =>
    obtain rfl := Option.some.inj h
    rfl
  | cons token tokens ih =>
    obtain ⟨x, hchild, hrest⟩ := Option.bind_eq_some_iff.mp h
    obtain ⟨frame, rfl, -, hput⟩ := child_in_frame hchild
    rw [List.cons_append, hput, hput, ih hrest]

theorem put_put (h : v.locate tokens = some w) (old new : Value) :
    Value.put new tokens (Value.put old tokens v) = Value.put new tokens v := by
  induction tokens generalizing v with
  | nil => rfl
  | cons token tokens ih =>
    obtain ⟨x, hchild, hrest⟩ := Option.bind_eq_some_iff.mp h
    obtain ⟨frame, rfl, -, hput⟩ := child_in_frame hchild
    rw [hput, hput, hput, ih hrest]

theorem put_located (h : v.locate tokens = some w) : Value.put w tokens v = v := by
  induction tokens generalizing v with
  | nil => exact (Option.some.inj h).symm
  | cons token tokens ih =>
    obtain ⟨x, hchild, hrest⟩ := Option.bind_eq_some_iff.mp h
    obtain ⟨frame, rfl, -, hput⟩ := child_in_frame hchild
    rw [hput, ih hrest]

end Locate

section Indices

theorem no_leading_zero {n : Nat} (h : (Nat.toDigits 10 n).head? = some '0') : n = 0 := by
  induction n using Nat.strong_induction_on with
  | _ n ih =>
    rw [Nat.toDigits_eq_if (by decide)] at h
    split at h
    · next hlt =>
      have hdigit : ∀ d < 10, d.digitChar = '0' → d = 0 := by decide
      exact hdigit n hlt (Option.some.inj h)
    · next hle =>
      rw [List.head?_append_of_ne_nil _ Nat.toDigits_ne_nil] at h
      have hzero := ih (n / 10) (by omega) h
      omega

/-- The text of an index is a token for it. -/
theorem parse_index_toString {i : Nat} (h : i < 2 ^ 64) : parse_index (toString i) = some i := by
  have htext : (toString i).toList = Nat.toDigits 10 i := by simp
  rw [parse_index, if_neg, num.from_str_radix_toString h]
  rw [htext]
  rintro (hsign | ⟨hzero, hlength⟩)
  · obtain ⟨c, rest, hhead, hc⟩ := num.head_toDigits i
    rw [hhead] at hsign
    obtain rfl := Option.some.inj hsign
    exact absurd hc (by decide)
  · rw [no_leading_zero hzero] at hlength
    exact hlength (by decide)

theorem parse_index_lt {token : String} {i : Nat} (h : parse_index token = some i) : i < 2 ^ 64 := by
  rw [parse_index] at h
  split_ifs at h
  exact num.from_str_radix_lt h

theorem index_text_injective {i j : Nat} (h : toString i = toString j) : i = j := by
  have hdigits : Nat.toDigits 10 i = Nat.toDigits 10 j := by simpa using congrArg String.toList h
  rw [← Nat.ofDigitChars_ten_toDigits (n := i), hdigits, Nat.ofDigitChars_ten_toDigits]

theorem escaped_digits (n : Nat) : escaped (toString n).toList = (toString n).toList := by
  rw [escaped]
  refine (List.flatMap_congr fun c hc => ?_).trans (List.flatMap_singleton' _)
  have hdigit := num.digit_of_mem_toString hc
  rw [if_neg, if_neg]
  · rintro rfl
    exact absurd hdigit (by decide)
  · rintro rfl
    exact absurd hdigit (by decide)

end Indices

mutual

/-- Each key of an object stands there once, and every array fits into the memory. -/
def Value.Addressable : Value → Prop
  | .array items => items.length ≤ 2 ^ 64 ∧ addressable_items items
  | .object fields => (fields.map Prod.fst).Nodup ∧ addressable_fields fields
  | _ => True

def addressable_items : List Value → Prop
  | [] => True
  | item :: items => item.Addressable ∧ addressable_items items

def addressable_fields : List (String × Value) → Prop
  | [] => True
  | (_, value) :: fields => value.Addressable ∧ addressable_fields fields

end

section Render

theorem render_index (tokens : List String) (i : Nat) :
    render_tokens (tokens ++ [toString i]) = render_tokens tokens ++ "/" ++ toString i := by
  rw [← String.toList_inj]
  simp only [render_tokens, path.slashed, List.map_append, List.flatMap_append, String.toList_ofList, String.toList_append,
    List.map_cons, List.map_nil, List.flatMap_cons, List.flatMap_nil, List.append_nil, escaped_digits]
  simp

theorem render_key (tokens : List String) (key : String) :
    render_tokens (tokens ++ [key]) = render_tokens tokens ++ "/" ++ String.ofList (escaped key.toList) := by
  rw [← String.toList_inj]
  simp [render_tokens, path.slashed]

theorem pointer_render (v : Value) (tokens : List String) : v.pointer (render_tokens tokens) = v.locate tokens := by
  rw [Value.pointer, reference_tokens_render, Option.bind_some]

theorem set_pointer_render (v : Value) (tokens : List String) (new : Value) :
    v.set_pointer (render_tokens tokens) new = Value.put new tokens v := by
  rw [Value.set_pointer, reference_tokens_render]

end Render

end serde_json
