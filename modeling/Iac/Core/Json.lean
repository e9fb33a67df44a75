import Mathlib.Data.List.Induction
import Mathlib.Data.String.Basic

namespace serde_json

inductive Number where
  | PosInt (n : Nat)
  | NegInt (n : Int)
  | Float (bits : UInt64)
  deriving DecidableEq, Repr

/-- `serde_json::Value`. The fields of an object stand in the order of the
`BTreeMap` that holds them, each key once. -/
inductive Value where
  | null
  | bool (b : Bool)
  | number (n : Number)
  | string (s : String)
  | array (items : List Value)
  | object (fields : List (String × Value))

mutual

/-- Equality of values, computed. -/
def Value.same : Value → Value → Bool
  | .null, .null => true
  | .bool a, .bool b => a == b
  | .number m, .number n => decide (m = n)
  | .string s, .string t => s == t
  | .array items, .array items' => same_items items items'
  | .object fields, .object fields' => same_fields fields fields'
  | _, _ => false

def same_items : List Value → List Value → Bool
  | [], [] => true
  | a :: items, b :: items' => a.same b && same_items items items'
  | _, _ => false

def same_field : String × Value → String × Value → Bool
  | (key, a), (key', b) => key == key' && a.same b

def same_fields : List (String × Value) → List (String × Value) → Bool
  | [], [] => true
  | a :: fields, b :: fields' => same_field a b && same_fields fields fields'
  | _, _ => false

end

mutual

theorem Value.same_iff (a b : Value) : a.same b = true ↔ a = b := by
  cases a <;> cases b <;> simp [Value.same]
  · exact same_items_iff _ _
  · exact same_fields_iff _ _

theorem same_items_iff (as bs : List Value) : same_items as bs = true ↔ as = bs := by
  cases as with
  | nil => cases bs <;> simp [same_items]
  | cons a as =>
    cases bs with
    | nil => simp [same_items]
    | cons b bs => simp [same_items, Value.same_iff a b, same_items_iff as bs]

theorem same_field_iff (a b : String × Value) : same_field a b = true ↔ a = b := by
  obtain ⟨key, a⟩ := a
  obtain ⟨key', b⟩ := b
  simp [same_field, Value.same_iff a b]

theorem same_fields_iff (as bs : List (String × Value)) : same_fields as bs = true ↔ as = bs := by
  cases as with
  | nil => cases bs <;> simp [same_fields]
  | cons a as =>
    cases bs with
    | nil => simp [same_fields]
    | cons b bs => simp [same_fields, same_field_iff a b, same_fields_iff as bs]

end

instance : DecidableEq Value := fun a b => decidable_of_iff _ (Value.same_iff a b)

def Value.get (v : Value) (key : String) : Option Value :=
  match v with
  | .object fields => (fields.find? fun f => f.1 == key).map Prod.snd
  | _ => none

def Value.as_str : Value → Option String
  | .string s => some s
  | _ => none

def Value.as_array : Value → Option (List Value)
  | .array items => some items
  | _ => none

/-- `Map::remove` on the object held at `key`, when there is one. -/
def Value.remove_at (v : Value) (key field : String) : Value :=
  match v with
  | .object fields =>
    .object (fields.map fun f =>
      match f with
      | (k, .object inner) => if k == key then (k, .object (inner.filter fun g => g.1 != field)) else f
      | f => f)
  | v => v

/-- The entry of a `BTreeMap` under `key`, replaced or added in key order. -/
def insert_field (key : String) (value : Value) : List (String × Value) → List (String × Value)
  | [] => [(key, value)]
  | (k, v) :: rest =>
    if key < k then (key, value) :: (k, v) :: rest
    else if key = k then (key, value) :: rest
    else (k, v) :: insert_field key value rest

/-- The object the `json!` macro builds. -/
def json (fields : List (String × Value)) : Value :=
  .object (fields.foldl (fun acc f => insert_field f.1 f.2 acc) [])

def of_option (s : Option String) : Value :=
  match s with
  | some s => .string s
  | none => .null

def of_nat (n : Nat) : Value := .number (.PosInt n)

theorem Value.object_of_get {v w : Value} {key : String} (h : v.get key = some w) : ∃ fields, v = .object fields := by
  cases v with
  | object fields => exact ⟨fields, rfl⟩
  | _ => cases h

section InsertField

variable (key : String) (value : Value) (fields : List (String × Value))

theorem Value.get_insert_field_self : (Value.object (insert_field key value fields)).get key = some value := by
  simp only [Value.get]
  induction fields with
  | nil => simp [insert_field]
  | cons field rest ih =>
    obtain ⟨k, v⟩ := field
    rw [insert_field]
    split_ifs with hlt heq
    · simp
    · simp
    · have hne : (k == key) = false := by simpa using Ne.symm heq
      simpa [hne] using ih

theorem Value.get_insert_field_of_ne {other : String} (h : other ≠ key) :
    (Value.object (insert_field key value fields)).get other = (Value.object fields).get other := by
  simp only [Value.get]
  have hkey : (key == other) = false := by simpa using Ne.symm h
  induction fields with
  | nil => simp [insert_field, hkey]
  | cons field rest ih =>
    obtain ⟨k, v⟩ := field
    rw [insert_field]
    split_ifs with hlt heq
    · simp [hkey]
    · subst heq
      simp [hkey]
    · cases hother : k == other with
      | true => simp [hother]
      | false => simpa [hother] using ih

/-- Inserting a field that is there changes nothing. -/
theorem insert_field_insert_field : insert_field key value (insert_field key value fields) = insert_field key value fields := by
  induction fields with
  | nil => simp [insert_field]
  | cons field rest ih =>
    obtain ⟨k, v⟩ := field
    rw [insert_field]
    split_ifs with hlt heq
    · simp [insert_field]
    · simp [insert_field]
    · rw [insert_field, if_neg hlt, if_neg heq, ih]

/-- What stands at a key of the object is the value last given for it. -/
theorem Value.get_json : (json fields).get key = (fields.reverse.find? fun f => f.1 == key).map Prod.snd := by
  induction fields using List.reverseRecOn with
  | nil => rfl
  | append_singleton fields field ih =>
    have hlast : json (fields ++ [field]) = .object (insert_field field.1 field.2
        (fields.foldl (fun acc f => insert_field f.1 f.2 acc) [])) := by
      rw [json, List.foldl_append]
      rfl
    rw [hlast, List.reverse_concat, List.find?_cons]
    by_cases hkey : field.1 = key
    · rw [← hkey, get_insert_field_self, BEq.rfl]
      rfl
    · have hskip : (field.1 == key) = false := by simpa using hkey
      rw [get_insert_field_of_ne _ _ _ (Ne.symm hkey), hskip]
      exact ih

end InsertField

end serde_json

/-- The functions of third-party crates that the store calls: the reader and
the compact writer of serde_json, and the hexadecimal SHA-256 digest. -/
structure Crates where
  from_str : String → Except String serde_json.Value
  to_string : serde_json.Value → String
  sha256_hex : List UInt8 → String

namespace serde_json

def escape (c : Char) : List Char :=
  if c = '"' then ['\\', '"'] else if c = '\\' then ['\\', '\\'] else [c]

/-- A JSON string without control characters. -/
def quote (s : String) : String :=
  String.ofList ('"' :: s.toList.flatMap escape ++ ['"'])

mutual

/-- The compact form of a value without floats, negative numbers and control characters. -/
def compact : Value → String
  | .null => "null"
  | .bool b => if b then "true" else "false"
  | .number (.PosInt n) => toString n
  | .number _ => ""
  | .string s => quote s
  | .array items => "[" ++ ",".intercalate (compact_items items) ++ "]"
  | .object fields => "\x7b" ++ ",".intercalate (compact_fields fields) ++ "\x7d"

def compact_items : List Value → List String
  | [] => []
  | item :: items => compact item :: compact_items items

def compact_field : String × Value → String
  | (key, value) => quote key ++ ":" ++ compact value

def compact_fields : List (String × Value) → List String
  | [] => []
  | field :: fields => compact_field field :: compact_fields fields

end

end serde_json

/-- What the crates do on the given values and their texts; the digest is a constant. -/
def Crates.on (values : List serde_json.Value) : Crates where
  from_str text :=
    match values.find? fun value => serde_json.compact value == text with
    | some value => .ok value
    | none => .error "expected value at line 1 column 1"
  to_string := serde_json.compact
  sha256_hex _ := "e3b0c44298fc1c149afbf4c8996fb92427ae41e4649b934ca495991b7852b855"
