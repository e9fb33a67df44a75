import Iac.Collections.Related
import Iac.Core.Json

namespace f64

def is_finite (bits : UInt64) : Bool := bits &&& 0x7FF0000000000000 != 0x7FF0000000000000

def is_nan (bits : UInt64) : Bool := !is_finite bits && bits &&& 0x000FFFFFFFFFFFFF != 0

/-- `==`: the zeros are equal, and no NaN is equal to anything. -/
def eq (a b : UInt64) : Bool :=
  !is_nan a && !is_nan b && (a == b || (a ||| b) &&& 0x7FFFFFFFFFFFFFFF == 0)

theorem eq_comm (a b : UInt64) : eq a b = eq b a := by
  unfold eq
  rw [Bool.and_comm (!is_nan a), Bool.beq_comm, UInt64.or_comm]

theorem eq_self {a : UInt64} (h : is_finite a = true) : eq a a = true := by simp [eq, is_nan, h]

end f64

namespace serde_json

def Number.is_finite : Number → Bool
  | .Float bits => f64.is_finite bits
  | _ => true

/-- `==` on numbers. -/
def Number.eqv : Number → Number → Bool
  | .PosInt m, .PosInt n => m == n
  | .NegInt m, .NegInt n => m == n
  | .Float a, .Float b => f64.eq a b
  | _, _ => false

theorem Number.eqv_comm (m n : Number) : m.eqv n = n.eqv m := by
  cases m <;> cases n
  all_goals first | rfl | exact Bool.beq_comm | exact f64.eq_comm _ _

theorem Number.eqv_self {n : Number} (h : n.is_finite = true) : n.eqv n = true := by
  cases n with
  | Float bits => exact f64.eq_self h
  | _ => simp [Number.eqv]

mutual

/-- `==` on values. -/
def Value.eqv : Value → Value → Bool
  | .null, .null => true
  | .bool a, .bool b => a == b
  | .number m, .number n => m.eqv n
  | .string s, .string t => s == t
  | .array items, .array items' => eqv_items items items'
  | .object fields, .object fields' => eqv_fields fields fields'
  | _, _ => false
termination_by structural v => v

def eqv_items : List Value → List Value → Bool
  | [], [] => true
  | a :: items, b :: items' => a.eqv b && eqv_items items items'
  | _, _ => false
termination_by structural items => items

def eqv_field : String × Value → String × Value → Bool
  | (key, a), (key', b) => key == key' && a.eqv b
termination_by structural field => field

def eqv_fields : List (String × Value) → List (String × Value) → Bool
  | [], [] => true
  | a :: fields, b :: fields' => eqv_field a b && eqv_fields fields fields'
  | _, _ => false
termination_by structural fields => fields

end

mutual

/-- Objects have their keys in order, numbers are finite: all that a value of the crate can be. -/
def Value.WellFormed : Value → Prop
  | .number n => n.is_finite = true
  | .array items => items_well_formed items
  | .object fields => sorted_map.Sorted fields ∧ fields_well_formed fields
  | _ => True

def items_well_formed : List Value → Prop
  | [] => True
  | a :: items => a.WellFormed ∧ items_well_formed items

def field_well_formed : String × Value → Prop
  | (_, a) => a.WellFormed

def fields_well_formed : List (String × Value) → Prop
  | [] => True
  | a :: fields => field_well_formed a ∧ fields_well_formed fields

end

section Induction

variable {P : Value → Prop} (null : P .null) (bool : ∀ b, P (.bool b)) (number : ∀ n, P (.number n))
variable (string : ∀ s, P (.string s)) (array : ∀ items, (∀ a ∈ items, P a) → P (.array items))
variable (object : ∀ fields, (∀ f ∈ fields, P f.2) → P (.object fields))

include null bool number string array object

/-- Induction with the values inside of an array and of an object. -/
@[elab_as_elim]
theorem Value.tree_induct : ∀ v, P v
  | .null => null
  | .bool b => bool b
  | .number n => number n
  | .string s => string s
  | .array items => array items fun a _ => Value.tree_induct a
  | .object fields => object fields fun f _ => Value.tree_induct f.2
termination_by v => sizeOf v
decreasing_by
  · decreasing_tactic
  · have hlt := List.sizeOf_lt_of_mem ‹f ∈ fields›
    have hpair : sizeOf f = 1 + sizeOf f.1 + sizeOf f.2 := Prod.mk.sizeOf_spec _ _
    rw [Value.object.sizeOf_spec]
    omega

end Induction

theorem eqv_items_iff (items items' : List Value) :
    eqv_items items items' = true ↔ List.Forall₂ (fun a b => a.eqv b = true) items items' := by
  induction items generalizing items' with
  | nil => cases items' <;> simp [eqv_items]
  | cons a items ih => cases items' <;> simp [eqv_items, ih]

theorem eqv_field_iff (e f : String × Value) : eqv_field e f = true ↔ e.1 = f.1 ∧ e.2.eqv f.2 = true := by
  obtain ⟨key, a⟩ := e
  obtain ⟨key', b⟩ := f
  simp [eqv_field]

theorem eqv_fields_iff (fields fields' : List (String × Value)) :
    eqv_fields fields fields' = true ↔
      List.Forall₂ (fun e f => e.1 = f.1 ∧ e.2.eqv f.2 = true) fields fields' := by
  induction fields generalizing fields' with
  | nil => cases fields' <;> simp [eqv_fields]
  | cons a fields ih => cases fields' <;> simp [eqv_fields, eqv_field_iff, ih]

theorem items_well_formed_iff (items : List Value) : items_well_formed items ↔ ∀ a ∈ items, a.WellFormed := by
  induction items with
  | nil => simp [items_well_formed]
  | cons a items ih => simp [items_well_formed, ih]

theorem fields_well_formed_iff (fields : List (String × Value)) :
    fields_well_formed fields ↔ ∀ f ∈ fields, f.2.WellFormed := by
  induction fields with
  | nil => simp [fields_well_formed]
  | cons f fields ih =>
    obtain ⟨key, a⟩ := f
    rw [fields_well_formed, ih, List.forall_mem_cons]
    rfl

theorem Value.eqv_comm (a b : Value) : a.eqv b = b.eqv a := by
  induction a using Value.tree_induct generalizing b with
  | number m => cases b <;> simp [Value.eqv, Number.eqv_comm m]
  | array items ih =>
    cases b with
    | array items' =>
      simp only [Value.eqv]
      induction items generalizing items' with
      | nil => cases items' <;> rfl
      | cons a items ihs =>
        obtain ⟨ha, hitems⟩ := List.forall_mem_cons.mp ih
        cases items' with
        | nil => rfl
        | cons b items' => rw [eqv_items, eqv_items, ha b, ihs hitems items']
    | _ => rfl
  | object fields ih =>
    cases b with
    | object fields' =>
      simp only [Value.eqv]
      induction fields generalizing fields' with
      | nil => cases fields' <;> rfl
      | cons f fields ihs =>
        obtain ⟨hf, hfields⟩ := List.forall_mem_cons.mp ih
        cases fields' with
        | nil => rfl
        | cons g fields' =>
          have hfield : eqv_field f g = eqv_field g f := by
            obtain ⟨key, a⟩ := f
            obtain ⟨key', b⟩ := g
            rw [eqv_field, eqv_field, hf b, Bool.beq_comm]
          rw [eqv_fields, eqv_fields, hfield, ihs hfields fields']
    | _ => rfl
  | _ => cases b <;> simp [Value.eqv, Bool.beq_comm]

/-- Objects are equal when their values under each key are. -/
theorem object_eqv_iff {fields fields' : List (String × Value)} (h : sorted_map.Sorted fields)
    (h' : sorted_map.Sorted fields') :
    (Value.object fields).eqv (.object fields') = true ↔
      sorted_map.Related (fun a b => a.eqv b = true) fields fields' := by
  rw [h.related_iff h', ← eqv_fields_iff, Value.eqv]

theorem insert_field_eq_upsert (key : String) (value : Value) (fields : List (String × Value)) :
    insert_field key value fields = sorted_map.upsert key (fun _ => value) fields := by
  induction fields with
  | nil => rfl
  | cons field rest ih =>
    obtain ⟨k, v⟩ := field
    rw [insert_field, sorted_map.upsert, ih]
    split_ifs with hlt heq
    · rfl
    · rw [heq]
    · rfl

theorem Value.get_eq_lookup (key : String) (fields : List (String × Value)) :
    (Value.object fields).get key = sorted_map.lookup key fields := by
  simp [Value.get, sorted_map.lookup, Bool.beq_eq_decide_eq]

/-- The object of fields without repeated keys has them, in order. -/
theorem json_of_unique {fields : List (String × Value)} (h : sorted_map.Unique fields) :
    ∃ sorted, json fields = .object sorted ∧ sorted_map.Sorted sorted ∧
      ∀ key, sorted_map.lookup key sorted = sorted_map.lookup key fields := by
  refine ⟨_, rfl, ?_, fun key => ?_⟩
  · induction fields using List.reverseRecOn with
    | nil => exact sorted_map.sorted_nil
    | append_singleton fields field ih =>
      have hrest : sorted_map.Unique fields := by
        rw [sorted_map.Unique, List.map_append] at h
        exact h.of_append_left
      rw [List.foldl_append, List.foldl_cons, List.foldl_nil, insert_field_eq_upsert]
      exact (ih hrest).upsert
  · have hget := Value.get_json key fields
    have hreversed : sorted_map.Unique fields.reverse := by
      rw [sorted_map.Unique, List.map_reverse, List.nodup_reverse]
      exact h
    rw [json, Value.get_eq_lookup] at hget
    rw [hget]
    refine Option.ext fun v => ?_
    have hmem := hreversed.lookup_eq_some_iff (k := key) (v := v)
    rw [List.mem_reverse, ← h.lookup_eq_some_iff] at hmem
    simpa [sorted_map.lookup, Bool.beq_eq_decide_eq] using hmem

end serde_json

namespace serde_yaml_ng

open serde_json (Number)

/-- `serde_yaml_ng::Value`. The entries of a mapping stand in the order of its
`IndexMap`, each key once; its numbers are those of JSON and the other floats. -/
inductive Value where
  | null
  | bool (b : Bool)
  | number (n : Number)
  | string (s : String)
  | sequence (items : List Value)
  | mapping (entries : List (Value × Value))
  | tagged (tag : String) (value : Value)

/-- `==` on numbers: a NaN is equal to a NaN here. -/
def number_eqv : Number → Number → Bool
  | .Float a, .Float b => f64.is_nan a && f64.is_nan b || f64.eq a b
  | m, n => m.eqv n

mutual

/-- `==` on values; the order of the entries of a mapping does not count. -/
def Value.eqv : Value → Value → Bool
  | .null, .null => true
  | .bool a, .bool b => a == b
  | .number m, .number n => number_eqv m n
  | .string s, .string t => s == t
  | .sequence items, .sequence items' => eqv_items items items'
  | .mapping entries, .mapping entries' => entries.length == entries'.length && eqv_entries entries entries'
  | .tagged s a, .tagged t b => s == t && a.eqv b
  | _, _ => false
termination_by structural v => v

def eqv_items : List Value → List Value → Bool
  | [], [] => true
  | a :: items, b :: items' => a.eqv b && eqv_items items items'
  | _, _ => false
termination_by structural items => items

/-- The mapping has the key, with an equal value. -/
def eqv_entry : Value × Value → List (Value × Value) → Bool
  | (key, a), entries' => (entries'.find? fun e => key.eqv e.1).any fun e => a.eqv e.2
termination_by structural entry => entry

def eqv_entries : List (Value × Value) → List (Value × Value) → Bool
  | [], _ => true
  | a :: entries, entries' => eqv_entry a entries' && eqv_entries entries entries'
termination_by structural entries => entries

end

def text_entry : Value × Value → Option (String × Value)
  | (.string key, v) => some (key, v)
  | _ => none

/-- The entries whose keys are strings. -/
def texts (entries : List (Value × Value)) : List (String × Value) := entries.filterMap text_entry

mutual

/-- What JSON can say: string keys at every depth, finite numbers, no tags. -/
def Value.plain : Value → Bool
  | .number n => n.is_finite
  | .sequence items => plain_items items
  | .mapping entries => plain_entries entries && decide ((texts entries).map Prod.fst).Nodup
  | .tagged _ _ => false
  | _ => true
termination_by structural v => v

def plain_items : List Value → Bool
  | [] => true
  | a :: items => a.plain && plain_items items
termination_by structural items => items

def plain_entry : Value × Value → Bool
  | (.string _, v) => v.plain
  | _ => false
termination_by structural entry => entry

def plain_entries : List (Value × Value) → Bool
  | [] => true
  | e :: entries => plain_entry e && plain_entries entries
termination_by structural entries => entries

end

mutual

/-- The JSON of a plain value. -/
def Value.data : Value → serde_json.Value
  | .null => .null
  | .bool b => .bool b
  | .number n => .number n
  | .string s => .string s
  | .sequence items => .array (data_items items)
  | .mapping entries => serde_json.json (data_entries entries)
  | .tagged _ _ => .null
termination_by structural v => v

def data_items : List Value → List serde_json.Value
  | [] => []
  | a :: items => a.data :: data_items items
termination_by structural items => items

def data_entry : Value × Value → Option (String × serde_json.Value)
  | (.string key, v) => some (key, v.data)
  | _ => none
termination_by structural entry => entry

def data_entries : List (Value × Value) → List (String × serde_json.Value)
  | [] => []
  | e :: entries => (data_entry e).toList ++ data_entries entries
termination_by structural entries => entries

end

mutual

/-- The same data as a value of the other crate. -/
def of_json : serde_json.Value → Value
  | .null => .null
  | .bool b => .bool b
  | .number n => .number n
  | .string s => .string s
  | .array items => .sequence (of_json_items items)
  | .object fields => .mapping (of_json_fields fields)
termination_by structural v => v

def of_json_items : List serde_json.Value → List Value
  | [] => []
  | a :: items => of_json a :: of_json_items items
termination_by structural items => items

def of_json_field : String × serde_json.Value → Value × Value
  | (key, v) => (.string key, of_json v)
termination_by structural field => field

def of_json_fields : List (String × serde_json.Value) → List (Value × Value)
  | [] => []
  | f :: fields => of_json_field f :: of_json_fields fields
termination_by structural fields => fields

end

section Induction

variable {P : Value → Prop} (null : P .null) (bool : ∀ b, P (.bool b)) (number : ∀ n, P (.number n))
variable (string : ∀ s, P (.string s)) (sequence : ∀ items, (∀ a ∈ items, P a) → P (.sequence items))
variable (mapping : ∀ entries, (∀ e ∈ entries, P e.2) → P (.mapping entries)) (tagged : ∀ tag v, P v → P (.tagged tag v))

include null bool number string sequence mapping tagged

/-- Induction with the values inside of a sequence and of a mapping. -/
@[elab_as_elim]
theorem Value.tree_induct : ∀ v, P v
  | .null => null
  | .bool b => bool b
  | .number n => number n
  | .string s => string s
  | .sequence items => sequence items fun a _ => Value.tree_induct a
  | .mapping entries => mapping entries fun e _ => Value.tree_induct e.2
  | .tagged tag v => tagged tag v (Value.tree_induct v)
termination_by v => sizeOf v
decreasing_by
  · decreasing_tactic
  · have hlt := List.sizeOf_lt_of_mem ‹e ∈ entries›
    have hpair : sizeOf e = 1 + sizeOf e.1 + sizeOf e.2 := Prod.mk.sizeOf_spec _ _
    rw [Value.mapping.sizeOf_spec]
    omega
  · decreasing_tactic

end Induction

/-- Entries with these keys as strings. -/
def keyed (fields : List (String × Value)) : List (Value × Value) := fields.map fun f => (.string f.1, f.2)

theorem texts_keyed (fields : List (String × Value)) : texts (keyed fields) = fields := by
  induction fields with
  | nil => rfl
  | cons f fields ih =>
    rw [keyed, List.map_cons, texts, List.filterMap_cons]
    exact congrArg (f :: ·) ih

theorem plain_items_iff (items : List Value) : plain_items items = true ↔ ∀ a ∈ items, a.plain = true := by
  induction items with
  | nil => simp [plain_items]
  | cons a items ih => simp [plain_items, ih]

theorem plain_entries_iff (entries : List (Value × Value)) :
    plain_entries entries = true ↔ ∃ fields, entries = keyed fields ∧ ∀ f ∈ fields, f.2.plain = true := by
  induction entries with
  | nil =>
    refine iff_of_true rfl ⟨[], rfl, fun f hf => nomatch hf⟩
  | cons e entries ih =>
    rw [plain_entries, Bool.and_eq_true, ih]
    constructor
    · rintro ⟨he, fields, rfl, hfields⟩
      obtain ⟨key, v⟩ := e
      cases key with
      | string key => exact ⟨(key, v) :: fields, rfl, List.forall_mem_cons.mpr ⟨he, hfields⟩⟩
      | _ => cases he
    · rintro ⟨fields, hentries, hfields⟩
      cases fields with
      | nil => cases hentries
      | cons f fields =>
        obtain ⟨rfl, rfl⟩ := List.cons.inj hentries
        obtain ⟨hf, hfields⟩ := List.forall_mem_cons.mp hfields
        exact ⟨hf, fields, rfl, hfields⟩

theorem plain_mapping_iff (entries : List (Value × Value)) :
    (Value.mapping entries).plain = true ↔
      ∃ fields, entries = keyed fields ∧ sorted_map.Unique fields ∧ ∀ f ∈ fields, f.2.plain = true := by
  rw [Value.plain, Bool.and_eq_true, plain_entries_iff, decide_eq_true_eq]
  constructor
  · rintro ⟨⟨fields, rfl, hplain⟩, hunique⟩
    rw [texts_keyed] at hunique
    exact ⟨fields, rfl, hunique, hplain⟩
  · rintro ⟨fields, rfl, hunique, hplain⟩
    rw [texts_keyed]
    exact ⟨⟨fields, rfl, hplain⟩, hunique⟩

theorem eqv_items_iff (items items' : List Value) :
    eqv_items items items' = true ↔ List.Forall₂ (fun a b => a.eqv b = true) items items' := by
  induction items generalizing items' with
  | nil => cases items' <;> simp [eqv_items]
  | cons a items ih => cases items' <;> simp [eqv_items, ih]

theorem find_keyed (key : String) (fields : List (String × Value)) :
    ((keyed fields).find? fun e => (Value.string key).eqv e.1) =
      (sorted_map.lookup key fields).map fun v => (Value.string key, v) := by
  induction fields with
  | nil => rfl
  | cons f fields ih =>
    rw [keyed, List.map_cons, List.find?_cons, sorted_map.lookup_cons]
    by_cases hkey : f.1 = key
    · have heqv : (Value.string key).eqv (.string f.1) = true := by simp [Value.eqv, hkey]
      rw [heqv, if_pos hkey, hkey]
      rfl
    · have heqv : (Value.string key).eqv (.string f.1) = false := by simpa [Value.eqv] using Ne.symm hkey
      rw [heqv, if_neg hkey]
      exact ih

theorem eqv_entries_iff (fields fields' : List (String × Value)) :
    eqv_entries (keyed fields) (keyed fields') = true ↔
      ∀ f ∈ fields, ∃ w, sorted_map.lookup f.1 fields' = some w ∧ f.2.eqv w = true := by
  induction fields with
  | nil => exact iff_of_true rfl fun f hf => nomatch hf
  | cons f fields ih =>
    rw [keyed, List.map_cons, eqv_entries, Bool.and_eq_true, List.forall_mem_cons]
    refine and_congr ?_ ih
    rw [eqv_entry, find_keyed]
    cases sorted_map.lookup f.1 fields' with
    | none => simp
    | some w => simp

/-- Mappings with string keys are equal when their values under each key are. -/
theorem mapping_eqv_iff {fields fields' : List (String × Value)} (h : sorted_map.Unique fields)
    (h' : sorted_map.Unique fields') :
    (Value.mapping (keyed fields)).eqv (.mapping (keyed fields')) = true ↔
      sorted_map.Related (fun a b => a.eqv b = true) fields fields' := by
  rw [h.related_iff h', Value.eqv, Bool.and_eq_true, eqv_entries_iff]
  refine and_congr (by simp [keyed]) (forall₂_congr fun f hf => ?_)
  constructor
  · rintro ⟨w, hw, hr⟩
    exact ⟨(f.1, w), sorted_map.mem_of_lookup hw, rfl, hr⟩
  · rintro ⟨⟨key, w⟩, hmem, hkey, hr⟩
    obtain rfl : f.1 = key := hkey
    exact ⟨w, h'.lookup_eq_some_iff.mpr hmem, hr⟩

theorem data_items_eq (items : List Value) : data_items items = items.map Value.data := by
  induction items with
  | nil => rfl
  | cons a items ih => rw [data_items, ih, List.map_cons]

theorem data_entries_keyed (fields : List (String × Value)) :
    data_entries (keyed fields) = fields.map fun f => (f.1, f.2.data) := by
  induction fields with
  | nil => rfl
  | cons f fields ih =>
    rw [keyed, List.map_cons, data_entries]
    exact congrArg ((f.1, f.2.data) :: ·) ih

theorem unique_map_data {fields : List (String × Value)} (h : sorted_map.Unique fields) :
    sorted_map.Unique (fields.map fun f => (f.1, f.2.data)) := by
  rw [sorted_map.Unique, List.map_map]
  exact h

/-- The object of a mapping has the data of its values under its keys. -/
theorem data_mapping {fields : List (String × Value)} (h : sorted_map.Unique fields) :
    ∃ sorted, (Value.mapping (keyed fields)).data = .object sorted ∧ sorted_map.Sorted sorted ∧
      ∀ key, sorted_map.lookup key sorted = (sorted_map.lookup key fields).map Value.data := by
  obtain ⟨sorted, hjson, hsorted, hlookup⟩ := serde_json.json_of_unique (unique_map_data h)
  refine ⟨sorted, ?_, hsorted, fun key => ?_⟩
  · rw [Value.data, data_entries_keyed, hjson]
  · rw [hlookup, sorted_map.lookup_map]

theorem number_eqv_finite {m n : Number} (h : m.is_finite = true) : number_eqv m n = m.eqv n := by
  cases m with
  | Float a =>
    cases n with
    | Float b =>
      have hnan : f64.is_nan a = false := by
        have hfinite : f64.is_finite a = true := h
        simp [f64.is_nan, hfinite]
      simp [number_eqv, hnan, Number.eqv]
    | _ => rfl
  | _ => rfl

/-- Equality of plain values is that of their JSON. -/
theorem data_eqv_iff {a b : Value} (ha : a.plain = true) (hb : b.plain = true) :
    a.data.eqv b.data = true ↔ a.eqv b = true := by
  induction a using Value.tree_induct generalizing b with
  | null =>
    cases b with
    | tagged tag v => cases hb
    | _ => simp [Value.data, Value.eqv, serde_json.Value.eqv, serde_json.json]
  | number m =>
    have hm : m.is_finite = true := ha
    cases b <;> simp [Value.data, Value.eqv, serde_json.Value.eqv, serde_json.json, number_eqv_finite hm]
  | sequence items ih =>
    cases b with
    | sequence items' =>
      rw [Value.plain, plain_items_iff] at ha hb
      rw [Value.data, Value.data, serde_json.Value.eqv, serde_json.eqv_items_iff, Value.eqv, eqv_items_iff,
        data_items_eq, data_items_eq, List.forall₂_map_left_iff, List.forall₂_map_right_iff, List.forall₂_iff_zip,
        List.forall₂_iff_zip]
      refine and_congr_right fun _ => forall₃_congr fun v w hmem => ?_
      obtain ⟨hv, hw⟩ := List.of_mem_zip hmem
      exact ih v hv (ha v hv) (hb w hw)
    | _ => simp [Value.data, Value.eqv, serde_json.Value.eqv, serde_json.json]
  | mapping entries ih =>
    cases b with
    | mapping entries' =>
      obtain ⟨fields, rfl, hunique, hplain⟩ := (plain_mapping_iff _).mp ha
      obtain ⟨fields', rfl, hunique', hplain'⟩ := (plain_mapping_iff _).mp hb
      obtain ⟨sorted, hdata, hsorted, hlookup⟩ := data_mapping hunique
      obtain ⟨sorted', hdata', hsorted', hlookup'⟩ := data_mapping hunique'
      rw [hdata, hdata', serde_json.object_eqv_iff hsorted hsorted', mapping_eqv_iff hunique hunique']
      refine forall_congr' fun key => ?_
      rw [hlookup, hlookup']
      cases hfound : sorted_map.lookup key fields with
      | none => simp [sorted_map.rel_none_left]
      | some v =>
        rw [Option.map_some, sorted_map.rel_some_left, sorted_map.rel_some_left]
        have hmem := sorted_map.mem_of_lookup hfound
        cases hfound' : sorted_map.lookup key fields' with
        | none => simp
        | some w =>
          have hmem' := sorted_map.mem_of_lookup hfound'
          have hsame := ih (.string key, v) (List.mem_map.mpr ⟨_, hmem, rfl⟩) (hplain _ hmem) (hplain' _ hmem')
          simpa using hsame
    | _ => simp [Value.data, Value.eqv, serde_json.Value.eqv, serde_json.json]
  | tagged tag v _ => cases ha
  | _ => cases b <;> simp [Value.data, Value.eqv, serde_json.Value.eqv, serde_json.json]

theorem of_json_items_eq (items : List serde_json.Value) : of_json_items items = items.map of_json := by
  induction items with
  | nil => rfl
  | cons a items ih => rw [of_json_items, ih, List.map_cons]

theorem of_json_fields_eq (fields : List (String × serde_json.Value)) :
    of_json_fields fields = keyed (fields.map fun f => (f.1, of_json f.2)) := by
  induction fields with
  | nil => rfl
  | cons f fields ih =>
    obtain ⟨key, v⟩ := f
    rw [of_json_fields, ih]
    rfl

theorem unique_map_of_json {fields : List (String × serde_json.Value)} (h : sorted_map.Sorted fields) :
    sorted_map.Unique (fields.map fun f => (f.1, of_json f.2)) := by
  rw [sorted_map.Unique, List.map_map]
  exact h.unique

/-- JSON is plain. -/
theorem of_json_plain {j : serde_json.Value} (h : j.WellFormed) : (of_json j).plain = true := by
  induction j using serde_json.Value.tree_induct with
  | number n => exact h
  | array items ih =>
    rw [serde_json.Value.WellFormed, serde_json.items_well_formed_iff] at h
    rw [of_json, Value.plain, plain_items_iff, of_json_items_eq]
    intro v hv
    obtain ⟨a, ha, rfl⟩ := List.mem_map.mp hv
    exact ih a ha (h a ha)
  | object fields ih =>
    obtain ⟨hsorted, hfields⟩ := h
    rw [serde_json.fields_well_formed_iff] at hfields
    rw [of_json, of_json_fields_eq]
    refine (plain_mapping_iff _).mpr ⟨_, rfl, unique_map_of_json hsorted, fun f hf => ?_⟩
    obtain ⟨e, he, rfl⟩ := List.mem_map.mp hf
    exact ih e he (hfields e he)
  | _ => rfl

/-- The JSON of a plain value is well formed. -/
theorem data_well_formed {v : Value} (h : v.plain = true) : v.data.WellFormed := by
  induction v using Value.tree_induct with
  | number n => exact h
  | sequence items ih =>
    rw [Value.plain, plain_items_iff] at h
    rw [Value.data, serde_json.Value.WellFormed, serde_json.items_well_formed_iff, data_items_eq]
    intro j hj
    obtain ⟨a, ha, rfl⟩ := List.mem_map.mp hj
    exact ih a ha (h a ha)
  | mapping entries ih =>
    obtain ⟨fields, rfl, hunique, hplain⟩ := (plain_mapping_iff _).mp h
    obtain ⟨sorted, hdata, hsorted, hlookup⟩ := data_mapping hunique
    rw [hdata, serde_json.Value.WellFormed, serde_json.fields_well_formed_iff]
    refine ⟨hsorted, fun f hf => ?_⟩
    have hfound := hlookup f.1
    rw [hsorted.unique.lookup_eq_some_iff.mpr hf] at hfound
    obtain ⟨w, hw, hdata⟩ := Option.map_eq_some_iff.mp hfound.symm
    have hmem := sorted_map.mem_of_lookup hw
    rw [← hdata]
    exact ih (.string f.1, w) (List.mem_map.mpr ⟨_, hmem, rfl⟩) (hplain _ hmem)
  | _ => trivial

/-- JSON that goes through YAML is the JSON that it was. -/
theorem eqv_data_of_json {j : serde_json.Value} (h : j.WellFormed) : j.eqv (of_json j).data = true := by
  induction j using serde_json.Value.tree_induct with
  | null => rfl
  | bool b => simp [of_json, Value.data, serde_json.Value.eqv]
  | number n => exact Number.eqv_self h
  | string s => simp [of_json, Value.data, serde_json.Value.eqv]
  | array items ih =>
    rw [serde_json.Value.WellFormed, serde_json.items_well_formed_iff] at h
    rw [of_json, Value.data, serde_json.Value.eqv, serde_json.eqv_items_iff, of_json_items_eq, data_items_eq,
      List.map_map, List.forall₂_map_right_iff, List.forall₂_same]
    exact fun a ha => ih a ha (h a ha)
  | object fields ih =>
    obtain ⟨hsorted, hfields⟩ := h
    rw [serde_json.fields_well_formed_iff] at hfields
    obtain ⟨sorted, hdata, hsorted', hlookup⟩ := data_mapping (unique_map_of_json hsorted)
    rw [of_json, of_json_fields_eq, hdata, serde_json.object_eqv_iff hsorted hsorted']
    intro key
    rw [hlookup, sorted_map.lookup_map]
    cases hfound : sorted_map.lookup key fields with
    | none => exact .none
    | some v =>
      have hmem := sorted_map.mem_of_lookup hfound
      exact .some (ih _ hmem (hfields _ hmem))

/-- A plain value that goes through JSON is the value that it was. -/
theorem eqv_of_json_data {v : Value} (h : v.plain = true) : v.eqv (of_json v.data) = true :=
  (data_eqv_iff h (of_json_plain (data_well_formed h))).mp (eqv_data_of_json (data_well_formed h))

end serde_yaml_ng
