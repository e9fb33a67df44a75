import Iac.Controlplane.Secrets.Paths
import Iac.Core.Pointer

open fallible iac_core serde_json

namespace iac_controlplane.secrets

/-- The bytes a reference opens with. -/
def opening : List Char := "$\x7bsecret://".toList

/-- One whole reference, from its opening to its closing brace. -/
def SecretRef.parse_token (token : List Char) : Option SecretRef :=
  if opening.isPrefixOf token then
    let rest := token.drop opening.length
    if rest.getLast? = some '\x7d' then
      let inner := rest.dropLast
      if inner.isEmpty then none else SecretRef.parse inner
    else none
  else none

/-- The end of the reference that starts at the offset, and what it says. -/
def ref_from (s : List Char) (i : Nat) : Option (Nat × SecretRef) := do
  if (s.drop i).take 11 = opening then
    let end_off ← (s.drop (i + 11)).findIdx? (· = '\x7d')
    let stop := i + 11 + end_off + 1
    let sref ← SecretRef.parse_token ((s.drop i).take (stop - i))
    return (stop, sref)
  else none

/-- The scan by offsets: each reference with where it starts and where it ends. -/
def offsets_from (s : List Char) : Nat → Nat → List (Nat × Nat × SecretRef)
  | 0, _ => []
  | fuel + 1, i =>
    if i + 11 ≤ s.length then
      match ref_from s i with
      | some (stop, sref) => (i, stop, sref) :: offsets_from s fuel stop
      | none => offsets_from s fuel (i + 1)
    else []

def find_offsets_in_string (s : String) : List (Nat × Nat × SecretRef) :=
  offsets_from s.toList s.toList.length 0

/-- The loop that copies the text up to each reference and then what the reference stands for. -/
def splice_offsets (registry : SecretRegistry) (original : List Char) :
    List (Nat × Nat × SecretRef) → Nat → String → Except ApiError String
  | [], cursor, out => .ok (out ++ String.ofList (original.drop cursor))
  | (start, stop, sref) :: refs, cursor, out => do
    let out := out ++ String.ofList ((original.drop cursor).take (start - cursor))
    let resolved ← registry sref
    splice_offsets registry original refs stop (out ++ resolved)

def replace_char (c : Char) (text key : List Char) : List Char :=
  key.flatMap fun d => if d = c then text else [d]

mutual

def walk : Value → String → List String
  | .string _, pointer => [pointer]
  | .object map, pointer => walk_fields map pointer
  | .array arr, pointer => walk_items arr 0 pointer
  | _, _ => []

def walk_items : List Value → Nat → String → List String
  | [], _, _ => []
  | item :: items, i, pointer => walk item (pointer ++ "/" ++ toString i) ++ walk_items items (i + 1) pointer

def walk_fields : List (String × Value) → String → List String
  | [], _ => []
  | (key, value) :: fields, pointer =>
    let escaped := String.ofList (replace_char '/' ['~', '1'] (replace_char '~' ['~', '0'] key.toList))
    walk value (pointer ++ "/" ++ escaped) ++ walk_fields fields pointer

end

def collect_string_pointers (value : Value) : List String := walk value ""

/-- One pass of the loop over the pointers: the value, the references resolved so
far and the pointers to the texts that had some. -/
def substitute_pointer (registry : SecretRegistry) (state : Value × Nat × List String) (ptr : String) :
    Except ApiError (Value × Nat × List String) :=
  let (value, count, secret_pointers) := state
  match value.pointer ptr with
  | some (.string original) =>
    let refs := find_offsets_in_string original
    if refs.isEmpty then .ok state
    else do
      let out ← splice_offsets registry original.toList refs 0 ""
      return (value.set_pointer ptr (.string out), count + refs.length, secret_pointers ++ [ptr])
  | _ => .ok state

/-- The substitution as the code makes it: it collects the pointers to all
texts, and then reads and writes the value through each of them. -/
def substitute_through_pointers (registry : SecretRegistry) (value : Value) :
    Except ApiError (Value × Nat × List String) :=
  (collect_string_pointers value).foldlM (substitute_pointer registry) (value, 0, [])

section Scan

variable {s text inner rest : List Char} {i k fuel : Nat} {sref : SecretRef}

theorem split_once_findIdx (c : Char) (text : List Char) :
    split_once c text = (text.findIdx? (· = c)).map fun k => (text.take k, text.drop (k + 1)) := by
  induction text with
  | nil => rfl
  | cons d rest ih =>
    rw [split_once, List.findIdx?_cons]
    by_cases hd : d = c
    · simp [hd]
    · rw [if_neg hd, if_neg (by simpa using hd), ih, Option.map_map, Option.map_map]
      rfl

theorem parse_token_eq (inner : List Char) : SecretRef.parse_token (opening ++ inner ++ ['\x7d']) = SecretRef.parse inner := by
  have hprefix : opening.isPrefixOf (opening ++ inner ++ ['\x7d']) = true := by
    rw [List.isPrefixOf_iff_prefix, List.append_assoc]
    exact List.prefix_append _ _
  rw [SecretRef.parse_token, if_pos hprefix, List.append_assoc, List.drop_left]
  simp only [List.getLast?_append, List.getLast?_singleton, Option.some_or, List.dropLast_concat, if_true]
  cases inner with
  | nil => rfl
  | cons c inner => rfl

/-- A reference at an offset is a reference at the start of the text from there on. -/
theorem ref_at_drop (s : List Char) (i : Nat) :
    ref_at (s.drop i) = (ref_from s i).map fun found => (found.2, s.drop found.1) := by
  have hopening : opening.isPrefixOf (s.drop i) = true ↔ (s.drop i).take 11 = opening := by
    rw [List.isPrefixOf_iff_prefix, List.prefix_iff_eq_take, eq_comm]
    rfl
  unfold ref_at ref_from
  rw [show "$\x7bsecret://".toList = opening from rfl]
  by_cases hopens : (s.drop i).take 11 = opening
  · rw [if_pos (hopening.mpr hopens), if_pos hopens, List.drop_drop, split_once_findIdx]
    cases hend : (s.drop (i + 11)).findIdx? (· = '\x7d') with
    | none => rfl
    | some k =>
      have htoken : (s.drop i).take (i + 11 + k + 1 - i) = opening ++ (s.drop (i + 11)).take k ++ ['\x7d'] := by
        obtain ⟨hk, hbrace, -⟩ := List.findIdx?_eq_some_iff_getElem.mp hend
        rw [← hopens, show i + 11 + k + 1 - i = 11 + (k + 1) by omega, List.take_add, List.drop_drop, List.append_assoc]
        congr 1
        rw [List.take_succ_eq_append_getElem hk, of_decide_eq_true hbrace]
      simp only [Option.map_some, Option.bind_eq_bind, Option.bind_some, htoken, parse_token_eq, List.drop_drop]
      cases SecretRef.parse ((s.drop (i + 11)).take k) with
      | none => rfl
      | some sref => rfl
  · rw [if_neg (fun h => hopens (hopening.mp h)), if_neg hopens]
    rfl

theorem length_of_ref_at (h : ref_at text = some (sref, rest)) : 11 ≤ text.length := by
  unfold ref_at at h
  split_ifs at h with hopens
  exact (List.isPrefixOf_iff_prefix.mp hopens).length_le

theorem ref_from_bounds {stop : Nat} (h : ref_from s i = some (stop, sref)) : i < stop ∧ stop ≤ s.length := by
  unfold ref_from at h
  split_ifs at h with hopens
  obtain ⟨k, hend, h⟩ := Option.bind_eq_some_iff.mp h
  obtain ⟨sref', -, hpair⟩ := Option.bind_eq_some_iff.mp h
  obtain ⟨rfl, -⟩ := Prod.mk.inj (Option.some.inj hpair)
  obtain ⟨hk, -, -⟩ := List.findIdx?_eq_some_iff_getElem.mp hend
  rw [List.length_drop] at hk
  omega

/-- A text too short for a reference has none. -/
theorem find_refs_short (h : text.length < 11) (hfuel : text.length ≤ fuel) : find_refs fuel text = text.map .inl := by
  induction text generalizing fuel with
  | nil => cases fuel <;> rfl
  | cons c text ih =>
    obtain ⟨fuel, rfl⟩ := Nat.exists_eq_add_of_lt (Nat.lt_of_lt_of_le (Nat.succ_pos _) hfuel)
    rw [Nat.zero_add, find_refs]
    have hnone : ref_at (c :: text) = none := by
      cases href : ref_at (c :: text) with
      | none => rfl
      | some found => exact absurd (length_of_ref_at href) (by omega)
    rw [hnone]
    simp only [List.length_cons] at h hfuel
    rw [ih (by omega) (by omega), List.map_cons]

theorem splice_chars (registry : SecretRegistry) (text : List Char) :
    splice registry (text.map .inl) = .ok (String.ofList text) := by
  induction text with
  | nil => rfl
  | cons c text ih =>
    rw [List.map_cons, splice, ih]
    simp [bind, Except.bind, pure, Except.pure, String.ofList_cons]

/-- The references by offsets and the pieces cut the text from the offset on in the same way. -/
inductive Cut (s : List Char) : Nat → List (Nat × Nat × SecretRef) → List (Char ⊕ SecretRef) → Prop where
  | rest {i : Nat} : Cut s i [] ((s.drop i).map .inl)
  | reference {i stop : Nat} {sref : SecretRef} {refs : List (Nat × Nat × SecretRef)} {pieces : List (Char ⊕ SecretRef)}
      (h : Cut s stop refs pieces) : Cut s i ((i, stop, sref) :: refs) (.inr sref :: pieces)
  | character {i : Nat} {c : Char} {refs : List (Nat × Nat × SecretRef)} {pieces : List (Char ⊕ SecretRef)}
      (hc : s[i]? = some c) (h : Cut s (i + 1) refs pieces) : Cut s i refs (.inl c :: pieces)

theorem cut_scan {fuel' : Nat} (hfuel : s.length ≤ i + fuel) (hfuel' : s.length ≤ i + fuel') :
    Cut s i (offsets_from s fuel i) (find_refs fuel' (s.drop i)) := by
  induction fuel generalizing i fuel' with
  | zero =>
    rw [List.drop_eq_nil_of_le (by omega), offsets_from]
    have hnil : find_refs fuel' [] = (s.drop i).map .inl := by
      rw [List.drop_eq_nil_of_le (by omega)]
      cases fuel' <;> rfl
    exact hnil ▸ .rest
  | succ fuel ih =>
    rw [offsets_from]
    by_cases hroom : i + 11 ≤ s.length
    · rw [if_pos hroom]
      have hi : i < s.length := by omega
      obtain ⟨fuel', rfl⟩ : ∃ f, fuel' = f + 1 := ⟨fuel' - 1, by omega⟩
      have hdrop : s.drop i = s.get ⟨i, hi⟩ :: s.drop (i + 1) := List.drop_eq_getElem_cons hi
      have hscan := ref_at_drop s i
      rw [hdrop, find_refs, ← hdrop, hscan]
      cases href : ref_from s i with
      | none => exact .character (List.getElem?_eq_getElem hi) (ih (by omega) (by omega))
      | some found =>
        obtain ⟨stop, sref⟩ := found
        have hbounds := ref_from_bounds href
        exact .reference (ih (by omega) (by omega))
    · rw [if_neg hroom, find_refs_short (by rw [List.length_drop]; omega) (by rw [List.length_drop]; omega)]
      exact .rest

theorem Cut.refs {refs : List (Nat × Nat × SecretRef)} {pieces : List (Char ⊕ SecretRef)} (h : Cut s i refs pieces) :
    refs.map (fun found => found.2.2) = pieces.filterMap Sum.getRight? := by
  induction h with
  | rest =>
    rw [List.filterMap_map]
    exact (List.filterMap_eq_nil_iff.mpr fun _ _ => rfl).symm
  | reference _ ih => rw [List.map_cons, ih]; rfl
  | character _ _ ih => rw [ih]; rfl

theorem Cut.splice_eq {refs : List (Nat × Nat × SecretRef)} {pieces : List (Char ⊕ SecretRef)} (h : Cut s i refs pieces)
    (registry : SecretRegistry) {cursor : Nat} (hcursor : cursor ≤ i) (out : String) :
    splice_offsets registry s refs cursor out = (splice registry pieces).map fun rest =>
      out ++ String.ofList ((s.drop cursor).take (i - cursor)) ++ rest := by
  induction h generalizing cursor out with
  | @rest i =>
    have hcopied : (s.drop cursor).take (i - cursor) ++ s.drop i = s.drop cursor := by
      conv_rhs => rw [← List.take_append_drop (i - cursor) (s.drop cursor), List.drop_drop, Nat.add_sub_of_le hcursor]
    rw [splice_chars, splice_offsets]
    refine congrArg Except.ok ?_
    beta_reduce
    rw [String.append_assoc, ← String.ofList_append, hcopied]
  | @reference i stop sref refs pieces _ ih =>
    rw [splice_offsets, splice]
    cases registry sref with
    | error e => rfl
    | ok resolved =>
      simp only [bind, Except.bind]
      rw [ih (Nat.le_refl stop)]
      cases splice registry pieces with
      | error e => rfl
      | ok rest => simp [Except.map, pure, Except.pure, String.append_assoc]
  | @character i c refs pieces hc _ ih =>
    rw [ih (Nat.le_succ_of_le hcursor), splice]
    obtain ⟨hi, hget⟩ := List.getElem?_eq_some_iff.mp hc
    have hnext : (s.drop cursor).take (i + 1 - cursor) = (s.drop cursor).take (i - cursor) ++ [c] := by
      rw [Nat.succ_sub hcursor, List.take_add_one, List.getElem?_drop, Nat.add_sub_of_le hcursor, hc]
      rfl
    cases splice registry pieces with
    | error e => rfl
    | ok rest =>
      simp only [Except.map, bind, Except.bind, pure, Except.pure, hnext, String.ofList_append, String.append_assoc]
      rfl

end Scan

section Walk

variable {registry : SecretRegistry}

theorem replaced_twice (key : List Char) : replace_char '/' ['~', '1'] (replace_char '~' ['~', '0'] key) = escaped key := by
  rw [replace_char, replace_char, escaped, List.flatMap_assoc]
  refine List.flatMap_congr fun c _ => ?_
  by_cases htilde : c = '~'
  · subst htilde
    rfl
  · by_cases hslash : c = '/'
    · subst hslash
      rfl
    · simp [htilde, hslash]

theorem refs_of_text (s : String) :
    (find_offsets_in_string s).map (fun found => found.2.2) = references_of_text s ∧ ∀ registry,
      splice_offsets registry s.toList (find_offsets_in_string s) 0 "" = splice registry (find_refs_in_string s) := by
  have hcut : Cut s.toList 0 (find_offsets_in_string s) (find_refs_in_string s) :=
    cut_scan (Nat.le_add_left _ _) (Nat.le_add_left _ _)
  refine ⟨hcut.refs, fun registry => ?_⟩
  rw [hcut.splice_eq registry (Nat.le_refl 0)]
  cases splice registry (find_refs_in_string s) <;> simp [Except.map]

/-- A pass over a text does at its place what the recursion does to the text alone. -/
theorem substitute_pointer_text {root : Value} {tokens : List String} {s : String}
    (h : root.locate tokens = some (.string s)) (count : Nat) (found : List String) :
    substitute_pointer registry (root, count, found) (render_tokens tokens) =
      (substitute_with_pointers registry (render_tokens tokens) (.string s)).map fun out =>
        (Value.put out.1 tokens root, count + (references (.string s)).length, found ++ out.2) := by
  obtain ⟨hrefs, hsplice⟩ := refs_of_text s
  have hlength : (find_offsets_in_string s).length = (references_of_text s).length := by
    rw [← hrefs, List.length_map]
  rw [substitute_pointer, substitute_with_pointers, references]
  simp only [pointer_render, h]
  cases hany : (find_refs_in_string s).any Sum.isRight with
  | false =>
    have hnone := references_of_text_eq_nil.mpr hany
    rw [hnone, List.length_nil, List.length_eq_zero_iff] at hlength
    simp [hlength, hnone, Except.map, put_located h]
  | true =>
    have hsome : references_of_text s ≠ [] := fun hnil => by
      rw [references_of_text_eq_nil, hany] at hnil
      cases hnil
    have hne : (find_offsets_in_string s).isEmpty = false := by
      rw [List.isEmpty_eq_false_iff]
      rintro hnil
      rw [hnil] at hlength
      exact hsome (List.length_eq_zero_iff.mp hlength.symm)
    rw [hne, if_neg (by simp), hsplice, if_pos rfl]
    cases splice registry (find_refs_in_string s) with
    | error e => rfl
    | ok resolved => simp [bind, Except.bind, pure, Except.pure, Except.map, hlength, set_pointer_render]

theorem put_item {items done : List Value} {item new : Value} {token : String}
    (hindex : parse_index token = some done.length) :
    Value.put new [token] (.array (done ++ item :: items)) = .array (done ++ new :: items) := by
  have hmodify : (done ++ item :: items).modify done.length (fun _ => new) = done ++ new :: items := by
    clear hindex
    induction done with
    | nil => rfl
    | cons first done ih => exact congrArg (first :: ·) ih
  simp only [Value.put, hindex, hmodify]

mutual

/-- Walking to the texts below a place and substituting each through its pointer
puts there what the recursion makes of the value. -/
theorem walk_value (v : Value) (hv : v.Addressable) {root : Value} {tokens : List String}
    (h : root.locate tokens = some v) (count : Nat) (found : List String) :
    (walk v (render_tokens tokens)).foldlM (substitute_pointer registry) (root, count, found) =
      (substitute_with_pointers registry (render_tokens tokens) v).map fun out =>
        (Value.put out.1 tokens root, count + (references v).length, found ++ out.2) := by
  cases v with
  | string s =>
    rw [walk, List.foldlM_cons, substitute_pointer_text h]
    cases substitute_with_pointers registry (render_tokens tokens) (.string s) <;> rfl
  | array items =>
    rw [walk, substitute_with_pointers, references]
    have hnone : root.locate tokens = some (.array ([] ++ items)) := h
    refine (walk_through_items items hv.2 (by simpa using hv.1) hnone count found).trans ?_
    rw [List.length_nil]
    cases substitute_items registry (render_tokens tokens) 0 items <;> rfl
  | object fields =>
    rw [walk, substitute_with_pointers, references]
    have hnone : root.locate tokens = some (.object ([] ++ fields)) := h
    refine (walk_through_fields fields hv.2 (by simpa using hv.1) hnone count found).trans ?_
    cases substitute_fields registry (render_tokens tokens) fields <;> rfl
  | null | bool b | number n =>
    simp [walk, substitute_with_pointers, references, Except.map, pure, Except.pure, put_located h]

theorem walk_through_items (items : List Value) (hitems : addressable_items items) {root : Value} {tokens : List String}
    {done : List Value} (hlength : done.length + items.length ≤ 2 ^ 64)
    (h : root.locate tokens = some (.array (done ++ items))) (count : Nat) (found : List String) :
    (walk_items items done.length (render_tokens tokens)).foldlM (substitute_pointer registry) (root, count, found) =
      (substitute_items registry (render_tokens tokens) done.length items).map fun out =>
        (Value.put (.array (done ++ out.1)) tokens root, count + (references_of_items items).length, found ++ out.2) := by
  match items with
  | [] =>
    rw [List.append_nil] at h
    simp [walk_items, substitute_items, references_of_items, Except.map, pure, Except.pure, put_located h]
  | item :: items =>
    rw [List.length_cons] at hlength
    have hindex : parse_index (toString done.length) = some done.length := parse_index_toString (by omega)
    have hitem : root.locate (tokens ++ [toString done.length]) = some item := by
      rw [locate_append, h, Option.bind_some, Value.locate, Value.child]
      simp only [hindex, Option.bind_some, List.getElem?_append_right (Nat.le_refl _), Nat.sub_self]
      rfl
    rw [walk_items, List.foldlM_append, ← render_index, walk_value item hitems.1 hitem, substitute_items, ← render_index]
    cases substitute_with_pointers registry (render_tokens (tokens ++ [toString done.length])) item with
    | error e => rfl
    | ok out =>
      have hput : Value.put out.1 (tokens ++ [toString done.length]) root =
          Value.put (.array (done ++ out.1 :: items)) tokens root := by
        rw [put_append h, put_item hindex]
      have hplace : (Value.put (.array (done ++ out.1 :: items)) tokens root).locate tokens =
          some (.array ((done ++ [out.1]) ++ items)) := by
        rw [locate_put h, List.append_assoc, List.singleton_append]
      have hrest := walk_through_items items hitems.2 (by simpa using (by omega : done.length + 1 + items.length ≤ 2 ^ 64))
        hplace (count + (references item).length) (found ++ out.2)
      simp only [Except.map, bind, Except.bind, hput]
      rw [List.length_append, List.length_singleton] at hrest
      rw [hrest]
      cases substitute_items registry (render_tokens tokens) (done.length + 1) items with
      | error e => rfl
      | ok rest => simp [Except.map, pure, Except.pure, put_put h, references_of_items, Nat.add_assoc]

theorem walk_through_fields (fields : List (String × Value)) (hfields : addressable_fields fields) {root : Value}
    {tokens : List String} {done : List (String × Value)} (hkeys : ((done ++ fields).map Prod.fst).Nodup)
    (h : root.locate tokens = some (.object (done ++ fields))) (count : Nat) (found : List String) :
    (walk_fields fields (render_tokens tokens)).foldlM (substitute_pointer registry) (root, count, found) =
      (substitute_fields registry (render_tokens tokens) fields).map fun out =>
        (Value.put (.object (done ++ out.1)) tokens root, count + (references_of_fields fields).length, found ++ out.2) := by
  match fields with
  | [] =>
    rw [List.append_nil] at h
    simp [walk_fields, substitute_fields, references_of_fields, Except.map, pure, Except.pure, put_located h]
  | (key, value) :: fields =>
    have hnew : ∀ field ∈ done, field.1 ≠ key := by
      intro field hfield heq
      rw [List.map_append, List.nodup_append] at hkeys
      exact hkeys.2.2 field.1 (List.mem_map_of_mem hfield) key (by simp) heq
    have hvalue : root.locate (tokens ++ [key]) = some value := by
      rw [locate_append, h]
      simp [Value.locate, Value.child, get_between hnew]
    have hpointer : render_tokens tokens ++ "/" ++ escape_key key = render_tokens (tokens ++ [key]) :=
      (render_key tokens key).symm
    rw [walk_fields, replaced_twice, List.foldlM_append, ← render_key, walk_value value hfields.1 hvalue, substitute_fields,
      hpointer]
    cases substitute_with_pointers registry (render_tokens (tokens ++ [key])) value with
    | error e => rfl
    | ok out =>
      have hput : Value.put out.1 (tokens ++ [key]) root =
          Value.put (.object (done ++ (key, out.1) :: fields)) tokens root := by
        rw [put_append h]
        exact congrArg (fun v => Value.put v tokens root) (congrArg Value.object (change_field_between hnew value _))
      have hplace : (Value.put (.object (done ++ (key, out.1) :: fields)) tokens root).locate tokens =
          some (.object ((done ++ [(key, out.1)]) ++ fields)) := by
        rw [locate_put h, List.append_assoc, List.singleton_append]
      have hrest := walk_through_fields fields hfields.2 (by simpa using hkeys) hplace (count + (references value).length)
        (found ++ out.2)
      simp only [Except.map, bind, Except.bind, hput]
      rw [hrest]
      cases substitute_fields registry (render_tokens tokens) fields with
      | error e => rfl
      | ok rest => simp [Except.map, pure, Except.pure, put_put h, references_of_fields, Nat.add_assoc]

end

/-- The substitution through collected pointers is the recursion over the value. -/
theorem substitution_through_pointers (registry : SecretRegistry) (v : Value) (hv : v.Addressable) :
    substitute_through_pointers registry v =
      (substitute_with_pointers registry "" v).map fun out => (out.1, (references v).length, out.2) := by
  have hplace : v.locate [] = some v := rfl
  have hwalk := @walk_value registry v hv v [] hplace 0 []
  have hroot : render_tokens [] = "" := rfl
  rw [hroot] at hwalk
  rw [substitute_through_pointers, collect_string_pointers, hwalk]
  cases substitute_with_pointers registry "" v with
  | error e => rfl
  | ok out => simp [Except.map, Value.put]

end Walk

section Substituted

variable {registry : SecretRegistry} {place found : List String} {v' : Value}

theorem substituted_string {pointer s : String}
    (h : substitute_with_pointers registry pointer (.string s) = .ok (v', found)) :
    ∃ text, v' = .string text ∧ (references_of_text s = [] ∧ found = [] ∨ references_of_text s ≠ [] ∧ found = [pointer]) := by
  rw [substitute_with_pointers] at h
  rw [ne_eq, references_of_text_eq_nil]
  cases hany : (find_refs_in_string s).any Sum.isRight with
  | false =>
    simp only [hany] at h
    obtain ⟨rfl, rfl⟩ := Prod.mk.inj (Except.ok.inj h)
    exact ⟨s, rfl, .inl ⟨rfl, rfl⟩⟩
  | true =>
    simp only [hany, if_true] at h
    obtain ⟨text, -, h⟩ := bind_eq_ok_iff.mp h
    obtain ⟨rfl, rfl⟩ := Prod.mk.inj (Except.ok.inj h)
    exact ⟨text, rfl, .inr ⟨by simp, rfl⟩⟩

theorem substituted_array {pointer : String} {items : List Value}
    (h : substitute_with_pointers registry pointer (.array items) = .ok (v', found)) :
    ∃ items', v' = .array items' ∧ substitute_items registry pointer 0 items = .ok (items', found) := by
  rw [substitute_with_pointers] at h
  obtain ⟨⟨items', found'⟩, hitems, h⟩ := bind_eq_ok_iff.mp h
  obtain ⟨rfl, rfl⟩ := Prod.mk.inj (Except.ok.inj h)
  exact ⟨items', rfl, hitems⟩

theorem substituted_object {pointer : String} {fields : List (String × Value)}
    (h : substitute_with_pointers registry pointer (.object fields) = .ok (v', found)) :
    ∃ fields', v' = .object fields' ∧ substitute_fields registry pointer fields = .ok (fields', found) := by
  rw [substitute_with_pointers] at h
  obtain ⟨⟨fields', found'⟩, hfields, h⟩ := bind_eq_ok_iff.mp h
  obtain ⟨rfl, rfl⟩ := Prod.mk.inj (Except.ok.inj h)
  exact ⟨fields', rfl, hfields⟩

theorem substituted_item {i : Nat} {item : Value} {items items' : List Value}
    (h : substitute_items registry (render_tokens place) i (item :: items) = .ok (items', found)) :
    ∃ item' first rest' rest, substitute_with_pointers registry (render_tokens (place ++ [toString i])) item =
        .ok (item', first) ∧ substitute_items registry (render_tokens place) (i + 1) items = .ok (rest', rest) ∧
      items' = item' :: rest' ∧ found = first ++ rest := by
  rw [substitute_items, ← render_index] at h
  obtain ⟨⟨item', first⟩, hitem, h⟩ := bind_eq_ok_iff.mp h
  obtain ⟨⟨rest', rest⟩, hrest, h⟩ := bind_eq_ok_iff.mp h
  obtain ⟨rfl, rfl⟩ := Prod.mk.inj (Except.ok.inj h)
  exact ⟨item', first, rest', rest, hitem, hrest, rfl, rfl⟩

theorem substituted_field {key : String} {value : Value} {fields fields' : List (String × Value)}
    (h : substitute_fields registry (render_tokens place) ((key, value) :: fields) = .ok (fields', found)) :
    ∃ value' first rest' rest, substitute_with_pointers registry (render_tokens (place ++ [key])) value =
        .ok (value', first) ∧ substitute_fields registry (render_tokens place) fields = .ok (rest', rest) ∧
      fields' = (key, value') :: rest' ∧ found = first ++ rest := by
  have hpointer : render_tokens place ++ "/" ++ escape_key key = render_tokens (place ++ [key]) := (render_key place key).symm
  rw [substitute_fields, hpointer] at h
  obtain ⟨⟨value', first⟩, hvalue, h⟩ := bind_eq_ok_iff.mp h
  obtain ⟨⟨rest', rest⟩, hrest, h⟩ := bind_eq_ok_iff.mp h
  obtain ⟨rfl, rfl⟩ := Prod.mk.inj (Except.ok.inj h)
  exact ⟨value', first, rest', rest, hvalue, hrest, rfl, rfl⟩

end Substituted

section Exact

variable {registry : SecretRegistry}

/-- `w'` is `w` with its references resolved, wherever it stands. -/
def Resolves (registry : SecretRegistry) (w w' : Value) : Prop :=
  ∃ tokens found, substitute_with_pointers registry (render_tokens tokens) w = .ok (w', found)

/-- The child under a token is resolved with the value, and its pointers are
among those of the value, under a token for the same child. -/
structure ChildResolved (registry : SecretRegistry) (tokens found : List String) (v : Value) (token : String)
    (x x' : Value) : Prop where
  child : ∃ own part, substitute_with_pointers registry (render_tokens (tokens ++ [own])) x = .ok (x', part) ∧
    part ⊆ found ∧ ∀ new rest, Value.put new (own :: rest) v = Value.put new (token :: rest) v

theorem substitute_items_at {items items' : List Value} {tokens found : List String} {i : Nat}
    (h : substitute_items registry (render_tokens tokens) i items = .ok (items', found)) (j : Nat) :
    (items[j]? = none ∧ items'[j]? = none) ∨ ∃ item item' part, items[j]? = some item ∧ items'[j]? = some item' ∧
      substitute_with_pointers registry (render_tokens (tokens ++ [toString (i + j)])) item = .ok (item', part) ∧
      part ⊆ found := by
  induction items generalizing items' found i j with
  | nil =>
    obtain ⟨rfl, rfl⟩ := Prod.mk.inj (Except.ok.inj h)
    exact .inl ⟨rfl, rfl⟩
  | cons item items ih =>
    obtain ⟨item', first, rest', rest, hitem, hrest, rfl, rfl⟩ := substituted_item h
    cases j with
    | zero => exact .inr ⟨item, item', first, rfl, rfl, hitem, List.subset_append_left _ _⟩
    | succ j =>
      obtain hnone | ⟨x, x', part, hx, hx', hpart, hsub⟩ := ih hrest j
      · exact .inl hnone
      · refine .inr ⟨x, x', part, hx, hx', ?_, List.subset_append_of_subset_right _ hsub⟩
        rw [← hpart, Nat.add_right_comm, Nat.add_assoc]

theorem substitute_fields_at {fields fields' : List (String × Value)} {tokens found : List String}
    (h : substitute_fields registry (render_tokens tokens) fields = .ok (fields', found)) (key : String) :
    ((Value.object fields).get key = none ∧ (Value.object fields').get key = none) ∨
      ∃ x x' part, (Value.object fields).get key = some x ∧ (Value.object fields').get key = some x' ∧
        substitute_with_pointers registry (render_tokens (tokens ++ [key])) x = .ok (x', part) ∧ part ⊆ found := by
  induction fields generalizing fields' found with
  | nil =>
    obtain ⟨rfl, rfl⟩ := Prod.mk.inj (Except.ok.inj h)
    exact .inl ⟨rfl, rfl⟩
  | cons field fields ih =>
    obtain ⟨k, value⟩ := field
    obtain ⟨value', first, rest', rest, hvalue, hrest, rfl, rfl⟩ := substituted_field h
    by_cases hk : k = key
    · subst hk
      exact .inr ⟨value, value', first, get_cons_self _ _ _, get_cons_self _ _ _, hvalue, List.subset_append_left _ _⟩
    · rw [get_cons_of_ne hk, get_cons_of_ne hk]
      obtain hnone | ⟨x, x', part, hx, hx', hpart, hsub⟩ := ih hrest
      · exact .inl hnone
      · exact .inr ⟨x, x', part, hx, hx', hpart, List.subset_append_of_subset_right _ hsub⟩

theorem substitute_child {v v' : Value} {tokens found : List String}
    (h : substitute_with_pointers registry (render_tokens tokens) v = .ok (v', found)) (token : String) :
    (v.child token = none ∧ v'.child token = none) ∨
      ∃ x x', v.child token = some x ∧ v'.child token = some x' ∧ ChildResolved registry tokens found v token x x' := by
  cases v with
  | array items =>
    obtain ⟨items', rfl, hitems⟩ := substituted_array h
    cases hindex : parse_index token with
    | none => exact .inl ⟨by simp [Value.child, hindex], by simp [Value.child, hindex]⟩
    | some j =>
      have hown : parse_index (toString j) = some j := parse_index_toString (parse_index_lt hindex)
      obtain ⟨hx, hx'⟩ | ⟨x, x', part, hx, hx', hpart, hsub⟩ := substitute_items_at hitems j
      · exact .inl ⟨by simp [Value.child, hindex, hx], by simp [Value.child, hindex, hx']⟩
      · refine .inr ⟨x, x', by simp [Value.child, hindex, hx], by simp [Value.child, hindex, hx'], ?_⟩
        rw [Nat.zero_add] at hpart
        exact ⟨toString j, part, hpart, hsub, fun new rest => by simp only [Value.put, hown, hindex]⟩
  | object fields =>
    obtain ⟨fields', rfl, hfields⟩ := substituted_object h
    obtain hnone | ⟨x, x', part, hx, hx', hpart, hsub⟩ := substitute_fields_at hfields token
    · exact .inl hnone
    · exact .inr ⟨x, x', hx, hx', token, part, hpart, hsub, fun _ _ => rfl⟩
  | string s =>
    obtain ⟨text, rfl, -⟩ := substituted_string h
    exact .inl ⟨rfl, rfl⟩
  | null | bool b | number n =>
    obtain ⟨rfl, -⟩ := Prod.mk.inj (Except.ok.inj h)
    exact .inl ⟨rfl, rfl⟩

/-- Every place of the value is resolved where it stands, and no place is added. -/
theorem substitute_located {v v' : Value} (h : Resolves registry v v') (tokens : List String) :
    (v.locate tokens = none ∧ v'.locate tokens = none) ∨
      ∃ w w', v.locate tokens = some w ∧ v'.locate tokens = some w' ∧ Resolves registry w w' := by
  induction tokens generalizing v v' with
  | nil => exact .inr ⟨v, v', rfl, rfl, h⟩
  | cons token tokens ih =>
    obtain ⟨place, found, hsubst⟩ := h
    rw [Value.locate, Value.locate]
    obtain ⟨hx, hx'⟩ | ⟨x, x', hx, hx', own, part, hchild, -, -⟩ := substitute_child hsubst token
    · exact .inl ⟨by rw [hx]; rfl, by rw [hx']; rfl⟩
    · rw [hx, hx']
      exact ih ⟨_, _, hchild⟩

/-- A text with references has a pointer among those found, to the very place where it stands. -/
theorem text_is_found {v v' : Value} {place found : List String}
    (h : substitute_with_pointers registry (render_tokens place) v = .ok (v', found)) {tokens : List String} {s : String}
    (hs : v.locate tokens = some (.string s)) (hrefs : references_of_text s ≠ []) :
    ∃ own, render_tokens (place ++ own) ∈ found ∧ ∀ new, Value.put new own v = Value.put new tokens v := by
  induction tokens generalizing v v' place found with
  | nil =>
    obtain rfl := Option.some.inj hs
    obtain ⟨-, -, ⟨hnone, -⟩ | ⟨-, rfl⟩⟩ := substituted_string h
    · exact absurd hnone hrefs
    · exact ⟨[], by simp, fun _ => rfl⟩
  | cons token tokens ih =>
    obtain ⟨x, hx, hrest⟩ := Option.bind_eq_some_iff.mp hs
    obtain ⟨hnone, -⟩ | ⟨y, y', hy, -, own, part, hchild, hsub, hsame⟩ := substitute_child h token
    · exact absurd (hx.symm.trans hnone) (by simp)
    · obtain rfl := Option.some.inj (hx.symm.trans hy)
      obtain ⟨rest, hfound, hput⟩ := ih hchild hrest
      refine ⟨own :: rest, hsub (by simpa using hfound), fun new => ?_⟩
      obtain ⟨frame, rfl, -, hframe⟩ := child_in_frame hx
      rw [hsame, hframe, hframe, hput]

/-- The pointer leads from the place to a text with references. -/
def LeadsToSecret (place : List String) (v : Value) (pointer : String) : Prop :=
  ∃ tokens s, pointer = render_tokens (place ++ tokens) ∧ v.locate tokens = some (.string s) ∧ references_of_text s ≠ []

mutual

theorem found_leads (v : Value) (hv : v.Addressable) {v' : Value} {place found : List String}
    (h : substitute_with_pointers registry (render_tokens place) v = .ok (v', found)) :
    ∀ pointer ∈ found, LeadsToSecret place v pointer := by
  cases v with
  | string s =>
    obtain ⟨-, -, ⟨-, rfl⟩ | ⟨hrefs, rfl⟩⟩ := substituted_string h
    · exact List.forall_mem_nil _
    · intro pointer hpointer
      obtain rfl := List.mem_singleton.mp hpointer
      exact ⟨[], s, by simp, rfl, hrefs⟩
  | array items =>
    obtain ⟨items', -, hitems⟩ := substituted_array h
    intro pointer hpointer
    obtain ⟨j, item, hitem, tokens, s, rfl, hs, hrefs⟩ := found_leads_in_items items hv.2 hitems pointer hpointer
    have hj : j < 2 ^ 64 := (List.getElem?_eq_some_iff.mp hitem).1.trans_le hv.1
    refine ⟨toString j :: tokens, s, by simp, ?_, hrefs⟩
    rw [Value.locate, Value.child]
    simp only [parse_index_toString hj, Option.bind_some, hitem, hs]
  | object fields =>
    obtain ⟨fields', -, hfields⟩ := substituted_object h
    intro pointer hpointer
    obtain ⟨key, value, hvalue, tokens, s, rfl, hs, hrefs⟩ := found_leads_in_fields fields hv.2 hfields pointer hpointer
    obtain ⟨before, after, rfl⟩ := List.append_of_mem hvalue
    refine ⟨key :: tokens, s, by simp, ?_, hrefs⟩
    have hbefore : ∀ field ∈ before, field.1 ≠ key := by
      intro field hfield heq
      have hkeys := hv.1
      rw [List.map_append, List.nodup_append] at hkeys
      exact hkeys.2.2 field.1 (List.mem_map_of_mem hfield) key (by simp) heq
    rw [Value.locate, Value.child, get_between hbefore, Option.bind_some, hs]
  | null | bool b | number n =>
    obtain ⟨-, rfl⟩ := Prod.mk.inj (Except.ok.inj h)
    exact List.forall_mem_nil _

theorem found_leads_in_items (items : List Value) (hitems : addressable_items items) {items' : List Value}
    {place found : List String} {i : Nat}
    (h : substitute_items registry (render_tokens place) i items = .ok (items', found)) :
    ∀ pointer ∈ found, ∃ j item, items[j]? = some item ∧ LeadsToSecret (place ++ [toString (i + j)]) item pointer := by
  match items with
  | [] =>
    obtain ⟨-, rfl⟩ := Prod.mk.inj (Except.ok.inj h)
    exact List.forall_mem_nil _
  | item :: items =>
    obtain ⟨item', first, rest', rest, hitem, hrest, -, rfl⟩ := substituted_item h
    intro pointer hpointer
    obtain hfirst | hlater := List.mem_append.mp hpointer
    · exact ⟨0, item, rfl, found_leads item hitems.1 hitem pointer hfirst⟩
    · obtain ⟨j, x, hx, hleads⟩ := found_leads_in_items items hitems.2 hrest pointer hlater
      refine ⟨j + 1, x, hx, ?_⟩
      rwa [Nat.add_right_comm, Nat.add_assoc] at hleads

theorem found_leads_in_fields (fields : List (String × Value)) (hfields : addressable_fields fields)
    {fields' : List (String × Value)} {place found : List String}
    (h : substitute_fields registry (render_tokens place) fields = .ok (fields', found)) :
    ∀ pointer ∈ found, ∃ key value, (key, value) ∈ fields ∧ LeadsToSecret (place ++ [key]) value pointer := by
  match fields with
  | [] =>
    obtain ⟨-, rfl⟩ := Prod.mk.inj (Except.ok.inj h)
    exact List.forall_mem_nil _
  | (key, value) :: fields =>
    obtain ⟨value', first, rest', rest, hvalue, hrest, -, rfl⟩ := substituted_field h
    intro pointer hpointer
    obtain hfirst | hlater := List.mem_append.mp hpointer
    · exact ⟨key, value, List.mem_cons_self, found_leads value hfields.1 hvalue pointer hfirst⟩
    · obtain ⟨k, x, hx, hleads⟩ := found_leads_in_fields fields hfields.2 hrest pointer hlater
      exact ⟨k, x, List.mem_cons_of_mem _ hx, hleads⟩

end

theorem render_tokens_injective : Function.Injective render_tokens := fun a b h =>
  Option.some.inj ((reference_tokens_render a).symm.trans ((congrArg reference_tokens h).trans (reference_tokens_render b)))

theorem leads_apart {place : List String} {own other pointer : String} {x y : Value} (hne : own ≠ other)
    (hx : LeadsToSecret (place ++ [own]) x pointer) : ¬ LeadsToSecret (place ++ [other]) y pointer := by
  rintro ⟨tokens', s', heq', -⟩
  obtain ⟨tokens, s, heq, -⟩ := hx
  have htokens := render_tokens_injective (heq.symm.trans heq')
  rw [List.append_assoc, List.append_assoc, List.append_right_inj] at htokens
  exact hne (List.cons.inj htokens).1

mutual

theorem found_nodup (v : Value) (hv : v.Addressable) {v' : Value} {place found : List String}
    (h : substitute_with_pointers registry (render_tokens place) v = .ok (v', found)) : found.Nodup := by
  cases v with
  | string s =>
    obtain ⟨-, -, ⟨-, rfl⟩ | ⟨-, rfl⟩⟩ := substituted_string h
    · exact List.nodup_nil
    · exact List.nodup_singleton _
  | array items =>
    obtain ⟨items', -, hitems⟩ := substituted_array h
    exact found_nodup_items items hv.2 hitems
  | object fields =>
    obtain ⟨fields', -, hfields⟩ := substituted_object h
    exact found_nodup_fields fields hv.2 hv.1 hfields
  | null | bool b | number n =>
    obtain ⟨-, rfl⟩ := Prod.mk.inj (Except.ok.inj h)
    exact List.nodup_nil

theorem found_nodup_items (items : List Value) (hitems : addressable_items items) {items' : List Value}
    {place found : List String} {i : Nat}
    (h : substitute_items registry (render_tokens place) i items = .ok (items', found)) : found.Nodup := by
  match items with
  | [] =>
    obtain ⟨-, rfl⟩ := Prod.mk.inj (Except.ok.inj h)
    exact List.nodup_nil
  | item :: items =>
    obtain ⟨item', first, rest', rest, hitem, hrest, -, rfl⟩ := substituted_item h
    refine List.nodup_append.mpr ⟨found_nodup item hitems.1 hitem, found_nodup_items items hitems.2 hrest, ?_⟩
    rintro pointer hfirst _ hlater rfl
    obtain ⟨j, x, -, hleads⟩ := found_leads_in_items items hitems.2 hrest pointer hlater
    refine leads_apart (fun heq => ?_) (found_leads item hitems.1 hitem pointer hfirst) hleads
    have hindex : i = i + 1 + j := index_text_injective heq
    omega

theorem found_nodup_fields (fields : List (String × Value)) (hfields : addressable_fields fields)
    (hkeys : (fields.map Prod.fst).Nodup) {fields' : List (String × Value)} {place found : List String}
    (h : substitute_fields registry (render_tokens place) fields = .ok (fields', found)) : found.Nodup := by
  match fields with
  | [] =>
    obtain ⟨-, rfl⟩ := Prod.mk.inj (Except.ok.inj h)
    exact List.nodup_nil
  | (key, value) :: fields =>
    obtain ⟨value', first, rest', rest, hvalue, hrest, -, rfl⟩ := substituted_field h
    obtain ⟨hnew, hkeys⟩ := List.nodup_cons.mp hkeys
    refine List.nodup_append.mpr ⟨found_nodup value hfields.1 hvalue, found_nodup_fields fields hfields.2 hkeys hrest, ?_⟩
    rintro pointer hfirst _ hlater rfl
    obtain ⟨k, x, hmem, hleads⟩ := found_leads_in_fields fields hfields.2 hrest pointer hlater
    refine leads_apart (fun heq => hnew ?_) (found_leads value hfields.1 hvalue pointer hfirst) hleads
    exact List.mem_map.mpr ⟨_, hmem, heq.symm⟩

end

theorem splice_ok_iff (pieces : List (Char ⊕ SecretRef)) :
    (∃ out, splice registry pieces = .ok out) ↔
      ∀ sref ∈ pieces.filterMap Sum.getRight?, ∃ text, registry sref = .ok text := by
  induction pieces with
  | nil => simp [splice]
  | cons piece pieces ih =>
    cases piece with
    | inl c =>
      rw [List.filterMap_cons_none rfl, ← ih, splice]
      cases splice registry pieces <;> simp [bind, Except.bind, pure, Except.pure]
    | inr sref =>
      have hrefs : (.inr sref :: pieces : List (Char ⊕ SecretRef)).filterMap Sum.getRight? =
          sref :: pieces.filterMap Sum.getRight? := rfl
      rw [hrefs, List.forall_mem_cons, ← ih, splice]
      cases registry sref <;> cases splice registry pieces <;> simp [bind, Except.bind, pure, Except.pure]

mutual

/-- The substitution succeeds exactly when every reference resolves. -/
theorem substitute_ok_iff (pointer : String) (v : Value) :
    (∃ out, substitute_with_pointers registry pointer v = .ok out) ↔
      ∀ sref ∈ references v, ∃ text, registry sref = .ok text := by
  cases v with
  | string s =>
    rw [substitute_with_pointers, references]
    cases hany : (find_refs_in_string s).any Sum.isRight with
    | false => simp [references_of_text_eq_nil.mpr hany]
    | true =>
      rw [references_of_text, ← splice_ok_iff]
      cases splice registry (find_refs_in_string s) <;> simp [bind, Except.bind, pure, Except.pure]
  | array items =>
    rw [substitute_with_pointers, references, ← substitute_items_ok_iff pointer 0 items]
    cases substitute_items registry pointer 0 items <;> simp [bind, Except.bind, pure, Except.pure]
  | object fields =>
    rw [substitute_with_pointers, references, ← substitute_fields_ok_iff pointer fields]
    cases substitute_fields registry pointer fields <;> simp [bind, Except.bind, pure, Except.pure]
  | null | bool b | number n => simp [substitute_with_pointers, references]

theorem substitute_items_ok_iff (pointer : String) (i : Nat) (items : List Value) :
    (∃ out, substitute_items registry pointer i items = .ok out) ↔
      ∀ sref ∈ references_of_items items, ∃ text, registry sref = .ok text := by
  cases items with
  | nil => simp [substitute_items, references_of_items]
  | cons item items =>
    rw [substitute_items, references_of_items, List.forall_mem_append,
      ← substitute_ok_iff (pointer ++ "/" ++ toString i) item, ← substitute_items_ok_iff pointer (i + 1) items]
    cases substitute_with_pointers registry (pointer ++ "/" ++ toString i) item <;>
      cases substitute_items registry pointer (i + 1) items <;> simp [bind, Except.bind, pure, Except.pure]

theorem substitute_fields_ok_iff (pointer : String) (fields : List (String × Value)) :
    (∃ out, substitute_fields registry pointer fields = .ok out) ↔
      ∀ sref ∈ references_of_fields fields, ∃ text, registry sref = .ok text := by
  match fields with
  | [] => simp [substitute_fields, references_of_fields]
  | (key, value) :: fields =>
    rw [substitute_fields, references_of_fields, List.forall_mem_append,
      ← substitute_ok_iff (pointer ++ "/" ++ escape_key key) value, ← substitute_fields_ok_iff pointer fields]
    cases substitute_with_pointers registry (pointer ++ "/" ++ escape_key key) value <;>
      cases substitute_fields registry pointer fields <;> simp [bind, Except.bind, pure, Except.pure]

end

/-- What the substitution makes of a value: every place is resolved where it
stands, and the pointers lead, once each, to exactly the texts with references. -/
structure SubstitutedExactly (registry : SecretRegistry) (v out : Value) (count : Nat) (found : List String) : Prop where
  count : count = (references v).length
  places : ∀ pointer, (v.pointer pointer = none ∧ out.pointer pointer = none) ∨
    ∃ w w', v.pointer pointer = some w ∧ out.pointer pointer = some w' ∧ Resolves registry w w'
  once : found.Nodup
  leads : ∀ pointer ∈ found, ∃ s, v.pointer pointer = some (.string s) ∧ references_of_text s ≠ []
  complete : ∀ pointer s, v.pointer pointer = some (.string s) → references_of_text s ≠ [] →
    ∃ own ∈ found, ∀ new, v.set_pointer own new = v.set_pointer pointer new

/-- The substitution fails only for want of a secret, and otherwise is exact. -/
theorem substitution_is_exact (registry : SecretRegistry) (v : Value) (hv : v.Addressable) :
    ((∃ result, substitute_through_pointers registry v = .ok result) ↔
      ∀ sref ∈ references v, ∃ text, registry sref = .ok text) ∧
    ∀ out count found, substitute_through_pointers registry v = .ok (out, count, found) →
      SubstitutedExactly registry v out count found := by
  have hplace : v.locate [] = some v := rfl
  rw [substitute_through_pointers, collect_string_pointers, show "" = render_tokens [] from rfl,
    @walk_value registry v hv v [] hplace 0 []]
  refine ⟨?_, fun out count found h => ?_⟩
  · rw [← @substitute_ok_iff registry (render_tokens []) v]
    cases substitute_with_pointers registry (render_tokens []) v <;> simp [Except.map]
  · have hv' : substitute_with_pointers registry (render_tokens []) v = .ok (out, found) ∧ count = (references v).length := by
      cases hresult : substitute_with_pointers registry (render_tokens []) v with
      | error e => simp [hresult, Except.map] at h
      | ok result =>
        simp only [hresult, Except.map, Except.ok.injEq, Prod.mk.injEq, List.nil_append, Nat.zero_add, Value.put] at h
        obtain ⟨rfl, rfl, rfl⟩ := h
        exact ⟨rfl, rfl⟩
    obtain ⟨hv', rfl⟩ := hv'
    refine ⟨rfl, fun pointer => ?_, found_nodup v hv hv', fun pointer hpointer => ?_, fun pointer s hs hrefs => ?_⟩
    · rw [Value.pointer, Value.pointer]
      cases reference_tokens pointer with
      | none => exact .inl ⟨rfl, rfl⟩
      | some tokens => exact substitute_located ⟨[], found, hv'⟩ tokens
    · obtain ⟨tokens, s, rfl, hs, hrefs⟩ := found_leads v hv hv' pointer hpointer
      exact ⟨s, (pointer_render v tokens).trans hs, hrefs⟩
    · obtain ⟨tokens, htokens, hs⟩ := Option.bind_eq_some_iff.mp hs
      obtain ⟨own, hfound, hput⟩ := text_is_found hv' hs hrefs
      refine ⟨_, hfound, fun new => ?_⟩
      rw [List.nil_append, set_pointer_render, Value.set_pointer, htokens]
      exact hput new

end Exact

section Samples

/-- A password under a key that a pointer has to escape. -/
def login : Value :=
  json [("password", .array [.string "ann", .string "p=$\x7bsecret://env/DB\x7d!"]),
    ("token~a/b", .string "$\x7bsecret://env/DB\x7d")]

/-- A secret whose text looks like a reference. -/
def env : SecretRegistry := fun sref =>
  if sref.resolver = "env" then .ok "$\x7bsecret://env/DB\x7d" else .error (.BadRequest "unknown secret resolver")

theorem login_addressable : login.Addressable := by
  refine ⟨by decide, ⟨by decide, trivial, trivial, trivial⟩, trivial, trivial⟩

theorem login_is_substituted : substitute_through_pointers env login =
    (substitute_with_pointers env "" login).map fun out => (out.1, (references login).length, out.2) :=
  substitution_through_pointers env login login_addressable

theorem login_is_exact : ∃ out, substitute_through_pointers env login = .ok (out, 2, ["/password/1", "/token~0a~1b"]) ∧
    SubstitutedExactly env login out 2 ["/password/1", "/token~0a~1b"] := by
  have hsome : ((substitute_through_pointers env login).toOption.map Prod.snd) =
      some (2, ["/password/1", "/token~0a~1b"]) := by decide
  cases hrun : substitute_through_pointers env login with
  | error e => simp [hrun, Except.toOption] at hsome
  | ok result =>
    obtain ⟨out, count, found⟩ := result
    simp only [hrun, Except.toOption, Option.map_some, Option.some.injEq, Prod.mk.injEq] at hsome
    obtain ⟨rfl, rfl⟩ := hsome
    exact ⟨out, rfl, (substitution_is_exact env login login_addressable).2 out _ _ hrun⟩

end Samples

end iac_controlplane.secrets
