import Iac.Collections.Paths
import Iac.Collections.Words
import Iac.Core.Provider
import Iac.Core.Text
import Iac.Providers.Lifecycle
import Mathlib.Data.List.DropRight
import Mathlib.Logic.Function.Basic

open iac_core serde_json

namespace iac_providers.sysctl

structure SysctlSettingSpec where
  key : String
  value : String

def SysctlSettingSpec.proc_path (spec : SysctlSettingSpec) : String :=
  "/proc/sys/" ++ String.ofList (spec.key.toList.map fun c => if c = '.' then '/' else c)

/-- Whether the text has two dots in a row. -/
def has_double_dot : List Char → Bool
  | '.' :: '.' :: _ => true
  | _ :: rest => has_double_dot rest
  | [] => false

def validate_key (key : String) : Except String Unit :=
  let chars := key.toList
  if chars.isEmpty then .error "key must not be empty"
  else if chars.head? == some '.' || chars.getLast? == some '.' || has_double_dot chars then
    .error ("key " ++ str.debug key ++ " must not start/end with '.' or contain '..'")
  else if !chars.all fun c => c.isAlphanum || c == '.' || c == '_' || c == '-' then
    .error ("key " ++ str.debug key ++ " must be alphanumeric with optional '.', '_', '-'")
  else if 256 < key.utf8ByteSize then
    .error ("key " ++ str.debug key ++ " length " ++ toString key.utf8ByteSize ++ " exceeds 256")
  else .ok ()

def validate_value (value : String) : Except String Unit :=
  if value.toList.any fun c => c == '\x00' || c == '\n' || c == '\r' then
    .error "value must not contain control characters (NUL, LF, CR)"
  else if 4096 < value.utf8ByteSize then
    .error ("value length " ++ toString value.utf8ByteSize ++ " exceeds 4096 (kernel write buffer limit)")
  else .ok ()

/-- The one state of the struct is `present`; unknown fields are refused. -/
def SysctlSettingSpec.from_value (v : Value) : Except String SysctlSettingSpec :=
  match v with
  | .object fields =>
    if fields.any fun f => f.1 != "key" && f.1 != "value" && f.1 != "state" then .error "unknown field"
    else
      match (v.get "key").bind Value.as_str, (v.get "value").bind Value.as_str with
      | some key, some value =>
        if (v.get "state").any fun state => state.as_str != some "present" then .error "unknown variant"
        else do
          validate_key key
          validate_value value
          return ⟨key, value⟩
      | _, _ => .error "missing field"
  | _ => .error "invalid type"

/-- The files under `/proc/sys`. -/
abbrev Procfs := String → Option String

def trim_end (text : String) : String :=
  String.ofList (text.toList.reverse.dropWhile fun c => c == '\n' || c == '\r').reverse

def read_current (host : Procfs) (spec : SysctlSettingSpec) : Option String :=
  (host spec.proc_path).map trim_end

def observe (host : Procfs) (spec : SysctlSettingSpec) : ObservedState :=
  match read_current host spec with
  | none =>
    { present := false, spec := .object [("key", .string spec.key)], facts := [("exists", .bool false)] }
  | some value =>
    { present := true, spec := .object [("key", .string spec.key), ("value", .string value)]
      facts := [("exists", .bool true), ("value", .string value)] }

def diff (spec : SysctlSettingSpec) (observed : ObservedState) : Diff :=
  let exists_fact := match observed.facts.lookup "exists" with
    | some (.bool b) => b
    | _ => false
  let observed_value := (observed.facts.lookup "value").bind Value.as_str
  if !exists_fact then
    { kind := .Update, changes := [⟨"exists", some (.bool false), some (.bool true), false⟩]
      reasons := ["kernel parameter " ++ spec.key ++ " not present on this system"], reversible := false }
  else if observed_value = some spec.value then .no_change
  else
    { kind := .Update
      changes := [⟨"value", observed_value.map .string, some (.string spec.value), false⟩]
      reasons := [spec.key ++ " " ++ str.debug (observed_value.getD "") ++ " -> " ++ str.debug spec.value], reversible := true }

open effect iac_core.executor tokens

def is_blank (c : Char) : Bool := c == ' ' || c == '\t'

/-- A field of a kernel parameter. -/
structure Field where
  text : List Char
  ne_nil : text ≠ []
  solid : Solid is_blank text

@[ext] theorem Field.ext {a b : Field} (h : a.text = b.text) : a = b := by
  cases a
  cases b
  cases h
  rfl

/-- The fields that the kernel reads from a written value. -/
def read_fields (value : List Char) : List Field :=
  (words is_blank value).attach.map fun word => ⟨word.1, ne_nil_of_mem_words word.2, solid_of_mem_words word.2⟩

def joined (fields : List Field) : List Char := ['\t'].intercalate (fields.map Field.text)

/-- What the file of the parameter holds. -/
def print_fields (fields : List Field) : List Char := joined fields ++ ['\n']

/-- The parameters by their files, and the values that the kernel refuses,
with the error of the call. -/
structure Kernel where
  parameter : String → Option (List Field)
  refusal : String → String → Option String

def Kernel.procfs (k : Kernel) : Procfs := fun file =>
  (k.parameter file).map fun fields => String.ofList (print_fields fields)

namespace ops

def provider_error (message : String) : Error := .Provider "sysctl" message

/-- No file can be made under `/proc/sys`. -/
def write (file value : String) : Prog Kernel Error Unit := of_fun fun k =>
  match k.parameter file, k.refusal file value with
  | none, _ => (.error (provider_error ("writing " ++ file ++ ": No such file or directory (os error 2)")), k)
  | some _, some e => (.error (provider_error ("writing " ++ file ++ ": " ++ e)), k)
  | some _, none => (.ok (), { k with parameter := Function.update k.parameter file (some (read_fields value.toList)) })

inductive SysctlAction where
  | Set

def SysctlAction.as_str : SysctlAction → String
  | .Set => "sysctl.set"

def SysctlAction.parse : String → Except Error SysctlAction
  | "sysctl.set" => .ok .Set
  | other => .error (.Provider "SysctlAction" ("unknown step action " ++ str.debug other))

def plan (id : Ulid) (spec : SysctlSettingSpec) (diff : Diff) : List Step :=
  if !diff.is_change then []
  else [Step.new id SysctlAction.Set.as_str ("sysctl.setting/" ++ spec.key) (json [("key", .string spec.key)])]

def pre_apply (spec : SysctlSettingSpec) (k : Kernel) : Except Error Value :=
  .ok (json [("previous_value", of_option (read_current k.procfs spec))])

def apply (spec : SysctlSettingSpec) (step : Step) : Prog Kernel Error StepResult :=
  match SysctlAction.parse step.action with
  | .error e => throw e
  | .ok .Set => do
    write spec.proc_path spec.value
    return .ok ("set " ++ spec.key ++ " = " ++ str.debug spec.value)

/-- A checkpoint without a previous value leaves the parameter as it is. -/
def rollback (spec : SysctlSettingSpec) (checkpoint : Value) : Prog Kernel Error Unit :=
  match (checkpoint.get "previous_value").bind Value.as_str with
  | some previous => write spec.proc_path previous
  | none => return

end ops

def kernel_ops : Ops Kernel SysctlSettingSpec where
  observe spec k := .ok (observe k.procfs spec)
  diff spec observed := .ok (diff spec observed)
  plan := ops.plan
  pre_apply := ops.pre_apply
  apply spec step _ := ops.apply spec step
  rollback := ops.rollback

/-- The provider as the agent calls it, whether the write of a planned step succeeds or not. -/
def provider : iac_core.Provider Kernel where
  observe k r := (SysctlSettingSpec.from_value r.spec).map (observe k.procfs)
  diff r observed := (SysctlSettingSpec.from_value r.spec).map fun spec => diff spec observed
  apply r k :=
    match SysctlSettingSpec.from_value r.spec with
    | .ok spec =>
      (ops.plan 0 spec (diff spec (observe k.procfs spec))).foldl (fun k step => (perform (ops.apply spec step) k).2) k
    | .error _ => k

/-- The provider of kind `sysctl.setting` on the parameters. -/
def kernel_provider (id : Ulid) : executor.Provider Kernel :=
  kernel_ops.provider "sysctl.setting" SysctlSettingSpec.from_value id fun _ => .null

section Fields

variable {fields : List Field}

theorem map_text_read_fields (value : List Char) : (read_fields value).map Field.text = words is_blank value := by
  rw [read_fields, List.map_map]
  exact List.attach_map_subtype_val _

theorem joined_read_fields (value : List Char) : joined (read_fields value) = ['\t'].intercalate (words is_blank value) := by
  rw [joined, map_text_read_fields]

theorem words_joined (fields : List Field) : words is_blank (joined fields) = fields.map Field.text := by
  apply words_intercalate rfl
  intro word hword
  obtain ⟨field, -, rfl⟩ := List.mem_map.mp hword
  exact ⟨field.ne_nil, field.solid⟩

/-- The kernel reads back what it prints. -/
theorem read_fields_joined (fields : List Field) : read_fields (joined fields) = fields := by
  have htexts := map_text_read_fields (joined fields)
  rw [words_joined] at htexts
  exact List.map_injective_iff.mpr (fun _ _ h => Field.ext h) htexts

def is_line_end (c : Char) : Bool := c == '\n' || c == '\r'

theorem trim_end_print (fields : List Field) :
    (trim_end (String.ofList (print_fields fields))).toList = (joined fields).rdropWhile is_line_end := by
  rw [trim_end, String.toList_ofList, String.toList_ofList, print_fields]
  exact List.rdropWhile_concat_pos is_line_end (joined fields) '\n' rfl

/-- The last field does not end with a line break or a carriage return. -/
def Trimmed (fields : List Field) : Prop :=
  ∀ field, fields.getLast? = some field → ∀ c, field.text.getLast? = some c → is_line_end c = false

theorem joined_concat (fields : List Field) (field : Field) :
    ∃ front, joined (fields ++ [field]) = front ++ field.text := by
  induction fields with
  | nil => exact ⟨[], by simp [joined]⟩
  | cons first fields ih =>
    obtain ⟨front, hfront⟩ := ih
    have hne : (fields ++ [field]).map Field.text ≠ [] := by simp
    refine ⟨first.text ++ ['\t'] ++ front, ?_⟩
    rw [List.cons_append, joined, List.map_cons, List.intercalate_cons_of_ne_nil hne]
    rw [joined] at hfront
    simp only [hfront, List.append_assoc]

theorem trimmed_iff : Trimmed fields ↔ (joined fields).rdropWhile is_line_end = joined fields := by
  rw [List.rdropWhile_eq_self_iff]
  obtain rfl | ⟨front, field, rfl⟩ := List.eq_nil_or_concat' fields
  · simp [Trimmed, joined]
  · obtain ⟨text, htext⟩ := joined_concat front field
    have hlast : (joined (front ++ [field])).getLast? = field.text.getLast? := by
      rw [htext, List.getLast?_append_of_ne_nil _ field.ne_nil]
    have hne : joined (front ++ [field]) ≠ [] := by simp [htext, field.ne_nil]
    have hend := hlast.symm.trans (List.getLast?_eq_some_getLast hne)
    constructor
    · intro h _
      simpa using h field (by simp) _ hend
    · intro h found hfound c hc
      obtain rfl : field = found := by simpa using hfound
      obtain rfl := Option.some.inj (hend.symm.trans hc)
      simpa using h hne

/-- What is read of the file is written back as the same fields when the last
one ends plainly. -/
theorem read_back_iff : read_fields ((joined fields).rdropWhile is_line_end) = fields ↔ Trimmed fields := by
  constructor
  · intro h
    have hwords := congrArg (fun fields => (fields.map Field.text).flatten) h
    simp only [map_text_read_fields, ← words_joined fields, flatten_words] at hwords
    have hsplit := List.rdropWhile_append_rtakeWhile (p := is_line_end) (l := joined fields)
    have hcut := congrArg (List.filter fun c => !is_blank c) hsplit
    rw [List.filter_append, hwords] at hcut
    have hnone : ((joined fields).rtakeWhile is_line_end).filter (fun c => !is_blank c) = [] :=
      List.append_right_eq_self.mp hcut
    have hnil : (joined fields).rtakeWhile is_line_end = [] := by
      rw [List.eq_nil_iff_forall_not_mem]
      intro c hc
      have hend := List.mem_rtakeWhile_imp hc
      have hblank := List.filter_eq_nil_iff.mp hnone c hc
      simp only [is_line_end, is_blank, Bool.or_eq_true, beq_iff_eq] at hend hblank
      rcases hend with rfl | rfl <;> simp at hblank
    rw [hnil, List.append_nil] at hsplit
    exact trimmed_iff.mpr hsplit
  · intro h
    rw [trimmed_iff.mp h, read_fields_joined]

end Fields

section Keys

def slash_of_dot (c : Char) : Char := if c = '.' then '/' else c

theorem splitOn_slash_of_dot {chars : List Char} (h : '/' ∉ chars) :
    (chars.map slash_of_dot).splitOn '/' = chars.splitOn '.' := by
  induction chars with
  | nil => rfl
  | cons c chars ih =>
    have hc : c ≠ '/' := fun hc => h (hc ▸ List.mem_cons_self)
    have hrest := ih fun hmem => h (List.mem_cons_of_mem _ hmem)
    rw [List.map_cons, List.splitOn_cons_eq_if_modifyHead, List.splitOn_cons_eq_if_modifyHead, hrest]
    by_cases hdot : c = '.'
    · simp [slash_of_dot, hdot]
    · simp [slash_of_dot, hdot, hc]

theorem has_double_dot_cons (c : Char) (rest : List Char) :
    has_double_dot (c :: rest) = (c == '.' && rest.head? == some '.' || has_double_dot rest) := by
  by_cases hdots : c = '.' ∧ rest.head? = some '.'
  · obtain ⟨rfl, hhead⟩ := hdots
    obtain ⟨tail, rfl⟩ := List.head?_eq_some_iff.mp hhead
    rfl
  · have hnot : (c == '.' && rest.head? == some '.') = false := by simpa using hdots
    rw [hnot, Bool.false_or, has_double_dot]
    intro tail hc htail
    exact hdots ⟨hc, by rw [htail]; rfl⟩

/-- An empty piece stands at a dot that begins or ends the text, or follows another. -/
theorem pieces_ne_nil {chars : List Char} (hdots : has_double_dot chars = false) (hlast : chars.getLast? ≠ some '.') :
    ∃ first rest, chars.splitOn '.' = first :: rest ∧ (first = [] → chars = [] ∨ chars.head? = some '.') ∧
      ∀ s ∈ rest, s ≠ [] := by
  induction chars with
  | nil => exact ⟨[], [], rfl, by simp, by simp⟩
  | cons c chars ih =>
    rw [has_double_dot_cons, Bool.or_eq_false_iff] at hdots
    have hlast_rest : chars.getLast? ≠ some '.' := by
      intro h
      apply hlast
      rw [List.getLast?_cons, h]
      rfl
    obtain ⟨first, rest, hsplit, hfirst, hrest⟩ := ih hdots.2 hlast_rest
    rw [List.splitOn_cons_eq_if_modifyHead, hsplit]
    by_cases hc : c = '.'
    · subst hc
      refine ⟨[], first :: rest, by simp, fun _ => .inr rfl, List.forall_mem_cons.mpr ⟨fun hnil => ?_, hrest⟩⟩
      obtain hempty | hhead := hfirst hnil
      · simp [hempty] at hlast
      · simp [hhead] at hdots
    · exact ⟨c :: first, rest, by simp [hc], by simp, hrest⟩

theorem validate_key_ok {key : String} (h : validate_key key = .ok ()) :
    key.toList ≠ [] ∧ key.toList.head? ≠ some '.' ∧ key.toList.getLast? ≠ some '.' ∧
      has_double_dot key.toList = false ∧ '/' ∉ key.toList := by
  simp only [validate_key] at h
  split_ifs at h with hempty hdots hchars
  simp only [Bool.or_eq_true, beq_iff_eq, not_or, Bool.not_eq_true] at hdots
  refine ⟨by simpa using hempty, hdots.1.1, hdots.1.2, hdots.2, fun hslash => ?_⟩
  have hall : key.toList.all (fun c => c.isAlphanum || c == '.' || c == '_' || c == '-') = true := by
    simpa only [Bool.not_eq_true', Bool.not_eq_false] using hchars
  exact absurd (List.all_eq_true.mp hall _ hslash) (by decide)

/-- The file of an accepted key is where its dots separate the names. -/
theorem resolve_proc_path {spec : SysctlSettingSpec} (h : validate_key spec.key = .ok ()) :
    path.resolve spec.proc_path.toList = ["proc".toList, "sys".toList] ++ spec.key.toList.splitOn '.' := by
  obtain ⟨hne, hhead, hlast, hdots, hslash⟩ := validate_key_ok h
  obtain ⟨first, rest, hsplit, hfirst, hrest⟩ := pieces_ne_nil hdots hlast
  have hplain : ∀ s ∈ spec.key.toList.splitOn '.', path.Plain s := by
    intro s hs
    have hdot : '.' ∉ s := path.not_mem_of_mem_splitOn s hs
    refine ⟨?_, by rintro rfl; simp at hdot, by rintro rfl; simp at hdot, ?_⟩
    · rw [hsplit] at hs
      obtain rfl | hs := List.mem_cons.mp hs
      · intro hnil
        exact (hfirst hnil).elim hne hhead
      · exact hrest s hs
    · exact path.not_mem_of_mem_splitOn s (splitOn_slash_of_dot hslash ▸ hs)
  have htext : spec.proc_path.toList = "/proc/sys".toList ++ '/' :: spec.key.toList.map slash_of_dot := by
    simp [SysctlSettingSpec.proc_path, slash_of_dot]
  rw [htext, path.resolve_append, splitOn_slash_of_dot hslash]
  exact path.foldl_enter_plain hplain _

/-- Keys that differ have different files. -/
theorem key_of_file {a b : SysctlSettingSpec} (ha : validate_key a.key = .ok ()) (hb : validate_key b.key = .ok ())
    (h : path.resolve a.proc_path.toList = path.resolve b.proc_path.toList) : a.key = b.key := by
  rw [resolve_proc_path ha, resolve_proc_path hb] at h
  have hkeys := congrArg (['.'].intercalate ·) (List.append_cancel_left h)
  simp only [List.intercalate_splitOn] at hkeys
  exact String.toList_inj.mp hkeys

end Keys

section Operations

variable {spec : SysctlSettingSpec} {k after : Kernel} {fields : List Field}

theorem read_current_of (h : k.parameter spec.proc_path = some fields) :
    ∃ text, read_current k.procfs spec = some text ∧ text.toList = (joined fields).rdropWhile is_line_end := by
  refine ⟨trim_end (String.ofList (print_fields fields)), ?_, trim_end_print fields⟩
  simp [read_current, Kernel.procfs, h]

/-- A parameter that is there differs from the setting when its text does. -/
theorem noChange_iff (h : k.parameter spec.proc_path = some fields) :
    kernel_ops.NoChange spec k ↔ (joined fields).rdropWhile is_line_end = spec.value.toList := by
  obtain ⟨text, hread, htext⟩ := read_current_of h
  have hobserve : (observe k.procfs spec).facts = [("exists", .bool true), ("value", .string text)] := by
    rw [observe, hread]
  have hdiff : (diff spec (observe k.procfs spec)).is_change = false ↔ text = spec.value := by
    by_cases heq : text = spec.value
    · simp [diff, hobserve, List.lookup_cons, Value.as_str, heq, Diff.is_change, Diff.no_change]
    · simp [diff, hobserve, List.lookup_cons, Value.as_str, heq, Diff.is_change]
  rw [← htext, String.toList_inj, ← hdiff]
  constructor
  · rintro ⟨d, hd, hchange⟩
    exact Except.ok.inj hd ▸ hchange
  · exact fun hchange => ⟨_, rfl, hchange⟩

theorem write_accepted {file value : String} (h : k.parameter file = some fields) (haccepts : k.refusal file value = none) :
    perform (ops.write file value) k =
      (.ok (), { k with parameter := Function.update k.parameter file (some (read_fields value.toList)) }) := by
  rw [ops.write, perform_of_fun]
  simp only [h, haccepts]

/-- A write on a parameter that is there, refused or not. -/
theorem perform_write (value : String) (h : k.parameter spec.proc_path = some fields) :
    (∃ e, perform (ops.write spec.proc_path value) k = (.error e, k)) ∨
      perform (ops.write spec.proc_path value) k =
        (.ok (), { k with parameter := Function.update k.parameter spec.proc_path (some (read_fields value.toList)) }) := by
  cases hrefusal : k.refusal spec.proc_path value with
  | none => exact .inr (write_accepted h hrefusal)
  | some e =>
    refine .inl ⟨ops.provider_error ("writing " ++ spec.proc_path ++ ": " ++ e), ?_⟩
    rw [ops.write, perform_of_fun]
    simp only [h, hrefusal]

theorem apply_ok {step : Step} {result : StepResult} (h : k.parameter spec.proc_path = some fields)
    (happly : perform (ops.apply spec step) k = (.ok result, after)) :
    after.parameter spec.proc_path = some (read_fields spec.value.toList) := by
  rw [ops.apply] at happly
  split at happly
  · cases happly
  · obtain ⟨_, t, hwrite, hreturn⟩ := perform_bind_eq_ok_iff.mp happly
    obtain ⟨-, rfl⟩ := Prod.mk.inj hreturn
    obtain ⟨e, herror⟩ | hok := perform_write spec.value h
    · cases hwrite.symm.trans herror
    · obtain ⟨-, rfl⟩ := Prod.mk.inj (hwrite.symm.trans hok)
      exact Function.update_self ..

/-- The parameter is still there after the step, whatever its outcome. -/
theorem apply_keeps (step : Step) (h : k.parameter spec.proc_path = some fields) :
    ∃ fields, (perform (ops.apply spec step) k).2.parameter spec.proc_path = some fields := by
  rw [ops.apply]
  split
  · exact ⟨fields, h⟩
  · rw [perform_bind_pure_snd]
    obtain ⟨e, herror⟩ | hok := perform_write spec.value h
    · exact ⟨fields, by rw [herror]; exact h⟩
    · exact ⟨_, by rw [hok]; exact Function.update_self ..⟩

theorem rollback_checkpoint {text : String} :
    ops.rollback spec (json [("previous_value", of_option (some text))]) = ops.write spec.proc_path text := by
  rw [ops.rollback, Value.get_json]
  rfl

end Operations

section Settles

variable {spec : SysctlSettingSpec} {parameter : String → Option (List Field)} {prior : List Field} {v : Value}

theorem from_value_ok (h : SysctlSettingSpec.from_value v = .ok spec) :
    validate_key spec.key = .ok () ∧ validate_value spec.value = .ok () := by
  unfold SysctlSettingSpec.from_value at h
  split at h
  · split at h
    · cases h
    · split at h
      · split at h
        · cases h
        · obtain ⟨⟨⟩, hkey, h⟩ := fallible.bind_eq_ok_iff.mp h
          obtain ⟨⟨⟩, hvalue, h⟩ := fallible.bind_eq_ok_iff.mp h
          obtain rfl := Except.ok.inj h
          exact ⟨hkey, hvalue⟩
      · cases h
  · cases h

theorem trimmed_read_fields (h : validate_value spec.value = .ok ()) : Trimmed (read_fields spec.value.toList) := by
  intro field hfield c hc
  have hword : field.text ∈ words is_blank spec.value.toList := by
    rw [← map_text_read_fields]
    exact List.mem_map_of_mem (List.mem_of_getLast? hfield)
  have hmem : c ∈ (words is_blank spec.value.toList).flatten :=
    List.mem_flatten.mpr ⟨_, hword, List.mem_of_getLast? hc⟩
  rw [flatten_words] at hmem
  rw [validate_value] at h
  split_ifs at h with hcontrol
  have hplain : ¬ (spec.value.toList.any fun c => c == '\x00' || c == '\n' || c == '\r') = true := hcontrol
  rw [List.any_eq_true] at hplain
  by_contra hend
  apply hplain
  refine ⟨c, (List.mem_filter.mp hmem).1, ?_⟩
  simp only [is_line_end, Bool.not_eq_false, Bool.or_eq_true] at hend ⊢
  exact hend.elim (fun h => .inl (.inr h)) .inr

/-- The value has a single tab between its fields, and nothing around them. -/
def Canonical (value : String) : Prop := value.toList = ['\t'].intercalate (words is_blank value.toList)

/-- What is asked of a setting whose parameter has the fields `prior`. The
kernel may refuse any value. -/
structure Settles (spec : SysctlSettingSpec) (parameter : String → Option (List Field)) (prior : List Field) : Prop where
  converges : ∀ refusal step result after, perform (ops.apply spec step) ⟨parameter, refusal⟩ = (.ok result, after) →
    kernel_ops.NoChange spec after
  verifies : ∀ refusal step result after, perform (ops.apply spec step) ⟨parameter, refusal⟩ = (.ok result, after) →
    ∀ id r, SysctlSettingSpec.from_value r.spec = .ok spec → (kernel_provider id).verify r after = (.ok .Match, after)
  equal : ∀ refusal, kernel_ops.NoChange spec ⟨parameter, refusal⟩ → prior = read_fields spec.value.toList
  restores : ∀ refusal step checkpoint u, ops.pre_apply spec ⟨parameter, refusal⟩ = .ok checkpoint →
    perform (ops.rollback spec checkpoint) (perform (ops.apply spec step) ⟨parameter, refusal⟩).2 = (.ok (), u) →
    u.parameter spec.proc_path = some prior

/-- The step of a plan. -/
def set_step : Step := Step.new 0 ops.SysctlAction.Set.as_str "" .null

theorem restored_of_rollback {refusal : String → String → Option String} {step : Step} {checkpoint : Value} {u : Kernel}
    (hprior : parameter spec.proc_path = some prior) (hsaved : ops.pre_apply spec ⟨parameter, refusal⟩ = .ok checkpoint)
    (hrollback : perform (ops.rollback spec checkpoint) (perform (ops.apply spec step) ⟨parameter, refusal⟩).2 = (.ok (), u)) :
    u.parameter spec.proc_path = some (read_fields ((joined prior).rdropWhile is_line_end)) := by
  obtain ⟨text, hread, htext⟩ := read_current_of (k := ⟨parameter, refusal⟩) hprior
  obtain ⟨fields, hafter⟩ := apply_keeps (k := ⟨parameter, refusal⟩) step hprior
  rw [ops.pre_apply, hread] at hsaved
  obtain rfl := Except.ok.inj hsaved
  rw [rollback_checkpoint] at hrollback
  obtain ⟨e, herror⟩ | hok := perform_write text hafter
  · cases hrollback.symm.trans herror
  · obtain ⟨-, rfl⟩ := Prod.mk.inj (hrollback.symm.trans hok)
    rw [← htext]
    exact Function.update_self ..

/-- The step on a kernel that refuses nothing. -/
theorem apply_accepted (hprior : parameter spec.proc_path = some prior) :
    perform (ops.apply spec set_step) ⟨parameter, fun _ _ => none⟩ =
      (.ok (.ok ("set " ++ spec.key ++ " = " ++ str.debug spec.value)),
        ⟨Function.update parameter spec.proc_path (some (read_fields spec.value.toList)), fun _ _ => none⟩) :=
  (perform_bind_ok (write_accepted hprior rfl)).trans (perform_pure _ _)

/-- A setting converges and rolls back exactly when its value is written the
way the kernel prints it, and the prior value ends plainly. Its key has a file
of its own. -/
theorem setting_settles_iff (hspec : SysctlSettingSpec.from_value v = .ok spec)
    (hprior : parameter spec.proc_path = some prior) :
    (Settles spec parameter prior ∧ ∀ w other, SysctlSettingSpec.from_value w = .ok other → other.key ≠ spec.key →
      path.resolve other.proc_path.toList ≠ path.resolve spec.proc_path.toList) ↔
    Canonical spec.value ∧ Trimmed prior := by
  obtain ⟨hkey, hvalue⟩ := from_value_ok hspec
  have htrimmed := trimmed_iff.mp (trimmed_read_fields hvalue)
  have hconverged {after : Kernel} (hafter : after.parameter spec.proc_path = some (read_fields spec.value.toList)) :
      kernel_ops.NoChange spec after ↔ Canonical spec.value := by
    rw [noChange_iff hafter, htrimmed, joined_read_fields, Canonical, eq_comm]
  constructor
  · rintro ⟨hsettles, -⟩
    have haccepts := apply_accepted hprior
    refine ⟨(hconverged (Function.update_self ..)).mp (hsettles.converges _ set_step _ _ haccepts), ?_⟩
    obtain ⟨text, hread, -⟩ := read_current_of (k := ⟨parameter, fun _ _ => none⟩) hprior
    have hsaved : ops.pre_apply spec ⟨parameter, fun _ _ => none⟩ =
        .ok (json [("previous_value", of_option (some text))]) := by
      rw [ops.pre_apply, hread]
    have hrollback : ∃ u, perform (ops.rollback spec (json [("previous_value", of_option (some text))]))
        (perform (ops.apply spec set_step) ⟨parameter, fun _ _ => none⟩).2 = (.ok (), u) := by
      rw [rollback_checkpoint, haccepts]
      exact ⟨_, write_accepted (Function.update_self ..) rfl⟩
    obtain ⟨u, hrollback⟩ := hrollback
    have hrestored := hsettles.restores _ set_step _ u hsaved hrollback
    rw [restored_of_rollback hprior hsaved hrollback] at hrestored
    exact read_back_iff.mp (Option.some.inj hrestored)
  · rintro ⟨hcanonical, hplain⟩
    have hconverges {refusal step result after}
        (happly : perform (ops.apply spec step) ⟨parameter, refusal⟩ = (.ok result, after)) :
        kernel_ops.NoChange spec after := (hconverged (apply_ok hprior happly)).mpr hcanonical
    refine ⟨⟨fun _ _ _ _ => hconverges, fun _ _ _ _ happly _ _ hr => Ops.verify_match hr (hconverges happly), ?_, ?_⟩, ?_⟩
    · intro refusal hsame
      rw [noChange_iff hprior, trimmed_iff.mp hplain] at hsame
      rw [← hsame, read_fields_joined]
    · intro refusal step checkpoint u hsaved hrollback
      rw [restored_of_rollback hprior hsaved hrollback, read_back_iff.mpr hplain]
    · intro w other hother hne hfile
      exact hne (key_of_file (from_value_ok hother).1 hkey hfile)

def tcp_rmem (value : String) : Value := json [("key", .string "net.ipv4.tcp_rmem"), ("value", .string value)]

/-- A parameter of three numbers that is written as it is printed. -/
theorem tabs_settle : Settles ⟨"net.ipv4.tcp_rmem", "4096\t87380\t6291456"⟩
    (fun _ => some (read_fields "4096\t131072\t6291456".toList)) (read_fields "4096\t131072\t6291456".toList) := by
  have hspec : SysctlSettingSpec.from_value (tcp_rmem "4096\t87380\t6291456") =
      .ok ⟨"net.ipv4.tcp_rmem", "4096\t87380\t6291456"⟩ := rfl
  have hcanonical : Canonical "4096\t87380\t6291456" := by
    unfold Canonical
    decide
  have htrimmed : Trimmed (read_fields "4096\t131072\t6291456".toList) := by
    rw [trimmed_iff]
    decide
  exact ((setting_settles_iff hspec rfl).mpr ⟨hcanonical, htrimmed⟩).1

/-- Written with blanks, as `sysctl` takes it, the setting differs from what is
observed after every write of it. -/
theorem blanks_do_not_settle :
    ¬ ∀ v spec parameter prior, SysctlSettingSpec.from_value v = .ok spec → parameter spec.proc_path = some prior →
      Settles spec parameter prior := by
  intro hall
  have hsettles := hall (tcp_rmem "4096 87380 6291456") ⟨"net.ipv4.tcp_rmem", "4096 87380 6291456"⟩
    (fun _ => some (read_fields "4096 87380 6291456".toList)) (read_fields "4096 87380 6291456".toList) rfl rfl
  have happly := @apply_accepted ⟨"net.ipv4.tcp_rmem", "4096 87380 6291456"⟩
    (fun _ => some (read_fields "4096 87380 6291456".toList)) _ rfl
  have htext := (noChange_iff (apply_ok rfl happly)).mp (hsettles.converges _ set_step _ _ happly)
  revert htext
  decide

end Settles

end iac_providers.sysctl
