import Iac.Controlplane.Expansion
import Iac.Core.Provider

open iac_core iac_controlplane.expansion serde_json

namespace iac_cli.validate_spec

def json_kind : Value → String
  | .null => "null"
  | .bool _ => "bool"
  | .number _ => "number"
  | .string _ => "string"
  | .array _ => "array"
  | .object _ => "object"

/-- The loop of `split_top_level_comma`, with the depth and the part read so far. -/
def split_from : Int → List Char → List Char → List (List Char)
  | _, part, [] => [part]
  | depth, part, c :: rest =>
    if c = '<' then split_from (depth + 1) (part ++ [c]) rest
    else if c = '>' then split_from (depth - 1) (part ++ [c]) rest
    else if c = ',' ∧ depth = 0 then part :: split_from depth [] rest
    else split_from depth (part ++ [c]) rest

def split_top_level_comma (s : List Char) : List (List Char) := split_from 0 [] s

/-- `strip_prefix` and `strip_suffix('>')`: the parameters of a declared type. -/
def parameters_of (constructor : String) (declared : List Char) : Option (List Char) :=
  (constructor.toList.isPrefixOf? declared).bind fun rest =>
    if rest.getLast? = some '>' then some rest.dropLast else none

/-- The kind that a declared type without parameters stands for, none for a type unknown to this build. -/
def plain_kind (declared : String) : Option String :=
  if declared ∈ ["string", "number", "bool", "array", "object"] then some declared
  else if declared = "boolean" then some "bool"
  else none

/-- `type_mismatch`, with fuel for the types inside the declared one. -/
def mismatch : Nat → List Char → Value → Option String
  | 0, _, _ => none
  | fuel + 1, declared, value =>
    match parameters_of "array<" declared with
    | some inner =>
      match value with
      | .array items => items.zipIdx.findSome? fun (item, i) =>
        (mismatch fuel (str.trim inner) item).map fun inner_msg => inner_msg ++ " at index " ++ toString i
      | value => some (json_kind value)
    | none =>
      match parameters_of "map<" declared with
      | some inside =>
        match value with
        | .object fields =>
          match split_top_level_comma inside with
          | [_, value_type] => fields.findSome? fun (key, val) =>
            (mismatch fuel (str.trim value_type) val).map fun inner_msg => inner_msg ++ " at key '" ++ key ++ "'"
          | _ => none
        | value => some (json_kind value)
      | none =>
        match plain_kind (String.ofList declared) with
        | some expected => if json_kind value = expected then none else some (json_kind value)
        | none => none

/-- A type inside the declared one is shorter, so the fuel is never used up. -/
def type_mismatch (declared : String) (value : Value) : Option String :=
  mismatch (declared.toList.length + 1) declared.toList value

def resource_spec_object (r : Resource) : Except String (List (String × Value)) :=
  match r.spec with
  | .object fields => .ok fields
  | _ => .error "spec must be an object"

def required_errors (r : Resource) (desc : ExpanderDescriptor) (spec_obj : List (String × Value)) : List String :=
  desc.spec_fields.filterMap fun field =>
    if field.required ∧ ((Value.object spec_obj).get field.name).isNone then
      some (r.id.to_string ++ ": spec." ++ field.name ++ " is required (" ++ field.description ++ ")")
    else none

def unknown_errors (r : Resource) (desc : ExpanderDescriptor) (spec_obj : List (String × Value)) : List String :=
  spec_obj.filterMap fun got =>
    if (desc.spec_fields.map SpecField.name).contains got.1 then none
    else some (r.id.to_string ++ ": spec." ++ got.1 ++ " is not a known field for kind=" ++ r.kind)

def type_errors (r : Resource) (desc : ExpanderDescriptor) (spec_obj : List (String × Value)) : List String :=
  desc.spec_fields.filterMap fun field =>
    ((Value.object spec_obj).get field.name).bind fun value =>
      (type_mismatch field.type value).map fun observed =>
        r.id.to_string ++ ": spec." ++ field.name ++ " expected " ++ field.type ++ ", got " ++ observed

/-- The body of the loop: the errors of one resource. -/
def validate_resource (descriptors : List ExpanderDescriptor) (r : Resource) : List String :=
  match descriptors.find? fun d => d.kind == r.kind with
  | none => []
  | some desc =>
    match resource_spec_object r with
    | .error e => [r.id.to_string ++ ": " ++ e]
    | .ok spec_obj => required_errors r desc spec_obj ++ unknown_errors r desc spec_obj ++ type_errors r desc spec_obj

/-- The check that `iac apply` makes before it submits, for specs that have a JSON form. -/
def validate_resources (resources : List Resource) (descriptors : List ExpanderDescriptor) : List String :=
  resources.flatMap (validate_resource descriptors)

section Checks

variable {r : Resource} {desc : ExpanderDescriptor} {spec_obj : List (String × Value)}

theorem required_errors_eq_nil_iff : required_errors r desc spec_obj = [] ↔
    ∀ field ∈ desc.spec_fields, field.required = true → ((Value.object spec_obj).get field.name).isSome = true := by
  rw [required_errors, List.filterMap_eq_nil_iff]
  refine forall₂_congr fun field _ => ?_
  cases field.required <;> cases (Value.object spec_obj).get field.name <;> simp

theorem unknown_errors_eq_nil_iff : unknown_errors r desc spec_obj = [] ↔
    all_known (desc.spec_fields.map SpecField.name) (.object spec_obj) = true := by
  rw [unknown_errors, List.filterMap_eq_nil_iff, all_known, List.all_eq_true]
  refine forall₂_congr fun got _ => ?_
  cases (desc.spec_fields.map SpecField.name).contains got.1
  · exact iff_of_false (Option.some_ne_none _) Bool.false_ne_true
  · exact iff_of_true rfl rfl

theorem type_errors_eq_nil_iff : type_errors r desc spec_obj = [] ↔
    ∀ field ∈ desc.spec_fields, ∀ value, (Value.object spec_obj).get field.name = some value →
      type_mismatch field.type value = none := by
  rw [type_errors, List.filterMap_eq_nil_iff]
  refine forall₂_congr fun field _ => ?_
  cases (Value.object spec_obj).get field.name with
  | none => simp
  | some value => cases type_mismatch field.type value <;> simp

end Checks

section Types

variable {x : Option Value}

/-- What stands at a field, if anything, is of the declared type. -/
def Fits (type : String) (x : Option Value) : Prop :=
  ∀ value, x = some value → type_mismatch type value = none

theorem type_mismatch_plain {declared : String} (kind : String) {value : Value}
    (harray : parameters_of "array<" declared.toList = none) (hmap : parameters_of "map<" declared.toList = none) (hplain : plain_kind declared = some kind) :
    type_mismatch declared value = none ↔ json_kind value = kind := by
  simp [type_mismatch, mismatch, harray, hmap, hplain]

theorem fits_string_iff : Fits "string" x ↔ ∀ value, x = some value → ∃ s, value = .string s := by
  refine forall₂_congr fun value _ => (type_mismatch_plain "string" (by decide) (by decide) (by decide)).trans ?_
  cases value <;> simp [json_kind]

theorem fits_number_iff : Fits "number" x ↔ ∀ value, x = some value → ∃ n, value = .number n := by
  refine forall₂_congr fun value _ => (type_mismatch_plain "number" (by decide) (by decide) (by decide)).trans ?_
  cases value <;> simp [json_kind]

theorem fits_object_iff : Fits "object" x ↔ ∀ value, x = some value → ∃ fields, value = .object fields := by
  refine forall₂_congr fun value _ => (type_mismatch_plain "object" (by decide) (by decide) (by decide)).trans ?_
  cases value <;> simp [json_kind]

theorem isSome_of_mapM {α β : Type} {f : α → Option β} {as : List α} (h : (as.mapM f).isSome = true) :
    ∀ a ∈ as, (f a).isSome = true := by
  induction as with
  | nil => simp
  | cons a as ih =>
    cases hf : f a <;> cases hrest : as.mapM f <;> simp_all

/-- An object that is read as a map of strings has only strings. -/
theorem fits_map (h : ∀ value, x = some value → (string_map value).isSome = true) : Fits "map<string,string>" x := by
  intro value hvalue
  have hmap := h value hvalue
  cases value with
  | object fields =>
    have harray : parameters_of "array<" "map<string,string>".toList = none := by decide
    have hinside : parameters_of "map<" "map<string,string>".toList = some "string,string".toList := by decide
    have hparts : split_top_level_comma "string,string".toList = ["string".toList, "string".toList] := by decide
    simp only [type_mismatch, mismatch, harray, hinside, hparts, List.findSome?_eq_none_iff, Option.map_eq_none_iff]
    intro field hfield
    have hstring := isSome_of_mapM hmap field hfield
    obtain ⟨key, value⟩ := field
    cases value with
    | string s => rfl
    | _ => cases hstring
  | _ => cases hmap

end Types

section Reading

variable {x : Option Value}

theorem required_string {s : String} (h : x.bind Value.as_str = some s) : x = some (.string s) := by
  obtain ⟨value, rfl, hvalue⟩ := Option.bind_eq_some_iff.mp h
  cases value with
  | string s' => rw [Option.some.inj hvalue]
  | _ => cases hvalue

theorem fits_required_string {s : String} (h : x.bind Value.as_str = some s) : Fits "string" x := by
  rw [fits_string_iff, required_string h]
  exact fun value hvalue => ⟨s, (Option.some.inj hvalue).symm⟩

theorem number_of_unsigned {value : Value} {bits n : Nat} (h : unsigned bits value = some n) : ∃ m, value = .number m := by
  cases value with
  | number m => exact ⟨m, rfl⟩
  | _ => cases h

theorem required_number {bits n : Nat} (h : x.bind (unsigned bits) = some n) : ∃ m, x = some (.number m) := by
  obtain ⟨value, rfl, hvalue⟩ := Option.bind_eq_some_iff.mp h
  obtain ⟨m, rfl⟩ := number_of_unsigned hvalue
  exact ⟨m, rfl⟩

theorem fits_required_number {bits n : Nat} (h : x.bind (unsigned bits) = some n) : Fits "number" x := by
  obtain ⟨m, rfl⟩ := required_number h
  exact fits_number_iff.mpr fun value hvalue => ⟨m, (Option.some.inj hvalue).symm⟩

theorem default_string {s default : String} (h : or_default Value.as_str default x = some s) : Fits "string" x := by
  rw [fits_string_iff]
  rintro value rfl
  exact ⟨s, Option.some.inj (required_string h)⟩

theorem default_number {bits n default : Nat} (h : or_default (unsigned bits) default x = some n) : Fits "number" x := by
  rw [fits_number_iff]
  rintro value rfl
  exact number_of_unsigned h

theorem default_map {env default : List (String × String)} (h : or_default string_map default x = some env) :
    Fits "map<string,string>" x := by
  refine fits_map ?_
  rintro value rfl
  exact Option.isSome_of_mem h

/-- An optional text may also be null, which is no string. -/
theorem optional_string {s : Option String} (h : or_default (optional Value.as_str) none x = some s) :
    Fits "string" x ↔ x ≠ some .null := by
  rw [fits_string_iff]
  cases x with
  | none => simp
  | some value =>
    cases value with
    | null => simp
    | string s' => simp
    | _ => cases h

theorem get_of_unknown {names : List String} {fields : List (String × Value)} {name : String}
    (h : all_known names (.object fields) = true) (hname : name ∉ names) : (Value.object fields).get name = none := by
  rw [Value.get, Option.map_eq_none_iff, List.find?_eq_none]
  intro field hfield hkey
  rw [all_known, List.all_eq_true] at h
  exact hname (eq_of_beq hkey ▸ List.contains_iff_mem.mp (h field hfield))

end Reading

section Builtin

variable {fields : List (String × Value)}

/-- What the check refuses although the server takes it: a spec that is no
object, a null for a path, and a host selector that is no object. -/
structure Plain (spec : Value) : Prop where
  object : ∃ fields, spec = .object fields
  path : ∀ key ∈ ["nginx_config_path", "scriptPath"], spec.get key ≠ some .null
  selector : ∀ value, spec.get "hostSelector" = some value → ∃ fields, value = .object fields

/-- What reading a spec says about the checks of its descriptor. -/
structure Checked (desc : ExpanderDescriptor) (fields : List (String × Value)) : Prop where
  required : ∀ field ∈ desc.spec_fields, field.required = true → ((Value.object fields).get field.name).isSome = true
  known : all_known (desc.spec_fields.map SpecField.name) (.object fields) = true
  fits : (∀ field ∈ desc.spec_fields, Fits field.type ((Value.object fields).get field.name)) ↔ Plain (.object fields)

theorem plain_object_iff : Plain (.object fields) ↔ (Value.object fields).get "nginx_config_path" ≠ some .null ∧
    (Value.object fields).get "scriptPath" ≠ some .null ∧ Fits "object" ((Value.object fields).get "hostSelector") := by
  rw [fits_object_iff]
  constructor
  · rintro ⟨-, hpath, hselector⟩
    exact ⟨hpath _ (by simp), hpath _ (by simp), hselector⟩
  · rintro ⟨hnginx, hscript, hselector⟩
    exact ⟨⟨fields, rfl⟩, by simp [hnginx, hscript], hselector⟩

theorem service_checked {spec : ServiceSpec} (h : ServiceSpec.read (.object fields) = some spec) :
    Checked service_expander fields := by
  rw [ServiceSpec.read] at h
  split_ifs at h with hknown
  obtain ⟨image, himage, h⟩ := Option.bind_eq_some_iff.mp h
  obtain ⟨port, hport, h⟩ := Option.bind_eq_some_iff.mp h
  obtain ⟨domain, hdomain, h⟩ := Option.bind_eq_some_iff.mp h
  obtain ⟨internal_port, hinternal, h⟩ := Option.bind_eq_some_iff.mp h
  obtain ⟨env, henv, h⟩ := Option.bind_eq_some_iff.mp h
  obtain ⟨restart_policy, hrestart, h⟩ := Option.bind_eq_some_iff.mp h
  obtain ⟨path, hpath, -⟩ := Option.bind_eq_some_iff.mp h
  have himage' : (Value.object fields).get "image" = some (.string image) := required_string himage
  obtain ⟨n, hport'⟩ : ∃ n, (Value.object fields).get "port" = some (.number n) := required_number hport
  have hdomain' : (Value.object fields).get "domain" = some (.string domain) := required_string hdomain
  have hscript : (Value.object fields).get "scriptPath" = none := get_of_unknown hknown (by decide)
  refine ⟨?_, hknown, ?_⟩
  · simp [service_expander, f_req, f_opt, himage', hport', hdomain']
  · simp only [service_expander, f_req, f_opt, List.forall_mem_cons, List.not_mem_nil, false_imp_iff, implies_true, and_true]
    rw [plain_object_iff, hscript]
    constructor
    · rintro ⟨-, -, -, -, -, -, hnginx, hselector⟩
      exact ⟨(optional_string hpath).mp hnginx, nofun, hselector⟩
    · rintro ⟨hnginx, -, hselector⟩
      exact ⟨fits_required_string himage, fits_required_number hport, fits_required_string hdomain,
        default_number hinternal, default_map henv, default_string hrestart, (optional_string hpath).mpr hnginx, hselector⟩

theorem cron_job_bundle_checked {spec : CronJobBundleSpec} (h : CronJobBundleSpec.read (.object fields) = some spec) :
    Checked cron_job_bundle_expander fields := by
  rw [CronJobBundleSpec.read] at h
  split_ifs at h with hknown
  obtain ⟨schedule, hschedule, h⟩ := Option.bind_eq_some_iff.mp h
  obtain ⟨script, hscript, h⟩ := Option.bind_eq_some_iff.mp h
  obtain ⟨path, hpath, h⟩ := Option.bind_eq_some_iff.mp h
  obtain ⟨user, huser, h⟩ := Option.bind_eq_some_iff.mp h
  obtain ⟨mode, hmode, h⟩ := Option.bind_eq_some_iff.mp h
  obtain ⟨env, henv, -⟩ := Option.bind_eq_some_iff.mp h
  have hschedule' : (Value.object fields).get "schedule" = some (.string schedule) := required_string hschedule
  have hscript' : (Value.object fields).get "script" = some (.string script) := required_string hscript
  have hnginx : (Value.object fields).get "nginx_config_path" = none := get_of_unknown hknown (by decide)
  refine ⟨?_, hknown, ?_⟩
  · simp [cron_job_bundle_expander, f_req, f_opt, hschedule', hscript']
  · simp only [cron_job_bundle_expander, f_req, f_opt, List.forall_mem_cons, List.not_mem_nil, false_imp_iff, implies_true,
      and_true]
    rw [plain_object_iff, hnginx]
    constructor
    · rintro ⟨-, -, hbody, -, -, -, hselector⟩
      exact ⟨nofun, (optional_string hpath).mp hbody, hselector⟩
    · rintro ⟨-, hbody, hselector⟩
      exact ⟨fits_required_string hschedule, fits_required_string hscript, (optional_string hpath).mpr hbody,
        default_string huser, default_string hmode, default_map henv, hselector⟩

theorem web_with_monitoring_checked {spec : WebWithMonitoringSpec} (h : WebWithMonitoringSpec.read (.object fields) = some spec) :
    Checked web_with_monitoring_expander fields := by
  rw [WebWithMonitoringSpec.read] at h
  split_ifs at h with hknown
  obtain ⟨image, himage, h⟩ := Option.bind_eq_some_iff.mp h
  obtain ⟨port, hport, h⟩ := Option.bind_eq_some_iff.mp h
  obtain ⟨domain, hdomain, h⟩ := Option.bind_eq_some_iff.mp h
  obtain ⟨health_path, hhealth, h⟩ := Option.bind_eq_some_iff.mp h
  obtain ⟨interval, hinterval, h⟩ := Option.bind_eq_some_iff.mp h
  obtain ⟨internal_port, hinternal, h⟩ := Option.bind_eq_some_iff.mp h
  obtain ⟨env, henv, h⟩ := Option.bind_eq_some_iff.mp h
  obtain ⟨restart_policy, hrestart, -⟩ := Option.bind_eq_some_iff.mp h
  have himage' : (Value.object fields).get "image" = some (.string image) := required_string himage
  obtain ⟨n, hport'⟩ : ∃ n, (Value.object fields).get "port" = some (.number n) := required_number hport
  have hdomain' : (Value.object fields).get "domain" = some (.string domain) := required_string hdomain
  have hnginx : (Value.object fields).get "nginx_config_path" = none := get_of_unknown hknown (by decide)
  have hscript : (Value.object fields).get "scriptPath" = none := get_of_unknown hknown (by decide)
  refine ⟨?_, hknown, ?_⟩
  · simp [web_with_monitoring_expander, f_req, f_opt, himage', hport', hdomain']
  · simp only [web_with_monitoring_expander, f_req, f_opt, List.forall_mem_cons, List.not_mem_nil, false_imp_iff,
      implies_true, and_true]
    rw [plain_object_iff, hnginx, hscript]
    constructor
    · rintro ⟨-, -, -, -, -, -, -, -, hselector⟩
      exact ⟨nofun, nofun, hselector⟩
    · rintro ⟨-, -, hselector⟩
      exact ⟨fits_required_string himage, fits_required_number hport, fits_required_string hdomain, default_string hhealth,
        default_number hinterval, default_number hinternal, default_map henv, default_string hrestart, hselector⟩

end Builtin

section Catalogue

variable {crates : ExpansionCrates} {modules : List iac_controlplane.modules.Module}

theorem read_of_composite {α : Type} {kind : String} {read : Value → Option α} {raw value : Value} {spec : α}
    (hvalue : raw.get "spec" = some value) (h : composite_spec crates kind read raw = .ok spec) : read value = some spec := by
  rw [composite_spec, hvalue] at h
  obtain ⟨value', hvalue', hread⟩ := fallible.bind_eq_ok_iff.mp h
  obtain rfl := Except.ok.inj hvalue'
  cases hspec : read value with
  | none => rw [hspec] at hread; cases hread
  | some spec' =>
    rw [hspec] at hread
    exact congrArg some (Except.ok.inj hread)

theorem checked_of_expanded {d : ExpanderDescriptor} {raw : Value} {children : List Value} {fields : List (String × Value)}
    (hd : d ∈ list_expanders) (hkind : kind_of raw = some d.kind) (hspec : raw.get "spec" = some (.object fields))
    (h : expand_one crates modules raw = .ok (some children)) : Checked d fields := by
  rw [expand_one, hkind] at h
  simp only [list_expanders, List.mem_cons, List.not_mem_nil, or_false] at hd
  obtain rfl | rfl | rfl := hd
  · have hservice : expand_service crates raw = .ok children := ok_of_map_some h
    obtain ⟨metadata, -, hrest⟩ := fallible.bind_eq_ok_iff.mp hservice
    obtain ⟨spec, hread, -⟩ := fallible.bind_eq_ok_iff.mp hrest
    exact service_checked (read_of_composite hspec hread)
  · have hbundle : expand_cron_job_bundle crates raw = .ok children := ok_of_map_some h
    obtain ⟨metadata, -, hrest⟩ := fallible.bind_eq_ok_iff.mp hbundle
    obtain ⟨spec, hread, -⟩ := fallible.bind_eq_ok_iff.mp hrest
    exact cron_job_bundle_checked (read_of_composite hspec hread)
  · have hweb : expand_web_with_monitoring crates raw = .ok children := ok_of_map_some h
    obtain ⟨metadata, -, hrest⟩ := fallible.bind_eq_ok_iff.mp hweb
    obtain ⟨spec, hread, -⟩ := fallible.bind_eq_ok_iff.mp hrest
    exact web_with_monitoring_checked (read_of_composite hspec hread)

/-- The server expands the resource, submitted with its kind and its spec, as a built-in composite. -/
def Composes (crates : ExpansionCrates) (modules : List iac_controlplane.modules.Module) (r : Resource) : Prop :=
  ∃ raw children, kind_of raw = some r.kind ∧ raw.get "spec" = some r.spec ∧
    expand_one crates modules raw = .ok (some children)

theorem validate_composite {r : Resource} {d : ExpanderDescriptor} {descriptors : List ExpanderDescriptor}
    (hd : d ∈ list_expanders) (hfind : descriptors.find? (fun d => d.kind == r.kind) = some d)
    (hr : Composes crates modules r) : validate_resource descriptors r = [] ↔ Plain r.spec := by
  have hkind : d.kind = r.kind := by simpa using List.find?_some hfind
  obtain ⟨raw, children, hraw, hspec, hexpand⟩ := hr
  rw [validate_resource, hfind]
  cases hvalue : r.spec with
  | object fields =>
    have hchecked := checked_of_expanded hd (hkind ▸ hraw) (hspec.trans (congrArg some hvalue)) hexpand
    simp only [resource_spec_object, hvalue, List.append_eq_nil_iff]
    rw [required_errors_eq_nil_iff, unknown_errors_eq_nil_iff, type_errors_eq_nil_iff, ← hchecked.fits]
    exact ⟨fun h => h.2, fun h => ⟨⟨hchecked.required, hchecked.known⟩, h⟩⟩
  | _ =>
    simp only [resource_spec_object, hvalue]
    refine iff_of_false (List.cons_ne_nil _ _) fun h => ?_
    obtain ⟨fields, hfields⟩ := h.object
    cases hfields

/-- The check before a submission, against the catalogue of the server and of
any modules, refuses of the built-in composites that the server takes exactly
those whose spec is not an object, has a null for a path or a host selector that
is no object. -/
theorem composites_pass_validation {resources : List Resource} {descriptors : List ExpanderDescriptor}
    (h : ∀ r ∈ resources, (∃ d ∈ list_expanders, d.kind = r.kind) ∧ Composes crates modules r) :
    validate_resources resources (list_expanders ++ descriptors) = [] ↔ ∀ r ∈ resources, Plain r.spec := by
  rw [validate_resources, List.flatMap_eq_nil_iff]
  refine forall₂_congr fun r hr => ?_
  obtain ⟨⟨d, hd, hkind⟩, hcomposes⟩ := h r hr
  cases hfind : list_expanders.find? fun d => d.kind == r.kind with
  | none => exact absurd (List.find?_eq_none.mp hfind d hd) (by simp [hkind])
  | some found =>
    have happend : (list_expanders ++ descriptors).find? (fun d => d.kind == r.kind) = some found := by
      rw [List.find?_append, hfind, Option.some_or]
    exact validate_composite (List.mem_of_find?_eq_some hfind) happend hcomposes

def shop_resource : Resource where
  api_version := "iac.example/v1"
  kind := "service"
  name := "shop"
  environment := "prod"
  annotations := []
  spec := json [("image", .string "nginx:1.27-alpine"), ("port", of_nat 8080), ("domain", .string "shop.example.com"),
    ("hostSelector", json [("name", .string "web-1")])]

theorem shop_resource_passes :
    validate_resources [shop_resource] (list_expanders ++ []) = [] ↔ ∀ r ∈ [shop_resource], Plain r.spec := by
  have hcomposes : Composes expansion_crates [] shop_resource := ⟨shop_service, _, rfl, rfl, rfl⟩
  refine @composites_pass_validation expansion_crates [] _ _ fun r hr => ?_
  obtain rfl := List.mem_singleton.mp hr
  exact ⟨⟨service_expander, List.mem_cons_self, rfl⟩, hcomposes⟩

end Catalogue

end iac_cli.validate_spec
