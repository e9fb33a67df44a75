import Iac.Collections.Fallible
import Iac.Collections.Paths
import Iac.Core.Executor
import Iac.Core.Protocol
import Iac.Core.Text

open iac_core iac_core.protocol serde_json

namespace iac_providers.cron

inductive CronState where
  | Present
  | Absent
  deriving DecidableEq, Repr

structure CronJobSpec where
  name : String
  state : CronState := .Present
  schedule : Option String := none
  command : Option String := none
  user : String := "root"
  env : List (String × String) := []
  cron_dir : Option String := none

/-- The characters of names of files and users. -/
def is_name_char (c : Char) : Bool := c.isAlphanum || c == '_' || c == '-' || c == '.'

def validate_name (name : String) : Except String Unit :=
  if name.toList.isEmpty then .error "must not be empty"
  else if !name.toList.all is_name_char then
    .error ("must match [a-zA-Z0-9._-]+, got " ++ str.debug name ++ " (run-parts would skip it)")
  else if name == "." || name == ".." || name.toList.contains '/' then
    .error "must not be '.', '..', or contain '/'"
  else .ok ()

def validate_user (user : String) : Except String Unit :=
  if user.toList.isEmpty then .error "must not be empty"
  else if !user.toList.all is_name_char then .error ("must match [a-zA-Z0-9._-]+, got " ++ str.debug user)
  else .ok ()

def validate_env_key (key : String) : Except String Unit :=
  match key.toList with
  | [] => .error "must not be empty"
  | first :: _ =>
    if !(first.isAlpha || first == '_') then .error "must start with [A-Za-z_]"
    else if !key.toList.all fun c => c.isAlphanum || c == '_' then .error "must match [A-Za-z_][A-Za-z0-9_]*"
    else .ok ()

/-- `str::split_whitespace`. -/
def split_whitespace (text : List Char) : List (List Char) :=
  (text.splitOnP str.is_whitespace).filter fun field => field ≠ []

def shorthands : List String :=
  ["yearly", "annually", "monthly", "weekly", "daily", "midnight", "hourly", "reboot"]

def is_field_char (c : Char) : Bool := c.isAlphanum || c == '*' || c == ',' || c == '-' || c == '/'

def validate_shorthand (rest : List Char) : Except String Unit :=
  let tag := String.ofList ((split_whitespace rest).headD [])
  if !shorthands.contains tag then
    .error ("@-shorthand must be one of [" ++ ", ".intercalate (shorthands.map str.debug) ++ "]")
  else if (split_whitespace rest).length ≠ 1 then .error "@-shorthand must be standalone"
  else .ok ()

def validate_field (field : List Char) : Except String Unit :=
  if !field.all is_field_char then
    .error ("field " ++ str.debug (String.ofList field) ++ " contains disallowed characters")
  else .ok ()

def validate_schedule (schedule : String) : Except String Unit :=
  match str.trim schedule.toList with
  | [] => .error "must not be empty"
  | '@' :: rest => validate_shorthand rest
  | trimmed =>
    let fields := split_whitespace trimmed
    if fields.length ≠ 5 then .error ("expected 5 fields, got " ++ toString fields.length)
    else fields.forM validate_field

/-- An error under the name of what it is about. -/
def named (what : String) : Except String Unit → Except String Unit
  | .ok () => .ok ()
  | .error e => .error (what ++ ": " ++ e)

def validate_env (entry : String × String) : Except String Unit := do
  named ("env key " ++ str.debug entry.1) (validate_env_key entry.1)
  if entry.2.toList.contains '\n' then .error ("env " ++ str.debug entry.1 ++ ": value must not contain newline")
  else .ok ()

def validate_cron_dir : Option String → Except String Unit
  | none => .ok ()
  | some dir =>
    if path.is_absolute dir.toList then .ok () else .error ("cron_dir must be absolute, got " ++ dir)

def validate_command (command : String) : Except String Unit :=
  if command.toList.contains '\n' then .error "command must be a single line (no newline)"
  else if (str.trim command.toList).isEmpty then .error "command must not be empty"
  else .ok ()

def CronJobSpec.validate_job (spec : CronJobSpec) : Except String Unit :=
  match spec.state with
  | .Absent =>
    if spec.schedule.isSome || spec.command.isSome || !spec.env.isEmpty then
      .error "state=absent forbids schedule/command/env"
    else .ok ()
  | .Present =>
    match spec.schedule, spec.command with
    | none, _ => .error "schedule is required when state=present"
    | some schedule, command => do
      named ("schedule " ++ str.debug schedule) (validate_schedule schedule)
      match command with
      | none => .error "command is required when state=present"
      | some command => validate_command command

def CronJobSpec.validate (spec : CronJobSpec) : Except String Unit := do
  named "name" (validate_name spec.name)
  named "user" (validate_user spec.user)
  validate_cron_dir spec.cron_dir
  spec.env.forM validate_env
  spec.validate_job

def read_state (v : Value) : Except String CronState := state_field .Present .Absent v

def read_user (v : Value) : Except String String :=
  match v.get "user" with
  | none => .ok "root"
  | some (.string user) => .ok user
  | some _ => .error "invalid type for user, expected a string"

def read_env (v : Value) : Except String (List (String × String)) :=
  match text_map (v.get "env") with
  | some env => .ok env
  | none => .error "invalid type for env, expected a map of strings"

def fields : List String := ["name", "state", "schedule", "command", "user", "env", "cron_dir"]

/-- Unknown fields are refused. -/
def CronJobSpec.from_value (v : Value) : Except String CronJobSpec :=
  match v with
  | .object entries =>
    if entries.any fun f => !fields.contains f.1 then .error "unknown field"
    else do
      let name ← string_field v "name"
      let state ← read_state v
      let schedule ← option_field v "schedule"
      let command ← option_field v "command"
      let user ← read_user v
      let env ← read_env v
      let cron_dir ← option_field v "cron_dir"
      let spec : CronJobSpec := { name, state, schedule, command, user, env, cron_dir }
      spec.validate
      return spec
  | _ => .error "invalid type, expected struct CronJobSpec"

/-- The file of the job: `<cron_dir>/<name>`. -/
def CronJobSpec.config_path (spec : CronJobSpec) : List Char :=
  path.join (spec.cron_dir.getD "/etc/cron.d").toList spec.name.toList

def parse_spec (resource : Resource) : Except executor.Error CronJobSpec :=
  match CronJobSpec.from_value resource.spec with
  | .ok spec => .ok spec
  | .error e => .error (.Validation resource.id.to_string ("invalid cron.job spec: " ++ e))

def capability_keys (resource : Resource) : Except executor.Error (List String) := do
  let spec ← parse_spec resource
  return [spec.name]

theorem named_ok_iff {what : String} {result : Except String Unit} : named what result = .ok () ↔ result = .ok () := by
  cases result <;> simp [named]

theorem validate_name_plain {name : String} (h : validate_name name = .ok ()) : path.Plain name.toList := by
  rw [validate_name] at h
  split_ifs at h with hempty hchars hspecial
  simp only [Bool.or_eq_true, not_or, beq_iff_eq] at hspecial
  obtain ⟨⟨hdot, hdotdot⟩, hslash⟩ := hspecial
  refine ⟨by simpa using hempty, fun heq => hdot ?_, fun heq => hdotdot ?_, by simpa using hslash⟩
  · exact String.ext heq
  · exact String.ext heq

/-- An accepted job has a plain file name and an absolute directory. -/
theorem CronJobSpec.validate_ok {spec : CronJobSpec} (h : spec.validate = .ok ()) :
    path.Plain spec.name.toList ∧ ∀ dir, spec.cron_dir = some dir → path.is_absolute dir.toList = true := by
  simp only [validate, fallible.bind_eq_ok_iff] at h
  obtain ⟨⟨⟩, hname, ⟨⟩, -, ⟨⟩, hdir, -⟩ := h
  refine ⟨validate_name_plain (named_ok_iff.mp hname), fun dir hsome => ?_⟩
  rw [hsome, validate_cron_dir] at hdir
  split_ifs at hdir with habsolute
  exact habsolute

theorem CronJobSpec.from_value_ok {v : Value} {spec : CronJobSpec} (h : from_value v = .ok spec) :
    spec.validate = .ok () := by
  rw [from_value.eq_def] at h
  split at h
  · split_ifs at h
    simp only [fallible.bind_eq_ok_iff] at h
    obtain ⟨name, -, state, -, schedule, -, command, -, user, -, env, -, cron_dir, -, ⟨⟩, hvalid, heq⟩ := h
    obtain rfl := Except.ok.inj heq
    exact hvalid
  · cases h

end iac_providers.cron
