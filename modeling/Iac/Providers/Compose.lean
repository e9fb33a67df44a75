import Iac.Collections.Paths
import Iac.Core.Protocol
import Iac.Core.Sha256
import Iac.Core.Text
import Iac.Providers.Lifecycle
import Mathlib.Logic.Function.Basic

open effect iac_core iac_core.executor iac_core.protocol serde_json

namespace iac_providers.compose

inductive ComposeState where
  | Present
  | Absent
  deriving DecidableEq, Repr

structure DockerComposeSpec where
  project : String
  state : ComposeState := .Present
  source : Option String := none
  env_file : Option String := none
  workdir : Option String := none

def valid_project_char (c : Char) : Bool := c.isLower || c.isDigit || c == '_' || c == '-'

def check_absolute (field : String) : Option String → Except String Unit
  | none => .ok ()
  | some p => if path.is_absolute p.toList then .ok () else .error (field ++ " " ++ p ++ " must be absolute")

def DockerComposeSpec.validate (spec : DockerComposeSpec) : Except String Unit := do
  if spec.project.toList.isEmpty then .error "project must not be empty"
  else if !spec.project.toList.all valid_project_char then
    .error ("project " ++ str.debug spec.project ++ ": only lowercase ASCII letters, digits, '_' and '-' allowed")
  else if spec.state = .Present ∧ str.trim (spec.source.getD "").toList = [] then
    .error "source must be a non-empty compose YAML when state=present"
  check_absolute "env_file" spec.env_file
  check_absolute "workdir" spec.workdir

def read_state (v : Value) : Except String ComposeState := state_field .Present .Absent v

def fields : List String := ["project", "state", "source", "env_file", "workdir"]

/-- Unknown fields are refused. -/
def DockerComposeSpec.from_value (v : Value) : Except String DockerComposeSpec :=
  match v with
  | .object entries =>
    if entries.any fun f => !fields.contains f.1 then .error "unknown field"
    else do
      let project ← string_field v "project"
      let state ← read_state v
      let source ← option_field v "source"
      let env_file ← option_field v "env_file"
      let workdir ← option_field v "workdir"
      let spec : DockerComposeSpec := { project, state, source, env_file, workdir }
      spec.validate
      return spec
  | _ => .error "invalid type, expected struct DockerComposeSpec"

theorem DockerComposeSpec.from_value_ok {v : Value} {spec : DockerComposeSpec} (h : from_value v = .ok spec) :
    spec.validate = .ok () := by
  rw [from_value.eq_def] at h
  split at h
  · split_ifs at h
    simp only [fallible.bind_eq_ok_iff] at h
    obtain ⟨project, -, state, -, source, -, env_file, -, workdir, -, ⟨⟩, hvalid, heq⟩ := h
    obtain rfl := Except.ok.inj heq
    exact hvalid
  · cases h

/-- `<workdir>/<project>`. -/
def DockerComposeSpec.project_dir (spec : DockerComposeSpec) : List Char :=
  path.join (spec.workdir.getD "/var/lib/iac/compose").toList spec.project.toList

def compose_yml : List Char := "docker-compose.yml".toList

def DockerComposeSpec.compose_file (spec : DockerComposeSpec) : List Char := path.join spec.project_dir compose_yml

/-- The bytes of the source. -/
def DockerComposeSpec.content (spec : DockerComposeSpec) : ByteArray := (spec.source.getD "").toByteArray

inductive ComposeAction where
  | Up
  | Down

def ComposeAction.as_str : ComposeAction → String
  | .Up => "compose-up"
  | .Down => "compose-down"

def ComposeAction.parse : String → Except Error ComposeAction
  | "compose-up" => .ok .Up
  | "compose-down" => .ok .Down
  | other => .error (.Provider "ComposeAction" ("unknown step action " ++ str.debug other))

structure ComposeService where
  name : String
  state : String
  status : String
  image : String

structure ComposeBackend (Host : Type) where
  list_services : String → Host → Except Error (List ComposeService)
  up : String → List Char → Option String → Prog Host Error Unit
  down : String → Option (List Char) → Prog Host Error Unit

/-- The calls of `std::fs`, with the texts of their errors. -/
structure FileSystem (Host : Type) where
  read : List Char → Host → Option ByteArray
  create_dir_all : List Char → Prog Host String Unit
  write : List Char → ByteArray → Prog Host String Unit
  remove_dir_all : List Char → Prog Host String Unit

section Operations

variable {Host : Type} (sha256_hex : List UInt8 → String) (backend : ComposeBackend Host) (fs : FileSystem Host)

def provider_error (message : String) : Error := .Provider "docker.compose" message

def read_sha256_of_file (file : List Char) (host : Host) : Option String :=
  (fs.read file host).map fun bytes => sha256_hex bytes.data.toList

def DockerComposeSpec.source_sha256 (spec : DockerComposeSpec) : String := sha256_hex spec.content.data.toList

def services_to_yaml (services : List ComposeService) : Value :=
  .array (services.map fun s => json [("name", .string s.name), ("state", .string s.state), ("image", .string s.image)])

def running_count (services : List ComposeService) : Nat := (services.filter fun s => s.state == "running").length

def observe (spec : DockerComposeSpec) (host : Host) : Except Error ObservedState := do
  let services ← backend.list_services spec.project host
  let on_disk_sha := read_sha256_of_file sha256_hex fs spec.compose_file host
  return {
    present := !services.isEmpty
    spec := services_to_yaml services
    facts := [("service_count", of_nat services.length), ("on_disk_sha256", of_option on_disk_sha),
      ("running_count", of_nat (running_count services))] }

def diff (spec : DockerComposeSpec) (observed : ObservedState) : Diff :=
  let observed_sha := (observed.facts.lookup "on_disk_sha256").bind Value.as_str
  let desired_sha := spec.source_sha256 sha256_hex
  match spec.state with
  | .Absent =>
    if !observed.present then .no_change
    else
      { kind := .Update, changes := [⟨"state", some (.string "present"), some (.string "absent"), false⟩]
        reasons := ["tear down compose project " ++ spec.project], reversible := false }
  | .Present =>
    if !observed.present then
      { kind := .Create, changes := [⟨"state", some (.string "absent"), some (.string "present"), false⟩]
        reasons := ["bring up compose project " ++ spec.project], reversible := true }
    else if observed_sha ≠ some desired_sha then
      { kind := .Update, changes := [⟨"source_sha256", observed_sha.map .string, some (.string desired_sha), false⟩]
        reasons := ["compose source changed for project " ++ spec.project ++ "; recreating"], reversible := true }
    else .no_change

def plan (id : Ulid) (spec : DockerComposeSpec) (diff : Diff) : List Step :=
  if !diff.is_change then []
  else
    let action := match spec.state with
      | .Present => ComposeAction.Up
      | .Absent => ComposeAction.Down
    [Step.new id action.as_str (action.as_str ++ " project=" ++ spec.project) .null]

def checkpoint (services : List ComposeService) (on_disk_sha prior_source : Option String) : Value :=
  json [("service_count", of_nat services.length), ("running_count", of_nat (running_count services)),
    ("on_disk_sha256", of_option on_disk_sha), ("prior_source", of_option prior_source)]

/-- `std::fs::read_to_string`. -/
def read_to_string (file : List Char) (host : Host) : Option String := (fs.read file host).bind String.fromUTF8?

def pre_apply (spec : DockerComposeSpec) (host : Host) : Except Error Value := do
  let services ← backend.list_services spec.project host
  return checkpoint services (read_sha256_of_file sha256_hex fs spec.compose_file host)
    (read_to_string fs spec.compose_file host)

/-- The source is written to the compose file, and the project brought up. -/
def materialise (what : String) (spec : DockerComposeSpec) (source : String) : Prog Host Error Unit := do
  map_error (fun e => provider_error (what ++ "create_dir_all " ++ String.ofList spec.project_dir ++ ": " ++ e))
    (fs.create_dir_all spec.project_dir)
  map_error (fun e => provider_error (what ++ "write " ++ String.ofList spec.compose_file ++ ": " ++ e))
    (fs.write spec.compose_file source.toByteArray)
  backend.up spec.project spec.compose_file spec.env_file

/-- The project is brought down, and its directory removed. Whether that fails is not looked at. -/
def tear_down (spec : DockerComposeSpec) (file_arg : Option (List Char)) : Prog Host Error Unit := do
  backend.down spec.project file_arg
  let _ ← attempt (map_error provider_error (fs.remove_dir_all spec.project_dir))

/-- The directory is made before the source is looked at. -/
def apply_up (spec : DockerComposeSpec) : Prog Host Error Unit :=
  match spec.source with
  | some source => materialise backend fs "" spec source
  | none => do
    map_error (fun e => provider_error ("create_dir_all " ++ String.ofList spec.project_dir ++ ": " ++ e))
      (fs.create_dir_all spec.project_dir)
    throw (provider_error "compose-up requires source")

def apply (spec : DockerComposeSpec) (step : Step) : Prog Host Error StepResult := do
  match ComposeAction.parse step.action with
  | .error e => throw e
  | .ok .Up =>
    apply_up backend fs spec
    return .ok ("compose-up project=" ++ spec.project)
  | .ok .Down =>
    let host ← get
    tear_down backend fs spec (if (fs.read spec.compose_file host).isSome then some spec.compose_file else none)
    return .ok ("compose-down project=" ++ spec.project)

def rollback (spec : DockerComposeSpec) (checkpoint : Value) : Prog Host Error Unit :=
  match (checkpoint.get "prior_source").bind Value.as_str with
  | some src => if src ≠ "" then materialise backend fs "rollback " spec src else tear_down backend fs spec none
  | none => tear_down backend fs spec none

def ops : Ops Host DockerComposeSpec where
  observe := observe sha256_hex backend fs
  diff spec observed := .ok (diff sha256_hex spec observed)
  plan := plan
  pre_apply := pre_apply sha256_hex backend fs
  apply spec step _ := apply backend fs spec step
  rollback := rollback backend fs

/-- The provider of kind `docker.compose`. -/
def provider (id : Ulid) : executor.Provider Host :=
  (ops sha256_hex backend fs).provider "docker.compose" DockerComposeSpec.from_value id fun _ => .null

end Operations

/-- Whether the services of a project are up: none of those that docker lists, some, or all. -/
inductive Standing where
  | down
  | partly
  | up
  deriving DecidableEq

def ComposeService.running (s : ComposeService) : Bool := s.state == "running"

def standing (services : List ComposeService) : Standing :=
  if !services.any ComposeService.running then .down
  else if services.all ComposeService.running then .up
  else .partly

/-- A host with docker and a file system: the services of each project, what
the commands have done when they succeed, and what they leave alone. -/
structure Docker (Host : Type) extends ComposeBackend Host, FileSystem Host where
  services : Host → String → List ComposeService
  list_ok : ∀ {project h l}, list_services project h = .ok l → l = services h project
  up_ok : ∀ {project file env h h'}, perform (up project file env) h = (.ok (), h') → standing (services h' project) = .up
  up_reads : ∀ {project file env} h f, read f (perform (up project file env) h).2 = read f h
  down_ok : ∀ {project file h h'}, perform (down project file) h = (.ok (), h') → services h' project = []
  down_reads : ∀ {project file} h f, read f (perform (down project file) h).2 = read f h
  create_services : ∀ {dir} h project, services (perform (create_dir_all dir) h).2 project = services h project
  create_reads : ∀ {dir} h f, read f (perform (create_dir_all dir) h).2 = read f h
  write_services : ∀ {file bytes} h project, services (perform (write file bytes) h).2 project = services h project
  write_reads : ∀ {file bytes} h f, path.resolve f ≠ path.resolve file →
    read f (perform (write file bytes) h).2 = read f h
  write_ok : ∀ {file bytes h h'}, perform (write file bytes) h = (.ok (), h') → read file h' = some bytes
  remove_services : ∀ {dir} h project, services (perform (remove_dir_all dir) h).2 project = services h project
  remove_reads : ∀ {dir} h f, read f (perform (remove_dir_all dir) h).2 = none ∨
    read f (perform (remove_dir_all dir) h).2 = read f h
  read_resolves : ∀ {f g} h, path.resolve f = path.resolve g → read f h = read g h

/-- A project as its compose file and whether its services are up. -/
structure Project where
  file : Option ByteArray
  standing : Standing

variable {Host : Type}

def Docker.project (docker : Docker Host) (spec : DockerComposeSpec) (h : Host) : Project :=
  ⟨docker.read spec.compose_file h, standing (docker.services h spec.project)⟩

/-- What a down and a removal of the directory, which may fail, leave of the compose file. -/
def Docker.leavings (docker : Docker Host) (spec : DockerComposeSpec) (h : Host) : Option ByteArray :=
  docker.read spec.compose_file
    (perform (docker.remove_dir_all spec.project_dir) (perform (docker.down spec.project none) h).2).2

/-- The text of a compose file, if there is any. -/
def text_of (file : Option ByteArray) : Option String := (file.bind String.fromUTF8?).filter fun text => text ≠ ""

/-- The file is text and all services are up; or it is not, no service is up and
the removal leaves of it what there was. -/
def Project.Restorable (p : Project) (leavings : Option ByteArray) : Prop :=
  match text_of p.file with
  | some _ => p.standing = .up
  | none => p.standing = .down ∧ leavings = p.file

section Restores

variable {docker : Docker Host} {sha256_hex : List UInt8 → String} {spec : DockerComposeSpec} {s t u : Host}

theorem project_eq_iff {p : Project} : docker.project spec s = p ↔
    docker.read spec.compose_file s = p.file ∧ standing (docker.services s spec.project) = p.standing := by
  cases p
  simp [Docker.project]

theorem materialise_ok {what source : String}
    (h : perform (materialise docker.toComposeBackend docker.toFileSystem what spec source) t = (.ok (), u)) :
    docker.project spec u = ⟨some source.toByteArray, .up⟩ := by
  rw [materialise, perform_bind_eq_ok_iff] at h
  obtain ⟨⟨⟩, created, -, h⟩ := h
  obtain ⟨⟨⟩, written, hwrite, hup⟩ := perform_bind_eq_ok_iff.mp h
  have hcontent := docker.write_ok (perform_map_error_eq_ok_iff.mp hwrite)
  have hkept : docker.read spec.compose_file (perform (docker.up spec.project spec.compose_file spec.env_file) written).2 =
      docker.read spec.compose_file written := docker.up_reads written spec.compose_file
  rw [hup, hcontent] at hkept
  exact project_eq_iff.mpr ⟨hkept, docker.up_ok hup⟩

/-- The state after the directory is removed, or not. -/
theorem tear_down_ok {file_arg : Option (List Char)}
    (h : perform (tear_down docker.toComposeBackend docker.toFileSystem spec file_arg) t = (.ok (), u)) :
    ∃ stopped, perform (docker.down spec.project file_arg) t = (.ok (), stopped) ∧
      u = (perform (docker.remove_dir_all spec.project_dir) stopped).2 ∧ docker.services u spec.project = [] := by
  obtain ⟨⟨⟩, stopped, hdown, hremove⟩ := perform_bind_eq_ok_iff.mp h
  obtain ⟨-, rfl⟩ := Prod.mk.inj hremove
  refine ⟨stopped, hdown, rfl, ?_⟩
  exact (docker.remove_services _ _).trans (docker.down_ok hdown)

theorem tear_down_project
    (h : perform (tear_down docker.toComposeBackend docker.toFileSystem spec none) t = (.ok (), u)) :
    docker.project spec u = ⟨docker.leavings spec t, .down⟩ := by
  obtain ⟨stopped, hdown, rfl, hservices⟩ := tear_down_ok h
  refine project_eq_iff.mpr ⟨?_, ?_⟩
  · rw [Docker.leavings, hdown]
  · rw [hservices]
    rfl

/-- A rollback goes by the text of the file that there was. -/
theorem rollback_checkpoint (backend : ComposeBackend Host) (fs : FileSystem Host) (services : List ComposeService)
    (on_disk_sha prior_source : Option String) :
    rollback backend fs spec (checkpoint services on_disk_sha prior_source) =
      match prior_source.filter fun src => src ≠ "" with
      | some src => materialise backend fs "rollback " spec src
      | none => tear_down backend fs spec none := by
  have hprior : ((checkpoint services on_disk_sha prior_source).get "prior_source").bind Value.as_str = prior_source := by
    rw [checkpoint, Value.get_json]
    cases prior_source <;> rfl
  rw [rollback, hprior]
  cases prior_source with
  | none => rfl
  | some src =>
    simp only
    split_ifs with hempty
    · rw [Option.filter_some, if_pos (by simpa using hempty)]
    · rw [Option.filter_some, if_neg (by simpa using hempty)]

/-- The project after a rollback: with the text that there was, or what a removal leaves. -/
theorem project_after_rollback
    (h : (ops sha256_hex docker.toComposeBackend docker.toFileSystem).RolledBackFrom spec s t u) :
    docker.project spec u = match text_of (docker.read spec.compose_file s) with
      | some src => ⟨some src.toByteArray, .up⟩
      | none => ⟨docker.leavings spec t, .down⟩ := by
  obtain ⟨step, data, -, hdata, -, hrollback⟩ := h
  obtain ⟨services, -, hsaved⟩ := fallible.bind_eq_ok_iff.mp hdata
  obtain rfl := Except.ok.inj hsaved
  change perform (rollback docker.toComposeBackend docker.toFileSystem spec _) t = _ at hrollback
  rw [rollback_checkpoint] at hrollback
  change perform (match text_of (docker.read spec.compose_file s) with
    | some src => materialise docker.toComposeBackend docker.toFileSystem "rollback " spec src
    | none => tear_down docker.toComposeBackend docker.toFileSystem spec none) t = _ at hrollback
  cases htext : text_of (docker.read spec.compose_file s) with
  | none =>
    rw [htext] at hrollback
    exact tear_down_project hrollback
  | some src =>
    rw [htext] at hrollback
    exact materialise_ok hrollback

end Restores

section Samples

/-- The files by where their paths lead, and the services. -/
structure Box where
  files : List (List Char) → Option ByteArray
  services : String → List ComposeService

def app : ComposeService := ⟨"app", "running", "Up", "nginx:1.27"⟩

def Box.set (b : Box) (project : String) (services : List ComposeService) : Box :=
  { b with services := Function.update b.services project services }

/-- A host on which calls succeed, save that the images of one env file cannot all be pulled. -/
def box_backend : ComposeBackend Box where
  list_services project b := .ok (b.services project)
  up project _ env := of_fun fun b =>
    if env = some "/etc/iac/broken.env" then
      (.error (provider_error "docker compose up: pull access denied"), b.set project [app])
    else (.ok (), b.set project [app])
  down project _ := of_fun fun b => (.ok (), b.set project [])

def box_fs : FileSystem Box where
  read f b := b.files (path.resolve f)
  create_dir_all _ := pure ()
  write f bytes := of_fun fun b => (.ok (), { b with files := Function.update b.files (path.resolve f) (some bytes) })
  remove_dir_all dir := of_fun fun b =>
    (.ok (), { b with files := fun names => if path.resolve dir <+: names then none else b.files names })

def box : Docker Box where
  toComposeBackend := box_backend
  toFileSystem := box_fs
  services := Box.services
  list_ok h := (Except.ok.inj h).symm
  up_ok {project file env b b'} h := by
    simp only [box_backend, perform_of_fun] at h
    split_ifs at h
    · cases h
    · obtain ⟨-, rfl⟩ := Prod.mk.inj h
      have hset : (b.set project [app]).services project = [app] := Function.update_self ..
      exact congrArg standing hset
  up_reads b f := by
    simp only [box_backend, perform_of_fun]
    split_ifs <;> rfl
  down_ok h := by
    obtain ⟨-, rfl⟩ := Prod.mk.inj h
    exact Function.update_self ..
  down_reads _ _ := rfl
  create_services _ _ := rfl
  create_reads _ _ := rfl
  write_services _ _ := rfl
  write_reads {file bytes} b f hother := by
    change Function.update b.files (path.resolve file) (some bytes) (path.resolve f) = b.files (path.resolve f)
    exact Function.update_of_ne hother _ _
  write_ok h := by
    obtain ⟨-, rfl⟩ := Prod.mk.inj h
    exact Function.update_self ..
  remove_services _ _ := rfl
  remove_reads {dir} b f := by
    change (if path.resolve dir <+: path.resolve f then none else b.files (path.resolve f)) = none ∨
      (if path.resolve dir <+: path.resolve f then none else b.files (path.resolve f)) = b.files (path.resolve f)
    split_ifs
    · exact .inl rfl
    · exact .inr rfl
  read_resolves b heq := congrArg b.files heq

def web : DockerComposeSpec := { project := "web", source := some "services:\n  app:\n    image: nginx:1.27\n" }

/-- No file, and the services that are given. -/
def box_with (services : List ComposeService) : Box := ⟨fun _ => none, fun _ => services⟩

private theorem web_rolled_back (services : List ComposeService) :
    ∃ t u, (ops sha2.hex_digest box_backend box_fs).RolledBackFrom web (box_with services) t u := by
  obtain ⟨step, hstep⟩ : ∃ step, (ops sha2.hex_digest box_backend box_fs).Planned web (box_with services) step := by
    cases services with
    | nil => exact ⟨_, 0, _, rfl, List.mem_cons_self⟩
    | cons service rest => exact ⟨_, 0, _, rfl, List.mem_cons_self⟩
  have hdown (b : Box) : ∃ u, perform (rollback box_backend box_fs web (checkpoint services none none)) b = (.ok (), u) := by
    rw [rollback_checkpoint]
    exact ⟨_, rfl⟩
  obtain ⟨u, hrollback⟩ := hdown _
  exact ⟨_, u, step, checkpoint services none none, hstep, rfl, rfl, hrollback⟩

private theorem box_leavings (b : Box) : box.leavings web b = none := by
  have hwithin : path.resolve web.project_dir <+: path.resolve web.compose_file := by decide
  change (if path.resolve web.project_dir <+: path.resolve web.compose_file then none
    else b.files (path.resolve web.compose_file)) = none
  rw [if_pos hwithin]

end Samples

end iac_providers.compose
