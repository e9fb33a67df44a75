import Iac.Collections.Run
import Iac.Providers.Compose

open iac_core iac_core.executor serde_json effect transition

namespace iac_providers.compose

variable {Host : Type}

/-- A service that there was is gone. -/
def lost (before after : List ComposeService) : Bool :=
  before.any fun s => !after.any fun t => t.name == s.name

/-- A host with the content of the last successful up, and whether a service has been removed since. -/
structure Watched (Host : Type) where
  host : Host
  last_up : Option ByteArray := none
  removed : Bool := false

/-- The host has moved on without a successful up. -/
def Watched.move (w : Watched Host) (before after : List ComposeService) (host : Host) : Watched Host :=
  { w with host, removed := w.removed || lost before after }

/-- Docker with a record of its successful ups and of the services that go. -/
def Docker.watch (docker : Docker Host) : Docker (Watched Host) where
  list_services project w := docker.list_services project w.host
  up project file env := of_fun fun w =>
    match perform (docker.up project file env) w.host with
    | (.ok (), host) => (.ok (), ⟨host, docker.read file w.host, false⟩)
    | (.error e, host) => (.error e, w.move (docker.services w.host project) (docker.services host project) host)
  down project file := of_fun fun w =>
    let outcome := perform (docker.down project file) w.host
    (outcome.1, w.move (docker.services w.host project) (docker.services outcome.2 project) outcome.2)
  read f w := docker.read f w.host
  create_dir_all dir := of_fun fun w =>
    ((perform (docker.create_dir_all dir) w.host).1, { w with host := (perform (docker.create_dir_all dir) w.host).2 })
  write file bytes := of_fun fun w =>
    ((perform (docker.write file bytes) w.host).1, { w with host := (perform (docker.write file bytes) w.host).2 })
  remove_dir_all dir := of_fun fun w =>
    ((perform (docker.remove_dir_all dir) w.host).1, { w with host := (perform (docker.remove_dir_all dir) w.host).2 })
  services w := docker.services w.host
  list_ok := docker.list_ok
  up_ok {project file env w w'} h := by
    rw [perform_of_fun] at h
    split at h
    · next host hup =>
      obtain ⟨-, rfl⟩ := Prod.mk.inj h
      exact docker.up_ok hup
    · cases (Prod.mk.inj h).1
  up_reads {project file env} w f := by
    have hkept : docker.read f (perform (docker.up project file env) w.host).2 = docker.read f w.host :=
      docker.up_reads w.host f
    rw [perform_of_fun]
    split
    · next host hup =>
      rw [hup] at hkept
      exact hkept
    · next e host hup =>
      rw [hup] at hkept
      exact hkept
  down_ok {project file w w'} h := by
    obtain ⟨hok, rfl⟩ := Prod.mk.inj h
    exact docker.down_ok (Prod.ext hok rfl)
  down_reads w f := docker.down_reads w.host f
  create_services w project := docker.create_services w.host project
  create_reads w f := docker.create_reads w.host f
  write_services w project := docker.write_services w.host project
  write_reads w f hother := docker.write_reads w.host f hother
  write_ok {file bytes w w'} h := by
    obtain ⟨hok, rfl⟩ := Prod.mk.inj h
    exact docker.write_ok (Prod.ext hok rfl)
  remove_services w project := docker.remove_services w.host project
  remove_reads w f := docker.remove_reads w.host f
  read_resolves w heq := docker.read_resolves w.host heq

section Watched

variable {docker : Docker Host} {w : Watched Host} {after : Host}

theorem watch_create {dir : List Char} {f : String → Error} {outcome : Except String Unit}
    (h : perform (docker.create_dir_all dir) w.host = (outcome, after)) :
    perform (map_error f (docker.watch.create_dir_all dir)) w = (outcome.mapError f, { w with host := after }) := by
  simp only [map_error, Docker.watch, perform_of_fun, h]

theorem watch_write {file : List Char} {bytes : ByteArray} {f : String → Error} {outcome : Except String Unit}
    (h : perform (docker.write file bytes) w.host = (outcome, after)) :
    perform (map_error f (docker.watch.write file bytes)) w = (outcome.mapError f, { w with host := after }) := by
  simp only [map_error, Docker.watch, perform_of_fun, h]

theorem watch_up {project : String} {file : List Char} {env : Option String}
    (h : perform (docker.up project file env) w.host = (.ok (), after)) :
    perform (docker.watch.up project file env) w = (.ok (), ⟨after, docker.read file w.host, false⟩) := by
  simp only [Docker.watch, perform_of_fun, h]

theorem watch_up_error {project : String} {file : List Char} {env : Option String} {e : Error}
    (h : perform (docker.up project file env) w.host = (.error e, after)) :
    perform (docker.watch.up project file env) w =
      (.error e, w.move (docker.services w.host project) (docker.services after project) after) := by
  simp only [Docker.watch, perform_of_fun, h]

theorem watch_down {project : String} {file_arg : Option (List Char)} {outcome : Except Error Unit}
    (h : perform (docker.down project file_arg) w.host = (outcome, after)) :
    perform (docker.watch.down project file_arg) w =
      (outcome, w.move (docker.services w.host project) (docker.services after project) after) := by
  simp only [Docker.watch, perform_of_fun, h]

end Watched

/-- Services of a project removed by hand, those that are picked. -/
structure ByHand (docker : Docker Host) where
  rm : String → (ComposeService → Bool) → Host → Host
  rm_services : ∀ project gone h, docker.services (rm project gone h) project =
    (docker.services h project).filter fun s => !gone s
  rm_reads : ∀ project gone h f, docker.read f (rm project gone h) = docker.read f h

section Runs

variable (sha256_hex : List UInt8 → String) (docker : Docker Host) (hand : ByHand docker) (project : String)

def Docker.ops : Ops (Watched Host) DockerComposeSpec :=
  compose.ops sha256_hex docker.watch.toComposeBackend docker.watch.toFileSystem

/-- The cycles of a project, with services removed by hand between them. -/
def cycles : Cycles (Watched Host) DockerComposeSpec (ComposeService → Bool) where
  ops := docker.ops sha256_hex
  admits spec := spec.project == project && spec.validate.isOk
  act gone w :=
    let host := hand.rm project gone w.host
    w.move (docker.services w.host project) (docker.services host project) host

/-- An accepted spec of the project, with state present, finds its source in its compose file. -/
def Claimed (w : Watched Host) (spec : DockerComposeSpec) : Prop :=
  (spec.project = project ∧ spec.state = .Present ∧ spec.validate = .ok ()) ∧
    docker.read spec.compose_file w.host = some spec.content

/-- What a spec that finds its source concludes is so. -/
def Converged (w : Watched Host) : Prop :=
  docker.services w.host project ≠ [] →
    ∀ spec, Claimed docker project w spec → w.last_up = some spec.content ∧ w.removed = false

/-- No other compose file of the project holds the source of another spec. -/
def Alone (w : Watched Host) (spec : DockerComposeSpec) (source : ByteArray) : Prop :=
  ∀ other, Claimed docker project w other → path.resolve other.compose_file ≠ path.resolve spec.compose_file →
    other.content = source

/-- No spec has the content for its source: it is no text, or blank. -/
def NoSource (file : Option ByteArray) : Prop :=
  ∀ text : String, file = some text.toByteArray → str.trim text.toList = []

/-- What is asked of an up of the source, by its calls and the state before
them. A write that fails while there are services leaves its file as it was,
without a source or with that of the last, intact up; an up that fails leaves no
service, or repeats the last, intact up and takes no service away; and one that
succeeds finds no other source in the project's other compose files. -/
def FairUp (spec : DockerComposeSpec) (src : String) (w : Watched Host) : Prop :=
  match perform (docker.create_dir_all spec.project_dir) w.host with
  | (.error _, _) => True
  | (.ok _, created) =>
    match perform (docker.write spec.compose_file src.toByteArray) created with
    | (.error _, torn) =>
      docker.services w.host project = [] ∨ docker.read spec.compose_file torn = docker.read spec.compose_file w.host ∨
        NoSource (docker.read spec.compose_file torn) ∨
        w.last_up = docker.read spec.compose_file torn ∧ w.removed = false
    | (.ok _, written) =>
      match perform (docker.up spec.project spec.compose_file spec.env_file) written with
      | (.error _, after) =>
        docker.services after project = [] ∨
          docker.services w.host project ≠ [] ∧
            lost (docker.services w.host project) (docker.services after project) = false ∧
            w.last_up = some src.toByteArray ∧ w.removed = false
      | (.ok _, _) => Alone docker project w spec src.toByteArray

/-- A down that fails leaves no service, or takes none away. -/
def FairDown (file_arg : Option (List Char)) (w : Watched Host) : Prop :=
  match perform (docker.down project file_arg) w.host with
  | (.error _, after) =>
    docker.services after project = [] ∨
      docker.services w.host project ≠ [] ∧ lost (docker.services w.host project) (docker.services after project) = false
  | (.ok _, _) => True

/-- The source that a rollback brings up. -/
def prior (saved : Value) : Option String :=
  ((saved.get "prior_source").bind Value.as_str).filter fun src => src ≠ ""

def fair : Condition (Watched Host) DockerComposeSpec (ComposeService → Bool) where
  apply spec _ _ w :=
    match spec.state with
    | .Present => ∀ src, spec.source = some src → FairUp docker project spec src w
    | .Absent =>
      FairDown docker project (if (docker.read spec.compose_file w.host).isSome then some spec.compose_file else none) w
  rollback spec saved w :=
    match prior saved with
    | some src => FairUp docker project spec src w
    | none => FairDown docker project none w
  outside gone w :=
    (∀ s ∈ docker.services w.host project, gone s = true) ∨ ∀ s ∈ docker.services w.host project, gone s = false

end Runs

section Lost

theorem lost_self (services : List ComposeService) : lost services services = false := by
  simp only [lost, List.any_eq_false, Bool.not_eq_true']
  intro s hs
  simpa using ⟨s, hs, rfl⟩

/-- Removing nothing, or everything. -/
theorem filter_all_or_none {services : List ComposeService} {gone : ComposeService → Bool}
    (h : (∀ s ∈ services, gone s = true) ∨ ∀ s ∈ services, gone s = false) :
    (services.filter fun s => !gone s) = [] ∨ (services.filter fun s => !gone s) = services := by
  obtain hall | hnone := h
  · exact .inl (List.filter_eq_nil_iff.mpr fun s hs => by simp [hall s hs])
  · exact .inr (List.filter_eq_self.mpr fun s hs => by simp [hnone s hs])

end Lost

section Keeps

variable {sha256_hex : List UInt8 → String} {docker : Docker Host} {hand : ByHand docker} {project : String}
variable {w : Watched Host} {spec : DockerComposeSpec} {what src : String}

theorem source_of_present (hvalid : spec.validate = .ok ()) (hstate : spec.state = .Present) :
    ∃ src, spec.source = some src ∧ str.trim src.toList ≠ [] := by
  have hblank : str.trim (spec.source.getD "").toList ≠ [] := by
    intro hblank
    rw [DockerComposeSpec.validate] at hvalid
    split_ifs at hvalid with hempty hchars hgiven
    · cases hvalid
    · cases hvalid
    · cases hvalid
    · exact hgiven ⟨hstate, hblank⟩
  cases hsource : spec.source with
  | some src => exact ⟨src, rfl, by simpa [hsource] using hblank⟩
  | none =>
    rw [hsource] at hblank
    exact absurd rfl hblank

/-- A spec that claims a file has found a source in it. -/
theorem Claimed.not_no_source {other : DockerComposeSpec} (h : Claimed docker project w other)
    (hnone : NoSource (docker.read other.compose_file w.host)) : False := by
  obtain ⟨⟨-, hstate, hvalid⟩, hread⟩ := h
  obtain ⟨src, hsource, hblank⟩ := source_of_present hvalid hstate
  refine hblank (hnone src ?_)
  rw [hread, DockerComposeSpec.content, hsource]
  rfl

/-- A write to one file, with whatever outcome. -/
theorem converged_of_write {torn : Host} (h : Converged docker project w)
    (hservices : docker.services torn project = docker.services w.host project)
    (hothers : ∀ f, path.resolve f ≠ path.resolve spec.compose_file → docker.read f torn = docker.read f w.host)
    (hfile : docker.services w.host project = [] ∨
      docker.read spec.compose_file torn = docker.read spec.compose_file w.host ∨
      NoSource (docker.read spec.compose_file torn) ∨
      w.last_up = docker.read spec.compose_file torn ∧ w.removed = false) :
    Converged docker project { w with host := torn } := by
  intro hthere other hclaimed
  have hbefore : docker.services w.host project ≠ [] := hservices ▸ hthere
  obtain ⟨haccepted, hread⟩ := id hclaimed
  by_cases hsame : path.resolve other.compose_file = path.resolve spec.compose_file
  · have htorn := docker.read_resolves torn hsame
    obtain hnone | hkept | hblank | ⟨hlast, hremoved⟩ := hfile
    · exact absurd hnone hbefore
    · refine h hbefore other ⟨haccepted, ?_⟩
      rw [docker.read_resolves w.host hsame, ← hkept, ← htorn]
      exact hread
    · exact (hclaimed.not_no_source (htorn ▸ hblank)).elim
    · exact ⟨hlast.trans (htorn.symm.trans hread), hremoved⟩
  · exact h hbefore other ⟨haccepted, (hothers _ hsame).symm.trans hread⟩

/-- An up that fails, after the source was written. -/
theorem converged_of_failed_up {after : Host} (h : Converged docker project w)
    (hreads : ∀ f, docker.read f after =
      if path.resolve f = path.resolve spec.compose_file then some src.toByteArray else docker.read f w.host)
    (hafter : docker.services after project = [] ∨
      docker.services w.host project ≠ [] ∧ lost (docker.services w.host project) (docker.services after project) = false ∧
        w.last_up = some src.toByteArray ∧ w.removed = false) :
    Converged docker project (w.move (docker.services w.host project) (docker.services after project) after) := by
  intro hthere other ⟨haccepted, hread⟩
  obtain hnone | ⟨hbefore, hlost, hlast, hremoved⟩ := hafter
  · exact absurd hnone hthere
  have hkept : (w.removed || lost (docker.services w.host project) (docker.services after project)) = false := by
    rw [hremoved, hlost]
    rfl
  refine ⟨?_, hkept⟩
  have hfound := (hreads other.compose_file).symm.trans hread
  split_ifs at hfound with hsame
  · exact hlast.trans hfound
  · exact (h hbefore other ⟨haccepted, hfound⟩).1

/-- An up that succeeds. -/
theorem converged_of_up {after : Host}
    (hreads : ∀ f, docker.read f after =
      if path.resolve f = path.resolve spec.compose_file then some src.toByteArray else docker.read f w.host)
    (halone : Alone docker project w spec src.toByteArray) :
    Converged docker project ⟨after, some src.toByteArray, false⟩ := by
  intro _ other ⟨haccepted, hread⟩
  refine ⟨congrArg some ?_, rfl⟩
  have hfound := (hreads other.compose_file).symm.trans hread
  split_ifs at hfound with hsame
  · exact Option.some.inj hfound
  · exact (halone other ⟨haccepted, hfound⟩ hsame).symm

/-- An up keeps what is concluded, under its condition. -/
theorem converged_of_materialise (h : Converged docker project w) (hproject : spec.project = project)
    (hfair : FairUp docker project spec src w) : Converged docker project
      (perform (materialise docker.watch.toComposeBackend docker.watch.toFileSystem what spec src) w).2 := by
  rw [FairUp] at hfair
  rw [materialise, perform_bind]
  rcases hcreate : perform (docker.create_dir_all spec.project_dir) w.host with ⟨e | ⟨⟩, created⟩
  all_goals
    have hcreated_services : docker.services created project = docker.services w.host project := by
      rw [← docker.create_services w.host project, hcreate]
    have hcreated (f : List Char) : docker.read f created = docker.read f w.host := by
      rw [← docker.create_reads w.host f, hcreate]
    rw [watch_create hcreate]
  · have hfile := hcreated spec.compose_file
    exact converged_of_write h hcreated_services (fun f _ => hcreated f) (.inr (.inl hfile))
  rw [hcreate] at hfair
  simp only [Except.mapError] at hfair ⊢
  rw [perform_bind]
  rcases hwrite : perform (docker.write spec.compose_file src.toByteArray) created with ⟨e | ⟨⟩, written⟩
  all_goals
    have hwritten_services : docker.services written project = docker.services w.host project := by
      rw [← hcreated_services, ← docker.write_services created project, hwrite]
    have hothers (f : List Char) (hother : path.resolve f ≠ path.resolve spec.compose_file) :
        docker.read f written = docker.read f w.host := by
      rw [← hcreated, ← docker.write_reads created f hother, hwrite]
    rw [watch_write hwrite]
  · rw [hwrite] at hfair
    have htorn : Converged docker project { w with host := written } := converged_of_write h hwritten_services hothers hfair
    exact htorn
  rw [hwrite] at hfair
  simp only [Except.mapError] at hfair ⊢
  rcases hup : perform (docker.up spec.project spec.compose_file spec.env_file) written with ⟨e | ⟨⟩, after⟩
  all_goals
    have hreads (f : List Char) : docker.read f after =
        if path.resolve f = path.resolve spec.compose_file then some src.toByteArray else docker.read f w.host := by
      have hkept : docker.read f (perform (docker.up spec.project spec.compose_file spec.env_file) written).2 =
          docker.read f written := docker.up_reads written f
      rw [hup] at hkept
      rw [hkept]
      split_ifs with hsame
      · exact (docker.read_resolves written hsame).trans (docker.write_ok hwrite)
      · exact hothers f hsame
    rw [hup] at hfair
  · rw [watch_up_error hup, hproject, hwritten_services]
    exact converged_of_failed_up h hreads hfair
  · rw [watch_up hup, docker.write_ok hwrite]
    exact converged_of_up hreads hfair

/-- A down keeps what is concluded, under its condition. -/
theorem converged_of_tear_down {file_arg : Option (List Char)} (h : Converged docker project w)
    (hproject : spec.project = project) (hfair : FairDown docker project file_arg w) : Converged docker project
      (perform (tear_down docker.watch.toComposeBackend docker.watch.toFileSystem spec file_arg) w).2 := by
  rw [FairDown] at hfair
  rcases hrun : perform (tear_down docker.watch.toComposeBackend docker.watch.toFileSystem spec file_arg) w with ⟨e | ⟨⟩, u⟩
  · rw [tear_down, perform_bind, hproject] at hrun
    rcases hdown : perform (docker.down project file_arg) w.host with ⟨e' | ⟨⟩, after⟩
    · rw [watch_down hdown] at hrun
      obtain ⟨-, rfl⟩ := Prod.mk.inj hrun
      rw [hdown] at hfair
      have hreads (f : List Char) : docker.read f after = docker.read f w.host := by
        rw [← docker.down_reads w.host f, hdown]
      intro hthere other ⟨haccepted, hread⟩
      obtain hnone | ⟨hbefore, hlost⟩ := hfair
      · exact absurd hnone hthere
      obtain ⟨hlast, hremoved⟩ := h hbefore other ⟨haccepted, (hreads _).symm.trans hread⟩
      have hkept : (w.removed || lost (docker.services w.host project) (docker.services after project)) = false := by
        rw [hremoved, hlost]
        rfl
      exact ⟨hlast, hkept⟩
    · rw [watch_down hdown] at hrun
      cases (Prod.mk.inj hrun).1
  · intro hservices
    obtain ⟨stopped, -, -, hnone⟩ := tear_down_ok hrun
    rw [hproject] at hnone
    exact absurd hnone hservices

/-- The action of the step that is planned for a spec. -/
def DockerComposeSpec.action (spec : DockerComposeSpec) : ComposeAction :=
  match spec.state with
  | .Present => .Up
  | .Absent => .Down

theorem planned_action {id : Ulid} {step : Step} {saved : Value}
    (h : (docker.ops sha256_hex).planned_step id spec w = .ok (some (step, saved))) : step.action = spec.action.as_str := by
  obtain ⟨-, d, -, hstep⟩ := Ops.planned_step_ok h
  change step ∈ plan id spec d at hstep
  rw [plan] at hstep
  split at hstep
  · cases hstep
  · rw [List.mem_singleton.mp hstep]
    rfl

theorem converged_of_apply {step : Step} {saved : Value} (h : Converged docker project w) (hproject : spec.project = project)
    (hvalid : spec.validate = .ok ()) (haction : step.action = spec.action.as_str)
    (hfair : (fair docker project).apply spec step saved w) :
    Converged docker project (perform (apply docker.watch.toComposeBackend docker.watch.toFileSystem spec step) w).2 := by
  simp only [fair] at hfair
  cases hstate : spec.state with
  | Present =>
    obtain ⟨src, hsource, -⟩ := source_of_present hvalid hstate
    have hrun : apply docker.watch.toComposeBackend docker.watch.toFileSystem spec step =
        materialise docker.watch.toComposeBackend docker.watch.toFileSystem "" spec src >>= fun _ =>
          pure (.ok ("compose-up project=" ++ spec.project)) := by
      rw [apply, haction, DockerComposeSpec.action, hstate, apply_up, hsource]
      rfl
    rw [hstate] at hfair
    rw [hrun, perform_bind_pure_snd]
    exact converged_of_materialise h hproject (hfair src hsource)
  | Absent =>
    have hrun : perform (apply docker.watch.toComposeBackend docker.watch.toFileSystem spec step) w =
        perform (tear_down docker.watch.toComposeBackend docker.watch.toFileSystem spec
          (if (docker.watch.read spec.compose_file w).isSome then some spec.compose_file else none) >>= fun _ =>
            pure (.ok ("compose-down project=" ++ spec.project))) w := by
      rw [apply, haction, DockerComposeSpec.action, hstate]
      exact perform_bind_ok (perform_get w)
    rw [hstate] at hfair
    rw [hrun, perform_bind_pure_snd]
    exact converged_of_tear_down h hproject hfair

theorem converged_of_rollback {saved : Value} (h : Converged docker project w) (hproject : spec.project = project)
    (hfair : (fair docker project).rollback spec saved w) :
    Converged docker project (perform (rollback docker.watch.toComposeBackend docker.watch.toFileSystem spec saved) w).2 := by
  simp only [fair, prior] at hfair
  rw [rollback]
  cases hsource : (saved.get "prior_source").bind Value.as_str with
  | none =>
    rw [hsource] at hfair
    exact converged_of_tear_down h hproject hfair
  | some src =>
    rw [hsource, Option.filter_some] at hfair
    simp only [decide_eq_true_eq] at hfair ⊢
    by_cases hempty : src ≠ ""
    · rw [if_pos hempty] at hfair ⊢
      exact converged_of_materialise h hproject hfair
    · rw [if_neg hempty] at hfair ⊢
      exact converged_of_tear_down h hproject hfair

/-- Services removed by hand, all or none. -/
theorem converged_of_remove {gone : ComposeService → Bool} (h : Converged docker project w)
    (hfair : (∀ s ∈ docker.services w.host project, gone s = true) ∨ ∀ s ∈ docker.services w.host project, gone s = false) :
    Converged docker project (w.move (docker.services w.host project)
      (docker.services (hand.rm project gone w.host) project) (hand.rm project gone w.host)) := by
  intro hthere other ⟨haccepted, hread⟩
  obtain hnone | hall := filter_all_or_none hfair
  · exact absurd ((hand.rm_services ..).trans hnone) hthere
  · have hsame : docker.services (hand.rm project gone w.host) project = docker.services w.host project :=
      (hand.rm_services ..).trans hall
    obtain ⟨hlast, hremoved⟩ := h (hsame ▸ hthere) other ⟨haccepted, (hand.rm_reads ..).symm.trans hread⟩
    refine ⟨hlast, ?_⟩
    rw [Watched.move, hsame, hremoved, lost_self]
    rfl

end Keeps

section Concludes

variable {sha256_hex : List UInt8 → String} {docker : Docker Host} {hand : ByHand docker} {project : String}
variable {spec : DockerComposeSpec} {backend : ComposeBackend Host} {fs : FileSystem Host}

/-- No change is reported where there are services and the file has the digest of the source. -/
theorem no_change_iff {host : Host} (hstate : spec.state = .Present) :
    (ops sha256_hex backend fs).NoChange spec host ↔
      ∃ services, backend.list_services spec.project host = .ok services ∧ services ≠ [] ∧
        read_sha256_of_file sha256_hex fs spec.compose_file host = some (spec.source_sha256 sha256_hex) := by
  have hsha (sha : Option String) : (of_option sha).as_str = sha := by cases sha <;> rfl
  have hno_change (services : List ComposeService) (sha : Option String) (observed : ObservedState)
      (hpresent : observed.present = !services.isEmpty)
      (hfact : observed.facts.lookup "on_disk_sha256" = some (of_option sha)) :
      (diff sha256_hex spec observed).is_change = false ↔ services ≠ [] ∧ sha = some (spec.source_sha256 sha256_hex) := by
    simp only [diff, hstate, hpresent, hfact, Option.bind_some, hsha]
    cases services with
    | nil => simp [Diff.is_change]
    | cons service rest =>
      simp only [List.isEmpty_cons, Bool.not_false, Bool.not_true, Bool.false_eq_true, if_false]
      split_ifs with hdiffers <;> simp_all [Diff.is_change, Diff.no_change]
  constructor
  · rintro ⟨d, hdrift, hchange⟩
    obtain ⟨observed, hobserve, hdiff⟩ := fallible.bind_eq_ok_iff.mp hdrift
    obtain ⟨services, hlist, hreturn⟩ := fallible.bind_eq_ok_iff.mp hobserve
    obtain rfl := Except.ok.inj hdiff
    obtain rfl := Except.ok.inj hreturn
    exact ⟨services, hlist, (hno_change services _ _ rfl rfl).mp hchange⟩
  · rintro ⟨services, hlist, hfound⟩
    have hobserve : observe sha256_hex backend fs spec host = .ok _ := fallible.bind_eq_ok_iff.mpr ⟨services, hlist, rfl⟩
    exact ⟨_, fallible.bind_eq_ok_iff.mpr ⟨_, hobserve, rfl⟩, (hno_change services _ _ rfl rfl).mpr hfound⟩

theorem admits_iff : (cycles sha256_hex docker hand project).admits spec = true ↔
    spec.project = project ∧ spec.validate = .ok () := by
  have hok : spec.validate.isOk = true ↔ spec.validate = .ok () := by
    cases spec.validate with
    | ok => exact ⟨fun _ => rfl, fun _ => rfl⟩
    | error e => exact ⟨fun h => (Bool.false_ne_true h).elim, fun h => nomatch h⟩
  rw [cycles, Bool.and_eq_true, beq_iff_eq, hok]

end Concludes

section Samples

/-- Services of the sample host removed by hand. -/
def box_hand : ByHand box where
  rm project gone b := b.set project ((b.services project).filter fun s => !gone s)
  rm_services _ _ _ := Function.update_self ..
  rm_reads _ _ _ _ := rfl

/-- The images of its env file cannot all be pulled. -/
def broken : DockerComposeSpec := { web with env_file := some "/etc/iac/broken.env" }

/-- Nothing is there. -/
def empty_box : Cycled (Watched Box) DockerComposeSpec := ⟨⟨box_with [], none, false⟩, []⟩

private theorem box_read {spec : DockerComposeSpec} {w : Cycled (Watched Box) DockerComposeSpec}
    (hfiles : w.host.host.files = Function.update (box_with []).files (path.resolve spec.compose_file) (some spec.content)) :
    box.read spec.compose_file w.host.host = some spec.content := by
  change w.host.host.files (path.resolve spec.compose_file) = some spec.content
  rw [hfiles, Function.update_self]

/-- The sample host reports no change for a spec whose source is in its file while a service is up. -/
private theorem box_no_change {spec : DockerComposeSpec} {w : Cycled (Watched Box) DockerComposeSpec}
    (hstate : spec.state = .Present) (hservices : w.host.host.services spec.project = [app])
    (hfiles : w.host.host.files = Function.update (box_with []).files (path.resolve spec.compose_file) (some spec.content)) :
    (box.ops sha2.hex_digest).NoChange spec w.host := by
  have hsha : read_sha256_of_file sha2.hex_digest box.watch.toFileSystem spec.compose_file w.host =
      some (spec.source_sha256 sha2.hex_digest) := by
    have hfound : box.watch.read spec.compose_file w.host = some spec.content := box_read hfiles
    rw [read_sha256_of_file, hfound]
    rfl
  exact (no_change_iff hstate).mpr ⟨[app], congrArg Except.ok hservices, by simp, hsha⟩

end Samples

end iac_providers.compose
