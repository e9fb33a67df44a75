import Iac.Core.Text
import Iac.Providers.Lifecycle
import Mathlib.Data.List.Infix
import Mathlib.Logic.Function.Basic

open iac_core iac_core.executor serde_json effect

namespace iac_providers.package

inductive PackageState where
  | Present
  | Absent
  deriving DecidableEq, Repr

structure PackageSpec where
  name : String
  state : PackageState := .Present
  version : Option String := none

inductive PackageAction where
  | Install
  | Remove

def PackageAction.as_str : PackageAction → String
  | .Install => "package.install"
  | .Remove => "package.remove"

def PackageAction.parse : String → Except Error PackageAction
  | "package.install" => .ok .Install
  | "package.remove" => .ok .Remove
  | other => .error (.Provider "PackageAction" ("unknown step action " ++ str.debug other))

/-- What dpkg knows of a package. -/
inductive InstallStatus where
  | NotInstalled
  | Installed (status version : String)
  deriving DecidableEq, Repr

def InstallStatus.is_installed : InstallStatus → Bool
  | .Installed status _ => str.contains status.toList "install ok installed".toList
  | .NotInstalled => false

def InstallStatus.version : InstallStatus → Option String
  | .Installed _ version => some version
  | .NotInstalled => none

/-- What `dpkg-query` prints, when it knows the package. -/
def read_query (known : Bool) (stdout : List Char) : InstallStatus :=
  if !known then .NotInstalled
  else
    match split_once '\t' stdout with
    | some (status, version) => .Installed (String.ofList status) (String.ofList version)
    | none => .Installed (String.ofList stdout) ""

structure PackageBackend (Host : Type) where
  query : String → Host → Except Error InstallStatus
  install : String → Option String → Prog Host Error Unit
  remove : String → Prog Host Error Unit

section Operations

variable {Host : Type} (backend : PackageBackend Host)

def observe (spec : PackageSpec) (host : Host) : Except Error ObservedState := do
  match ← backend.query spec.name host with
  | .NotInstalled => return ⟨false, .null, [("installed", .bool false)]⟩
  | .Installed dpkg_status version =>
    let installed := (InstallStatus.Installed dpkg_status version).is_installed
    return {
      present := installed
      spec := .object [("name", .string spec.name), ("state", .string (if installed then "present" else "absent")),
        ("version", .string version)]
      facts := [("installed", .bool installed), ("dpkg_status", .string dpkg_status), ("version", .string version)] }

def diff (spec : PackageSpec) (observed : ObservedState) : Diff :=
  let installed := match observed.facts.lookup "installed" with
    | some (.bool b) => b
    | _ => false
  let observed_version := (observed.facts.lookup "version").bind Value.as_str
  match spec.state, installed with
  | .Absent, false => .no_change
  | .Absent, true =>
    { kind := .Update, changes := [⟨"installed", some (.bool true), some (.bool false), false⟩]
      reasons := ["uninstall " ++ spec.name], reversible := true }
  | .Present, false =>
    { kind := .Create, changes := [⟨"installed", some (.bool false), some (.bool true), false⟩]
      reasons := ["install " ++ spec.name], reversible := true }
  | .Present, true =>
    match spec.version with
    | none => .no_change
    | some pin =>
      let observed_version := observed_version.getD ""
      if observed_version ≠ pin then
        { kind := .Update, changes := [⟨"version", some (.string observed_version), some (.string pin), false⟩]
          reasons := ["version pin " ++ observed_version ++ " -> " ++ pin], reversible := true }
      else .no_change

def plan (id : Ulid) (spec : PackageSpec) (diff : Diff) : List Step :=
  if !diff.is_change then []
  else
    match spec.state with
    | .Present =>
      [Step.new id PackageAction.Install.as_str ("install " ++ spec.name)
        (json [("name", .string spec.name), ("version", of_option spec.version)])]
    | .Absent =>
      [Step.new id PackageAction.Remove.as_str ("remove " ++ spec.name) (json [("name", .string spec.name)])]

/-- The checkpoint of a package. -/
def checkpoint (name : String) (previous_installed : Bool) (previous_version : Option String) : Value :=
  json [("name", .string name), ("previous_installed", .bool previous_installed),
    ("previous_version", of_option previous_version)]

def pre_apply (spec : PackageSpec) (host : Host) : Except Error Value := do
  match ← backend.query spec.name host with
  | .NotInstalled => return checkpoint spec.name false none
  | .Installed _ version => return checkpoint spec.name true (some version)

def apply (step : Step) : Prog Host Error StepResult := do
  match (step.payload.get "name").bind Value.as_str with
  | none => throw (.Provider "package" "step payload missing 'name'")
  | some name =>
    match PackageAction.parse step.action with
    | .error e => throw e
    | .ok .Install =>
      backend.install name ((step.payload.get "version").bind Value.as_str)
      return .ok ("installed " ++ name)
    | .ok .Remove =>
      backend.remove name
      return .ok ("removed " ++ name)

/-- What rollback does, from what it finds and what was there before. -/
def restore (name : String) (cur : InstallStatus) (prev_installed : Bool) (prev_version : Option String) :
    Prog Host Error Unit :=
  match cur.is_installed, prev_installed with
  | true, true =>
    match prev_version with
    | some prev_v => if cur.version ≠ some prev_v then backend.install name (some prev_v) else pure ()
    | none => pure ()
  | true, false => backend.remove name
  | false, true => backend.install name prev_version
  | false, false => pure ()

def rollback (checkpoint : Value) : Prog Host Error Unit := do
  match (checkpoint.get "name").bind Value.as_str with
  | none => throw (.Provider "package" "checkpoint missing 'name'")
  | some name =>
    let prev_installed := match checkpoint.get "previous_installed" with
      | some (.bool b) => b
      | _ => false
    let prev_version := (checkpoint.get "previous_version").bind Value.as_str
    match backend.query name (← get) with
    | .error e => throw e
    | .ok cur => restore backend name cur prev_installed prev_version

def ops : Ops Host PackageSpec where
  observe := observe backend
  diff spec observed := .ok (diff spec observed)
  plan := plan
  pre_apply := pre_apply backend
  apply _ step _ := apply backend step
  rollback _ := rollback backend

end Operations

/-- A package manager: what it has on record of each package, and what its
commands have done when they succeed. -/
structure PackageManager (Host : Type) extends PackageBackend Host where
  record : Host → String → InstallStatus
  query_ok : ∀ {name host status}, query name host = .ok status → status = record host name
  install_ok : ∀ {name version host host'}, perform (install name version) host = (.ok (), host') →
    (record host' name).is_installed = true ∧ ∀ v, version = some v → (record host' name).version = some v
  remove_ok : ∀ {name host host'}, perform (remove name) host = (.ok (), host') → (record host' name).is_installed = false

/-- Installed exactly when it was, and then in the same version. -/
def Restored (before after : InstallStatus) : Prop :=
  after.is_installed = before.is_installed ∧ (before.is_installed = true → after.version = before.version)

section Restores

variable {Host : Type} {apt : PackageManager Host} {spec : PackageSpec} {s t u : Host} {name : String}

/-- Status and version are read as they were printed. -/
theorem read_query_printed {status version : List Char} (htab : '\t' ∉ status) :
    read_query true (status ++ '\t' :: version) = .Installed (String.ofList status) (String.ofList version) := by
  have hsplit : split_once '\t' (status ++ '\t' :: version) = some (status, version) := by
    induction status with
    | nil => rfl
    | cons c status ih =>
      obtain ⟨hc, hstatus⟩ := not_or.mp (List.mem_cons.not.mp htab)
      rw [List.cons_append, split_once, if_neg (Ne.symm hc), ih hstatus]
      rfl
  simp only [read_query, hsplit]
  rfl

/-- `observe` reports what the record says. -/
theorem observe_ok {observed : ObservedState} (h : observe apt.toPackageBackend spec s = .ok observed) :
    observed.present = (apt.record s spec.name).is_installed := by
  obtain ⟨status, hquery, hfacts⟩ := fallible.bind_eq_ok_iff.mp h
  rw [← apt.query_ok hquery]
  cases status with
  | NotInstalled => exact (Except.ok.inj hfacts) ▸ rfl
  | Installed dpkg_status version => exact (Except.ok.inj hfacts) ▸ rfl

/-- What is not installed and wanted is to be installed. -/
theorem planned_to_install {backend : PackageBackend Host} {status : InstallStatus}
    (hquery : backend.query spec.name s = .ok status) (hstatus : status.is_installed = false)
    (hstate : spec.state = .Present) : ∃ step, (ops backend).Planned spec s step := by
  have hobserve : ∃ observed, observe backend spec s = .ok observed ∧
      observed.facts.lookup "installed" = some (.bool false) := by
    rw [observe, hquery]
    cases status with
    | NotInstalled => exact ⟨_, rfl, rfl⟩
    | Installed dpkg_status version =>
      refine ⟨_, rfl, ?_⟩
      rw [hstatus]
      rfl
  obtain ⟨observed, hobserved, hfact⟩ := hobserve
  have hdrift : (ops backend).drift spec s = .ok (diff spec observed) :=
    fallible.bind_eq_ok_iff.mpr ⟨observed, hobserved, rfl⟩
  have hchange : (diff spec observed).is_change = true := by
    simp only [diff, hfact, hstate]
    rfl
  obtain ⟨step, hplan⟩ : ∃ step, (ops backend).plan 0 spec (diff spec observed) = [step] := by
    change ∃ step, plan 0 spec (diff spec observed) = [step]
    rw [plan, hchange, hstate]
    exact ⟨_, rfl⟩
  exact ⟨step, 0, _, hdrift, hplan ▸ List.mem_cons_self⟩

theorem pre_apply_ok {data : Value} (h : pre_apply apt.toPackageBackend spec s = .ok data) :
    (apt.record s spec.name = .NotInstalled ∧ data = checkpoint spec.name false none) ∨
      ∃ status version, apt.record s spec.name = .Installed status version ∧
        data = checkpoint spec.name true (some version) := by
  obtain ⟨record, hquery, hdata⟩ := fallible.bind_eq_ok_iff.mp h
  rw [← apt.query_ok hquery]
  cases record with
  | NotInstalled => exact .inl ⟨rfl, (Except.ok.inj hdata).symm⟩
  | Installed status version => exact .inr ⟨status, version, rfl, (Except.ok.inj hdata).symm⟩

/-- Rollback reads the checkpoint back. -/
theorem perform_rollback (backend : PackageBackend Host) (previous_installed : Bool) (previous_version : Option String) :
    perform (rollback backend (checkpoint name previous_installed previous_version)) t =
      match backend.query name t with
      | .error e => (.error e, t)
      | .ok cur => perform (restore backend name cur previous_installed previous_version) t := by
  have hname : ((checkpoint name previous_installed previous_version).get "name").bind Value.as_str = some name := by
    rw [checkpoint, Value.get_json]
    rfl
  have hinstalled : (checkpoint name previous_installed previous_version).get "previous_installed" =
      some (.bool previous_installed) := by
    rw [checkpoint, Value.get_json]
    rfl
  have hversion : ((checkpoint name previous_installed previous_version).get "previous_version").bind Value.as_str =
      previous_version := by
    rw [checkpoint, Value.get_json]
    cases previous_version <;> rfl
  simp only [rollback, hname, hinstalled, hversion]
  rw [perform_bind_ok (perform_get t)]
  cases backend.query name t <;> rfl

theorem restore_of_rollback {previous_installed : Bool} {previous_version : Option String}
    (h : perform (rollback apt.toPackageBackend (checkpoint name previous_installed previous_version)) t = (.ok (), u)) :
    perform (restore apt.toPackageBackend name (apt.record t name) previous_installed previous_version) t = (.ok (), u) := by
  rw [perform_rollback] at h
  split at h
  · cases h
  · next cur hquery =>
    rw [← apt.query_ok hquery]
    exact h

/-- What was not installed is not installed afterwards. -/
theorem rollback_to_absent
    (h : perform (rollback apt.toPackageBackend (checkpoint name false none)) t = (.ok (), u)) :
    (apt.record u name).is_installed = false := by
  have hrestore := restore_of_rollback h
  cases hcur : (apt.record t name).is_installed with
  | true =>
    simp only [restore, hcur] at hrestore
    exact apt.remove_ok hrestore
  | false =>
    simp only [restore, hcur] at hrestore
    obtain ⟨-, rfl⟩ := Prod.mk.inj hrestore
    exact hcur

/-- What had a version on record is installed in it afterwards. -/
theorem rollback_to_version {version : String}
    (h : perform (rollback apt.toPackageBackend (checkpoint name true (some version))) t = (.ok (), u)) :
    (apt.record u name).is_installed = true ∧ (apt.record u name).version = some version := by
  have hinstall (hrun : perform (apt.install name (some version)) t = (.ok (), u)) :
      (apt.record u name).is_installed = true ∧ (apt.record u name).version = some version :=
    (apt.install_ok hrun).imp_right fun hpinned => hpinned version rfl
  have hrestore := restore_of_rollback h
  cases hcur : (apt.record t name).is_installed with
  | true =>
    simp only [restore, hcur] at hrestore
    split_ifs at hrestore with hversion
    · exact hinstall hrestore
    · obtain ⟨-, rfl⟩ := Prod.mk.inj hrestore
      exact ⟨hcur, not_not.mp hversion⟩
  | false =>
    simp only [restore, hcur] at hrestore
    exact hinstall hrestore

/-- A rollback goes by whether dpkg had a record of the package. -/
theorem record_after_rollback (h : (ops apt.toPackageBackend).RolledBack spec s u) :
    (apt.record s spec.name = .NotInstalled ∧ (apt.record u spec.name).is_installed = false) ∨
      ∃ status version, apt.record s spec.name = .Installed status version ∧
        (apt.record u spec.name).is_installed = true ∧ (apt.record u spec.name).version = some version := by
  obtain ⟨step, data, -, hdata, hrollback⟩ := h
  obtain ⟨hrecord, rfl⟩ | ⟨status, version, hrecord, rfl⟩ := pre_apply_ok hdata
  · exact .inl ⟨hrecord, rollback_to_absent hrollback⟩
  · exact .inr ⟨status, version, hrecord, rollback_to_version hrollback⟩

/-- A rollback gives the package back exactly when dpkg did not know it or had it installed. -/
theorem rollback_restores_package_iff (h : (ops apt.toPackageBackend).RolledBack spec s u) :
    Restored (apt.record s spec.name) (apt.record u spec.name) ↔
      apt.record s spec.name = .NotInstalled ∨ (apt.record s spec.name).is_installed = true := by
  obtain ⟨hrecord, habsent⟩ | ⟨status, version, hrecord, hinstalled, hversion⟩ := record_after_rollback h
  · exact iff_of_true ⟨by rw [habsent, hrecord]; rfl, by simp [hrecord, InstallStatus.is_installed]⟩ (.inl hrecord)
  · have hknown : apt.record s spec.name ≠ .NotInstalled := by simp [hrecord]
    rw [or_iff_right hknown]
    constructor
    · exact fun hrestored => hrestored.1.symm.trans hinstalled
    · intro hbefore
      refine ⟨hinstalled.trans hbefore.symm, fun _ => hversion.trans ?_⟩
      rw [hrecord]
      rfl

end Restores

section Samples

/-- A manager whose commands succeed; a removed package leaves its configuration. -/
def dpkg : PackageManager (String → InstallStatus) where
  query name host := .ok (host name)
  install name version := modify fun host =>
    Function.update host name (.Installed "install ok installed" (version.getD "1.24.0-2"))
  remove name := modify fun host =>
    Function.update host name (.Installed "deinstall ok config-files" ((host name).version.getD ""))
  record := id
  query_ok h := (Except.ok.inj h).symm
  install_ok h := by
    obtain ⟨-, rfl⟩ := Prod.mk.inj h
    constructor
    · simp only [id, Function.update_self, InstallStatus.is_installed]
      decide
    · rintro v rfl
      simp [InstallStatus.version]
  remove_ok h := by
    obtain ⟨-, rfl⟩ := Prod.mk.inj h
    simp only [id, Function.update_self, InstallStatus.is_installed]
    decide

/-- Nothing but nginx is known. -/
def knows (nginx : InstallStatus) : String → InstallStatus := Function.update (fun _ => .NotInstalled) "nginx" nginx

def nginx : PackageSpec := { name := "nginx" }

private theorem dpkg_rollback (previous_installed : Bool) (previous_version : Option String)
    (t : String → InstallStatus) : ∃ u, perform (rollback dpkg.toPackageBackend
      (checkpoint "nginx" previous_installed previous_version)) t = (.ok (), u) := by
  rw [perform_rollback]
  change ∃ u, perform (restore dpkg.toPackageBackend "nginx" (t "nginx") previous_installed previous_version) t = (.ok (), u)
  unfold restore
  split
  · split
    · split_ifs <;> exact ⟨_, rfl⟩
    · exact ⟨_, rfl⟩
  all_goals exact ⟨_, rfl⟩

private theorem nginx_rolled_back {before : InstallStatus} (h : before.is_installed = false) :
    ∃ u, (ops dpkg.toPackageBackend).RolledBack nginx (knows before) u := by
  obtain ⟨step, hstep⟩ : ∃ step, (ops dpkg.toPackageBackend).Planned nginx (knows before) step :=
    planned_to_install rfl h rfl
  cases before with
  | NotInstalled =>
    obtain ⟨u, hrollback⟩ := dpkg_rollback false none _
    exact ⟨u, step, checkpoint "nginx" false none, hstep, rfl, hrollback⟩
  | Installed status version =>
    obtain ⟨u, hrollback⟩ := dpkg_rollback true (some version) _
    exact ⟨u, step, checkpoint "nginx" true (some version), hstep, rfl, hrollback⟩

/-- A package that dpkg does not know is removed again. -/
theorem unknown_package_comes_back : ∃ u, (ops dpkg.toPackageBackend).RolledBack nginx (knows .NotInstalled) u ∧
    Restored (dpkg.record (knows .NotInstalled) nginx.name) (dpkg.record u nginx.name) := by
  obtain ⟨u, hrun⟩ := nginx_rolled_back (show InstallStatus.NotInstalled.is_installed = false from rfl)
  exact ⟨u, hrun, (rollback_restores_package_iff hrun).mpr (.inl (by decide))⟩

/-- A package that had been removed, with its configuration left, is installed by the rollback. -/
theorem removed_package_is_installed :
    ¬ ∀ (apt : PackageManager (String → InstallStatus)) (spec : PackageSpec) (s u : String → InstallStatus),
      (ops apt.toPackageBackend).RolledBack spec s u → Restored (apt.record s spec.name) (apt.record u spec.name) := by
  intro hall
  have hremoved : (InstallStatus.Installed "deinstall ok config-files" "1.18.0-6").is_installed = false := by
    simp only [InstallStatus.is_installed]
    decide
  obtain ⟨u, hrun⟩ := nginx_rolled_back hremoved
  have hrestored := hall dpkg nginx _ u hrun
  obtain ⟨hunknown, -⟩ | ⟨status, version, -, hinstalled, -⟩ := record_after_rollback hrun
  · cases hunknown
  · exact absurd (hinstalled.symm.trans (hrestored.1.trans hremoved)) (by decide)

end Samples

end iac_providers.package
