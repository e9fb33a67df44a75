import Iac.Agent.Capabilities
import Iac.Providers.Cron
import Iac.Providers.File.Spec

open effect iac_core iac_core.executor iac_core.protocol iac_providers serde_json

namespace iac_agent.capabilities

/-- The registry, with the file and cron providers under their kinds. -/
def builtins (others : Registry) : Registry := fun kind =>
  if kind = "file" then some file.capability_keys
  else if kind = "cron.job" then some cron.capability_keys
  else others kind

/-- No deny glob matches, and an allow glob does where there is an allow list. -/
def PathRules.Permits (rules : PathRules) (path : String) : Prop :=
  (∀ deny, rules.deny = some deny → deny path = false) ∧ ∀ allow, rules.allow = some allow → allow path = true

def NameRules.Permits (rules : NameRules) (name : String) : Prop :=
  ∀ allow, rules.allow = some allow → allow name = true

/-- The path as the kernel takes it when no symbolic link is on it. -/
def normal_path (p : String) : String := String.ofList (path.normal p.toList)

/-- The directory that cron reads. -/
def cron_d : List (List Char) := ["etc".toList, "cron.d".toList]

section Check

variable {caps : Capabilities} {others : Registry} {resource : Resource} {id kind : String}

theorem PathRules.check_ok_iff {rules : PathRules} {path : String} :
    rules.check id kind path = .ok () ↔ rules.Permits path := by
  obtain ⟨allow, deny⟩ := rules
  rw [PathRules.check, PathRules.Permits]
  cases deny with
  | none => cases allow <;> simp
  | some deny =>
    cases hdeny : deny path with
    | true => simp [hdeny]
    | false => cases allow <;> simp [hdeny]

theorem NameRules.check_ok_iff {rules : NameRules} {name : String} :
    rules.check id kind name = .ok () ↔ rules.Permits name := by
  obtain ⟨allow⟩ := rules
  rw [NameRules.check, NameRules.Permits]
  cases allow <;> simp

theorem check_file_iff (hkind : resource.kind = "file") :
    caps.check (builtins others) resource = .ok () ↔
      ∃ spec, file.FileSpec.from_value resource.spec = .ok spec ∧ caps.files.Permits spec.path := by
  have hregistered : builtins others resource.kind = some file.capability_keys := by simp [builtins, hkind]
  rw [check_ok_iff hregistered, file.capability_keys, file.parse_spec]
  cases file.FileSpec.from_value resource.spec with
  | error e => simp [bind, Except.bind]
  | ok spec =>
    simp [bind, Except.bind, pure, Except.pure, Capabilities.check_key, hkind, PathRules.check_ok_iff]

theorem check_cron_iff (hkind : resource.kind = "cron.job") :
    caps.check (builtins others) resource = .ok () ↔
      ∃ spec, cron.CronJobSpec.from_value resource.spec = .ok spec ∧ caps.cron.Permits spec.name := by
  have hregistered : builtins others resource.kind = some cron.capability_keys := by simp [builtins, hkind]
  rw [check_ok_iff hregistered, cron.capability_keys, cron.parse_spec]
  cases cron.CronJobSpec.from_value resource.spec with
  | error e => simp [bind, Except.bind]
  | ok spec =>
    simp [bind, Except.bind, pure, Except.pure, Capabilities.check_key, hkind, NameRules.check_ok_iff]

end Check

section Detours

variable {caps : Capabilities} {others : Registry} {resources : List Resource} {spec : cron.CronJobSpec}

theorem config_path_resolve (hvalid : spec.validate = .ok ()) :
    path.resolve spec.config_path = path.resolve (spec.cron_dir.getD "/etc/cron.d").toList ++ [spec.name.toList] := by
  obtain ⟨hplain, habsolute⟩ := cron.CronJobSpec.validate_ok hvalid
  apply path.resolve_join hplain
  cases hdir : spec.cron_dir with
  | none => decide
  | some dir =>
    intro hempty
    have h := habsolute dir hdir
    rw [Option.getD_some] at hempty
    simp [hempty, path.is_absolute] at h

/-- A job is written to cron's directory exactly when no other directory is named. -/
theorem config_path_in_cron_d_iff (hvalid : spec.validate = .ok ()) :
    path.normal spec.config_path = path.render (cron_d ++ [spec.name.toList]) ↔
      ∀ dir, spec.cron_dir = some dir → path.resolve dir.toList = cron_d := by
  have hplain := (cron.CronJobSpec.validate_ok hvalid).1
  have hcron_d : ∀ n ∈ cron_d, path.Plain n := path.plain_of_mem_resolve "/etc/cron.d".toList
  have hnormal : path.normal spec.config_path = path.render (cron_d ++ [spec.name.toList]) ↔
      path.resolve spec.config_path = cron_d ++ [spec.name.toList] := by
    refine ⟨fun h => ?_, fun h => by rw [path.normal, h]⟩
    rw [← path.resolve_normal, h, path.resolve_render]
    intro n hn
    obtain hdir | hname := List.mem_append.mp hn
    · exact hcron_d n hdir
    · exact List.mem_singleton.mp hname ▸ hplain
  rw [hnormal, config_path_resolve hvalid, List.append_cancel_right_eq]
  cases spec.cron_dir with
  | none =>
    simp only [Option.getD_none, reduceCtorEq, false_imp_iff, implies_true, iff_true]
    decide
  | some dir => simp

/-- Where the resources that the executor gets are written: files at paths the rules
permit, and under a cron allow list jobs in cron's directory under an allowed name. -/
structure Kept (caps : Capabilities) (resources : List Resource) : Prop where
  files : ∀ r ∈ resources, r.kind = "file" → ∀ spec, file.FileSpec.from_value r.spec = .ok spec →
    caps.files.Permits (normal_path spec.path)
  crons : caps.cron.allow.isSome = true → ∀ r ∈ resources, r.kind = "cron.job" →
    ∀ spec, cron.CronJobSpec.from_value r.spec = .ok spec →
      caps.cron.Permits spec.name ∧ path.normal spec.config_path = path.render (cron_d ++ [spec.name.toList])

/-- The rules say the same of each path and of its normal form, and under a cron
allow list no job names a directory other than cron's. -/
structure NoDetour (caps : Capabilities) (resources : List Resource) : Prop where
  files : ∀ r ∈ resources, r.kind = "file" → ∀ spec, file.FileSpec.from_value r.spec = .ok spec →
    (caps.files.Permits (normal_path spec.path) ↔ caps.files.Permits spec.path)
  crons : caps.cron.allow.isSome = true → ∀ r ∈ resources, r.kind = "cron.job" →
    ∀ spec, cron.CronJobSpec.from_value r.spec = .ok spec →
      ∀ dir, spec.cron_dir = some dir → path.resolve dir.toList = cron_d

theorem kept_iff_no_detour (hpass : ∀ r ∈ resources, caps.check (builtins others) r = .ok ()) :
    Kept caps resources ↔ NoDetour caps resources := by
  have hfile : ∀ r ∈ resources, r.kind = "file" → ∀ spec, file.FileSpec.from_value r.spec = .ok spec →
      caps.files.Permits spec.path := by
    intro r hr hkind spec hspec
    obtain ⟨spec', hspec', hpermits⟩ := (check_file_iff hkind).mp (hpass r hr)
    rw [hspec] at hspec'
    exact Except.ok.inj hspec' ▸ hpermits
  have hcron : ∀ r ∈ resources, r.kind = "cron.job" → ∀ spec, cron.CronJobSpec.from_value r.spec = .ok spec →
      caps.cron.Permits spec.name := by
    intro r hr hkind spec hspec
    obtain ⟨spec', hspec', hpermits⟩ := (check_cron_iff hkind).mp (hpass r hr)
    rw [hspec] at hspec'
    exact Except.ok.inj hspec' ▸ hpermits
  constructor
  · intro h
    refine ⟨fun r hr hkind spec hspec => ?_, fun hallow r hr hkind spec hspec => ?_⟩
    · exact iff_of_true (h.files r hr hkind spec hspec) (hfile r hr hkind spec hspec)
    · have hwritten := (h.crons hallow r hr hkind spec hspec).2
      exact (config_path_in_cron_d_iff (cron.CronJobSpec.from_value_ok hspec)).mp hwritten
  · intro h
    refine ⟨fun r hr hkind spec hspec => ?_, fun hallow r hr hkind spec hspec => ?_⟩
    · exact (h.files r hr hkind spec hspec).mpr (hfile r hr hkind spec hspec)
    · refine ⟨hcron r hr hkind spec hspec, ?_⟩
      exact (config_path_in_cron_d_iff (cron.CronJobSpec.from_value_ok hspec)).mpr
        (h.crons hallow r hr hkind spec hspec)

end Detours

section Gate

variable {Host : Type}

/-- What the gate is for: one refusal and nothing happens; what the executor gets has
passed and is written where the rules permit it. -/
structure GateHolds (exec : Executor Host) (caps : Capabilities) (others : Registry) (env : AssignmentEnvelope) :
    Prop where
  refusal_stops : ∀ resources, env.payload.resources.mapM Resource.of_value = some resources →
    (∃ r ∈ resources, caps.check (builtins others) r ≠ .ok ()) →
      ∀ w, (perform (execute_assignment exec (some caps) (builtins others) env) w).2 = w
  handed_over : ∀ resources, admission (some caps) (builtins others) env = .handed resources →
    env.payload.resources.mapM Resource.of_value = some resources ∧
      (∀ r ∈ resources, caps.check (builtins others) r = .ok ()) ∧ Kept caps resources

theorem refusal_changes_nothing {exec : Executor Host} {caps : Capabilities} {registry : Registry}
    {env : AssignmentEnvelope} {resources : List Resource}
    (hdecoded : env.payload.resources.mapM Resource.of_value = some resources)
    (hdenied : ∃ r ∈ resources, caps.check registry r ≠ .ok ()) (w : World Host) :
    (perform (execute_assignment exec (some caps) registry env) w).2 = w := by
  apply execute_assignment_of_not_handed
  intro handed hhanded
  obtain ⟨-, hsame, hpass⟩ := admit_handed_iff.mp hhanded
  obtain rfl : resources = handed := Option.some.inj (hdecoded.symm.trans hsame)
  obtain ⟨r, hr, hnot⟩ := hdenied
  exact hnot (hpass r hr)

/-- Refusals stop the assignment; what passes is written where the rules permit it exactly
when no spelling of a path and no other cron directory leads round them. -/
theorem capability_gate_holds_iff (exec : Executor Host) (caps : Capabilities) (others : Registry)
    (env : AssignmentEnvelope) :
    GateHolds exec caps others env ↔ ∀ resources, env.kind = "apply" →
      env.payload.resources.mapM Resource.of_value = some resources →
        (∀ r ∈ resources, caps.check (builtins others) r = .ok ()) → NoDetour caps resources := by
  constructor
  · intro h resources hkind hdecoded hpass
    have hkept := (h.handed_over resources (admit_handed_iff.mpr ⟨hkind, hdecoded, hpass⟩)).2.2
    exact (kept_iff_no_detour hpass).mp hkept
  · intro h
    refine ⟨fun resources hdecoded hdenied w => refusal_changes_nothing hdecoded hdenied w, fun resources hhanded => ?_⟩
    obtain ⟨hkind, hdecoded, hpass⟩ := admit_handed_iff.mp hhanded
    exact ⟨hdecoded, hpass, (kept_iff_no_detour hpass).mpr (h resources hkind hdecoded hpass)⟩

private def nginx_only : Capabilities where
  files := { allow := some fun p => "/etc/nginx/".toList.isPrefixOf p.toList }

private def shadow_spec : Value :=
  .object [("content", .string "root::0:0:99999:7:::"), ("path", .string "/etc/nginx/../shadow")]

private def shadow_resource : Resource where
  api_version := "iac.example/v1"
  kind := "file"
  name := "shadow"
  environment := "default"
  annotations := []
  spec := shadow_spec

private def shadow : Value :=
  .object [("apiVersion", .string "iac.example/v1"), ("kind", .string "file"),
    ("metadata", .object [("name", .string "shadow")]), ("spec", shadow_spec)]

private def shadow_assignment : AssignmentEnvelope where
  assignment_id := "1"
  operation_id := "op"
  kind := "apply"
  created_at := "2026-05-01T00:00:00Z"
  expires_at := none
  payload := ⟨[shadow]⟩
  key_id := "k1"
  signature := ""

/-- Under an allow list of `/etc/nginx/**` a file resource reaches `/etc/shadow`. -/
theorem dot_dot_passes_the_gate :
    ¬ ∀ (Host : Type) (exec : Executor Host) (caps : Capabilities) (others : Registry) (env : AssignmentEnvelope),
      GateHolds exec caps others env := by
  intro h
  let exec : Executor Unit := ⟨fun _ => none, "", "", fun _ => "", fun _ => 0, fun _ => ⟨0, by decide⟩⟩
  have hdecoded : shadow_assignment.payload.resources.mapM Resource.of_value = some [shadow_resource] := rfl
  have hspec : file.FileSpec.from_value shadow_resource.spec =
      .ok { path := "/etc/nginx/../shadow", content := some "root::0:0:99999:7:::" } := by rfl
  have hpermits : nginx_only.files.Permits "/etc/nginx/../shadow" := by
    refine ⟨by simp [nginx_only], fun allow hallow => ?_⟩
    obtain rfl := Option.some.inj hallow
    decide
  have hpass : ∀ r ∈ [shadow_resource], nginx_only.check (builtins fun _ => none) r = .ok () := by
    intro r hr
    obtain rfl := List.mem_singleton.mp hr
    exact (check_file_iff rfl).mpr ⟨_, hspec, hpermits⟩
  have hhanded := admit_handed_iff.mpr ⟨rfl, hdecoded, hpass⟩
  have hkept := ((h Unit exec nginx_only (fun _ => none) shadow_assignment).handed_over _ hhanded).2.2
  have hnormal := (hkept.files shadow_resource List.mem_cons_self rfl _ hspec).2 _ rfl
  revert hnormal
  decide

end Gate

end iac_agent.capabilities
