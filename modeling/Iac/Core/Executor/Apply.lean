import Iac.Core.Executor

open serde_json effect

namespace iac_core.executor

variable {Host : Type} {exec : Executor Host} {provider : Provider Host} {resource : Resource} {op : Operation}
  {w after : World Host}

section Calls

theorem perform_call {α : Type} (f : Call Host α) (w : World Host) :
    perform (call f) w = ((f w.host).1, { w with host := (f w.host).2 }) := rfl

theorem perform_call_ok {α : Type} {f : Call Host α} {a : α} {host : Host} (h : f w.host = (.ok a, host)) :
    perform (call f) w = (.ok a, { w with host }) := by
  rw [perform_call, h]

theorem perform_call_eq_ok_iff {α : Type} {f : Call Host α} {a : α} :
    perform (call f) w = (.ok a, after) ↔ ∃ host, f w.host = (.ok a, host) ∧ after = { w with host } := by
  rw [perform_call]
  obtain ⟨result, host⟩ := f w.host
  simp only [Prod.mk.injEq]
  constructor
  · rintro ⟨rfl, rfl⟩
    exact ⟨host, ⟨rfl, rfl⟩, rfl⟩
  · rintro ⟨_, ⟨rfl, rfl⟩, rfl⟩
    exact ⟨rfl, rfl⟩

theorem perform_require_eq_ok_iff {kind : String} :
    perform (require exec kind) w = (.ok provider, after) ↔ exec.registry kind = some provider ∧ after = w := by
  rw [require]
  cases hfound : exec.registry kind with
  | none => simp [perform_throw]
  | some found => simp [perform_pure, eq_comm]

theorem perform_draw {α : Type} (source : Nat → α) (w : World Host) :
    perform (draw source : Exec Host α) w = (.ok (source w.drawn), { w with drawn := w.drawn + 1 }) := rfl

theorem perform_emit (event : Event) (w : World Host) :
    perform (emit event : Exec Host Unit) w = (.ok (), { w with events := w.events ++ [event] }) := rfl

end Calls

/-- The resources that have been observed. -/
def observed (events : List Event) : List Resource :=
  events.filterMap fun
    | .observe resource => some resource
    | _ => none

/-- Nothing has been observed in between. -/
def Unobserving (w after : World Host) : Prop := observed after.events = observed w.events

instance : Std.Refl (@Unobserving Host) := ⟨fun _ => rfl⟩

instance : IsTrans (World Host) Unobserving := ⟨fun _ _ _ h₁ h₂ => h₂.trans h₁⟩

private theorem moves_write_checkpoint (workspace : Workspace) (checkpoint : Checkpoint) :
    Moves Unobserving (write_checkpoint workspace checkpoint : Exec Host Unit) := by
  intro w
  change observed (w.events ++ [_]) = observed w.events
  simp [observed]

private theorem moves_run_step (step : Step) : Moves Unobserving (run_step exec provider resource op step) := by
  rw [run_step]
  refine moves_bind (fun _ => rfl) fun _ => moves_bind (fun _ => rfl) fun started_at => ?_
  refine moves_bind (fun _ => rfl) fun pre_data => ?_
  cases pre_data with
  | error e => exact moves_bind (fun _ => rfl) fun _ => moves_pure _
  | ok pre_data =>
    refine moves_bind (fun _ => rfl) fun checkpoint => moves_bind (moves_write_checkpoint _ _) fun _ => ?_
    exact moves_bind (fun _ => rfl) fun result => moves_bind (fun _ => rfl) fun finished_at => moves_pure _

private theorem moves_run_steps (steps : List Step) (records : List StepRecord) :
    Moves Unobserving (run_steps exec provider resource op steps records) := by
  induction steps generalizing records with
  | nil => exact moves_pure _
  | cons step steps ih =>
    rw [run_steps]
    refine moves_bind (moves_run_step step) fun outcome => ?_
    obtain ⟨record, failure⟩ := outcome
    cases failure with
    | some error => exact moves_pure _
    | none => exact ih _

private theorem completes_draw {α : Type} (source : Nat → α) : Completes (draw source : Exec Host α) :=
  fun w => ⟨_, _, perform_draw source w⟩

private theorem completes_run_step (step : Step) : Completes (run_step exec provider resource op step) := by
  rw [run_step]
  refine completes_bind (completes_modify _) fun _ => completes_bind (completes_draw _) fun started_at => ?_
  refine completes_bind (completes_attempt _) fun pre_data => ?_
  cases pre_data with
  | error e => exact completes_bind (completes_draw _) fun _ => completes_pure _
  | ok pre_data =>
    have hcheckpoint : Completes (Checkpoint.with_spec exec resource.id op.id pre_data resource.spec) :=
      completes_bind (completes_draw _) fun _ => completes_bind (completes_draw _) fun _ => completes_pure _
    have hwrite (workspace : Workspace) (checkpoint : Checkpoint) :
        Completes (write_checkpoint workspace checkpoint : Exec Host Unit) :=
      completes_bind (completes_modify _) fun _ => completes_modify _
    refine completes_bind hcheckpoint fun checkpoint => completes_bind (hwrite _ _) fun _ => ?_
    exact completes_bind (completes_attempt _) fun result => completes_bind (completes_draw _) fun _ => completes_pure _

/-- The steps of a resource come to an end whatever fails. -/
theorem completes_run_steps (steps : List Step) (records : List StepRecord) :
    Completes (run_steps exec provider resource op steps records) := by
  induction steps generalizing records with
  | nil => exact completes_pure _
  | cons step steps ih =>
    rw [run_steps]
    refine completes_bind (completes_run_step step) fun outcome => ?_
    obtain ⟨record, failure⟩ := outcome
    cases failure with
    | some error => exact completes_pure _
    | none => exact ih _

/-- On the turn of the resource its kind is registered, and the provider's
`observe` and `diff` do not fail, nor `plan` when there is a change, nor `verify`
when no step has failed. -/
def Answers (exec : Executor Host) (op : Operation) (resource : Resource) (w : World Host) : Prop :=
  ∃ provider, exec.registry resource.kind = some provider ∧
    ∃ observed host₁, provider.observe resource w.host = (.ok observed, host₁) ∧
      ∃ diff host₂, provider.diff resource observed host₁ = (.ok diff, host₂) ∧
        (diff.kind ≠ .NoChange →
          ∃ steps host₃, provider.plan resource (mark_secret_changes resource diff) host₂ = (.ok steps, host₃) ∧
            ∀ records after, perform (run_steps exec provider resource op steps [])
                { w with events := w.events ++ [.observe resource], host := host₃ } = (.ok (records, none), after) →
              ∃ outcome host₄, provider.verify resource after.host = (.ok outcome, host₄))

theorem mark_secret_changes_kind (resource : Resource) (diff : Diff) :
    (mark_secret_changes resource diff).kind = diff.kind := by
  rw [mark_secret_changes]
  split <;> rfl

private theorem completes_write_applied : Completes (write_applied exec resource op.id) :=
  completes_bind (completes_draw _) fun _ => completes_modify _

private theorem completes_verify_one {records : List StepRecord} {outcome : VerifyOutcome} {host : Host}
    (h : provider.verify resource w.host = (.ok outcome, host)) :
    ∃ item after, perform (verify_one exec provider resource op records) w = (.ok item, after) := by
  rw [verify_one, perform_bind_ok (perform_call_ok h)]
  split
  · exact completes_bind completes_write_applied (fun _ => completes_pure _) _
  · exact completes_pure _ _

/-- A resource yields an item exactly when the provider answers. -/
theorem apply_one_ok_iff :
    (∃ item after, perform (apply_one exec resource op) w = (.ok item, after)) ↔ Answers exec op resource w := by
  constructor
  · rintro ⟨item, after, h⟩
    obtain ⟨provider, _, hrequire, h₁⟩ := perform_bind_eq_ok_iff.mp h
    obtain ⟨hprovider, rfl⟩ := perform_require_eq_ok_iff.mp hrequire
    rw [perform_bind_ok (perform_emit _ _)] at h₁
    obtain ⟨observed, _, hrun_observe, h₂⟩ := perform_bind_eq_ok_iff.mp h₁
    obtain ⟨host₁, hobserve, rfl⟩ := perform_call_eq_ok_iff.mp hrun_observe
    obtain ⟨diff, _, hrun_diff, h₃⟩ := perform_bind_eq_ok_iff.mp h₂
    obtain ⟨host₂, hdiff, rfl⟩ := perform_call_eq_ok_iff.mp hrun_diff
    refine ⟨provider, hprovider, observed, host₁, hobserve, diff, host₂, hdiff, fun hchange => ?_⟩
    rw [mark_secret_changes_kind, if_neg hchange] at h₃
    obtain ⟨steps, _, hrun_plan, h₄⟩ := perform_bind_eq_ok_iff.mp h₃
    obtain ⟨host₃, hplan, rfl⟩ := perform_call_eq_ok_iff.mp hrun_plan
    refine ⟨steps, host₃, hplan, fun records stepped hsteps => ?_⟩
    rw [perform_bind_ok hsteps] at h₄
    obtain ⟨outcome, _, hrun_verify, -⟩ := perform_bind_eq_ok_iff.mp h₄
    obtain ⟨host₄, hverify, rfl⟩ := perform_call_eq_ok_iff.mp hrun_verify
    exact ⟨outcome, host₄, hverify⟩
  · rintro ⟨provider, hprovider, observed, host₁, hobserve, diff, host₂, hdiff, hchange⟩
    have hobserved : perform (call (provider.observe resource)) { w with events := w.events ++ [.observe resource] } =
        (.ok observed, { w with events := w.events ++ [.observe resource], host := host₁ }) := perform_call_ok hobserve
    have hcompared : perform (call (provider.diff resource observed))
        { w with events := w.events ++ [.observe resource], host := host₁ } =
        (.ok diff, { w with events := w.events ++ [.observe resource], host := host₂ }) := perform_call_ok hdiff
    rw [apply_one, perform_bind_ok (perform_require_eq_ok_iff.mpr ⟨hprovider, rfl⟩), perform_bind_ok (perform_emit _ _),
      perform_bind_ok hobserved, perform_bind_ok hcompared, mark_secret_changes_kind]
    split
    · exact completes_bind completes_write_applied (fun _ => completes_pure _) _
    · next hne =>
      obtain ⟨steps, host₃, hplan, hverify⟩ := hchange hne
      have hplanned : perform (call (provider.plan resource (mark_secret_changes resource diff)))
          { w with events := w.events ++ [.observe resource], host := host₂ } =
          (.ok steps, { w with events := w.events ++ [.observe resource], host := host₃ }) := perform_call_ok hplan
      rw [apply_changes, perform_bind_ok hplanned]
      obtain ⟨⟨records, last_error⟩, stepped, hsteps⟩ := completes_run_steps steps [] _
      rw [perform_bind_ok hsteps]
      cases last_error with
      | some error => exact completes_pure _ _
      | none =>
        obtain ⟨outcome, host₄, hverify⟩ := hverify records stepped hsteps
        exact completes_verify_one hverify

private theorem moves_apply_changes (diff : Diff) : Moves Unobserving (apply_changes exec provider resource op diff) := by
  refine moves_bind (fun _ => rfl) fun steps => moves_bind (moves_run_steps _ _) fun outcome => ?_
  obtain ⟨records, last_error⟩ := outcome
  cases last_error with
  | some error => exact moves_pure _
  | none =>
    refine moves_bind (fun _ => rfl) fun verify => ?_
    split
    · exact moves_bind (fun _ => rfl) fun _ => moves_pure _
    · exact moves_pure _

/-- The item names the resource. -/
def ItemOf (resource : Resource) (item : ApplyItem) : Prop := item.resource_id = resource.id ∧ item.kind = resource.kind

private theorem yields_apply_changes (diff : Diff) : Yields (ItemOf resource) (apply_changes exec provider resource op diff) := by
  refine yields_bind _ fun steps => yields_bind _ fun outcome => ?_
  obtain ⟨records, last_error⟩ := outcome
  cases last_error with
  | some error => exact yields_pure ⟨rfl, rfl⟩
  | none =>
    refine yields_bind _ fun verify => ?_
    split
    · exact yields_bind _ fun _ => yields_pure ⟨rfl, rfl⟩
    · exact yields_pure ⟨rfl, rfl⟩

/-- Every item is the one of its resource. -/
theorem yields_apply_one : Yields (ItemOf resource) (apply_one exec resource op) := by
  refine yields_bind _ fun provider => yields_bind _ fun _ => yields_bind _ fun seen => yields_bind _ fun diff => ?_
  split
  · exact yields_bind _ fun _ => yields_pure ⟨rfl, rfl⟩
  · exact yields_apply_changes _

/-- A resource that yields an item has been observed. -/
theorem apply_one_observes {item : ApplyItem} (h : perform (apply_one exec resource op) w = (.ok item, after)) :
    observed after.events = observed w.events ++ [resource] := by
  obtain ⟨provider, required, hrun_require, h₁⟩ := perform_bind_eq_ok_iff.mp h
  obtain ⟨-, hsame⟩ := perform_require_eq_ok_iff.mp hrun_require
  rw [hsame, perform_bind_ok (perform_emit _ _)] at h₁
  have hrest : Moves Unobserving (do
      let observed ← call (provider.observe resource)
      let diff ← call (provider.diff resource observed)
      if (mark_secret_changes resource diff).kind = .NoChange then do
        write_applied exec resource op.id
        return { resource_id := resource.id, kind := resource.kind, status := .NoChange, steps := [], verify := none,
                 error := none }
      else
        apply_changes exec provider resource op (mark_secret_changes resource diff)) := by
    refine moves_bind (fun _ => rfl) fun seen => moves_bind (fun _ => rfl) fun diff => ?_
    split
    · exact moves_bind (fun _ => rfl) fun _ => moves_pure _
    · exact moves_apply_changes _
  have hkept := hrest { w with events := w.events ++ [.observe resource] }
  rw [h₁, Unobserving] at hkept
  rw [hkept]
  simp [observed]

/-- The providers answer on the turn of each of the resources. -/
def AllAnswer (exec : Executor Host) (op : Operation) : List Resource → World Host → Prop
  | [], _ => True
  | resource :: resources, w =>
    Answers exec op resource w ∧ AllAnswer exec op resources (perform (apply_one exec resource op) w).2

/-- The loop fails when a provider does not answer. -/
theorem apply_all_ok {resources : List Resource} {items : List ApplyItem} {failed changed : Bool}
    {result : List ApplyItem × Bool × Bool}
    (h : perform (apply_all exec op resources items failed changed) w = (.ok result, after)) :
    AllAnswer exec op resources w := by
  induction resources generalizing w items failed changed with
  | nil => trivial
  | cons resource resources ih =>
    obtain ⟨item, mid, hone, hrest⟩ := perform_bind_eq_ok_iff.mp h
    refine ⟨apply_one_ok_iff.mp ⟨item, mid, hone⟩, ?_⟩
    rw [hone]
    exact ih hrest

/-- What the loop has made of the resources when every provider answers: an item
for each, in order, and whether one failed and one succeeded. -/
structure Applied (resources : List Resource) (items : List ApplyItem) (failed changed : Bool)
    (result : List ApplyItem × Bool × Bool) (w after : World Host) : Prop where
  appended : ∃ added, result.1 = items ++ added ∧ List.Forall₂ ItemOf resources added ∧
    (result.2.1 = true ↔ failed = true ∨ ∃ item ∈ added, item.status = .Failed) ∧
    (result.2.2 = true ↔ changed = true ∨ ∃ item ∈ added, item.status = .Succeeded)
  observed : observed after.events = observed w.events ++ resources

theorem apply_all_applied {resources : List Resource} {items : List ApplyItem} {failed changed : Bool}
    (h : AllAnswer exec op resources w) :
    ∃ result after, perform (apply_all exec op resources items failed changed) w = (.ok result, after) ∧
      Applied resources items failed changed result w after := by
  induction resources generalizing w items failed changed with
  | nil => exact ⟨_, w, rfl, ⟨[], by simp⟩, by simp⟩
  | cons resource resources ih =>
    obtain ⟨hanswers, hrest⟩ := h
    obtain ⟨item, mid, hone⟩ := apply_one_ok_iff.mpr hanswers
    rw [hone] at hrest
    obtain ⟨result, after, hrun, ⟨added, hitems, hall, hfailed, hchanged⟩, hobserved⟩ :=
      @ih mid (items ++ [item]) (failed || item.status = .Failed) (changed || item.status = .Succeeded) hrest
    refine ⟨result, after, by rw [apply_all, perform_bind_ok hone, hrun], ⟨item :: added, ?_, ?_, ?_, ?_⟩, ?_⟩
    · rw [hitems, List.append_assoc, List.singleton_append]
    · exact .cons (yields_apply_one _ _ _ hone) hall
    · rw [hfailed]
      simp [or_assoc]
    · rw [hchanged]
      simp [or_assoc]
    · rw [hobserved, apply_one_observes hone, List.append_assoc, List.singleton_append]

section Whole

variable (exec : Executor Host) (w : World Host)

/-- The operation of an apply that starts in the world. -/
def started_operation : Operation where
  id := exec.ulid w.drawn
  kind := "apply"
  status := .Running
  source_commit := none
  requested_by := exec.actor
  created_at := exec.now (w.drawn + 1)
  started_at := some (exec.now (w.drawn + 2))
  finished_at := none

/-- The world at the start of the loop of `apply`. -/
def started : World Host :=
  { w with
    drawn := w.drawn + 3
    operations := w.operations.insert (exec.ulid w.drawn) ((w.operations.lookup (exec.ulid w.drawn)).getD {}) }

theorem perform_apply (resources : List Resource) : perform (apply exec resources) w =
    perform (do
      let outcome ← apply_all exec (started_operation exec w) resources [] false false
      finish_apply exec (started_operation exec w) outcome.1 outcome.2.1 outcome.2.2) (started exec w) := rfl

end Whole

/-- `apply` returns an item for each resource, in order, has observed every
resource, and its status says what became of them. -/
def Covers (exec : Executor Host) (resources : List Resource) (w : World Host) : Prop :=
  ∃ result after, perform (apply exec resources) w = (.ok result, after) ∧
    List.Forall₂ ItemOf resources result.items ∧
    observed after.events = observed w.events ++ resources ∧
    (result.operation.status = .PartiallyApplied ↔
      (∃ item ∈ result.items, item.status = .Failed) ∧ ∃ item ∈ result.items, item.status = .Succeeded) ∧
    (result.operation.status = .Failed ↔
      (∃ item ∈ result.items, item.status = .Failed) ∧ ¬ ∃ item ∈ result.items, item.status = .Succeeded) ∧
    (result.operation.status = .Succeeded ↔ ¬ ∃ item ∈ result.items, item.status = .Failed)

private theorem finish_apply_spec (items : List ApplyItem) (any_failed any_changed : Bool) (w : World Host) :
    ∃ finished after, perform (finish_apply exec op items any_failed any_changed) w =
        (.ok ⟨{ op with finished_at := some finished, status := final_status any_failed any_changed }, items⟩, after) ∧
      after.events = w.events := ⟨_, _, rfl, rfl⟩

/-- `apply` covers the resources exactly when on the turn of each its kind is
registered and its provider does not fail to observe, compare, plan or verify. -/
theorem apply_covers_iff (exec : Executor Host) (resources : List Resource) (w : World Host) :
    Covers exec resources w ↔ AllAnswer exec (started_operation exec w) resources (started exec w) := by
  constructor
  · rintro ⟨result, after, hrun, -⟩
    rw [perform_apply] at hrun
    obtain ⟨outcome, mid, hloop, -⟩ := perform_bind_eq_ok_iff.mp hrun
    exact apply_all_ok hloop
  · intro hanswers
    obtain ⟨⟨items, failed, changed⟩, mid, hloop, ⟨added, hitems, hall, hfailed, hchanged⟩, hobserved⟩ :=
      @apply_all_applied Host exec _ _ resources [] false false hanswers
    obtain ⟨finished, after, hfinish, hevents⟩ :=
      @finish_apply_spec Host exec (started_operation exec w) items failed changed mid
    rw [List.nil_append] at hitems
    subst hitems
    refine ⟨_, after, by rw [perform_apply, perform_bind_ok hloop, hfinish], hall, by rw [hevents, hobserved]; rfl, ?_⟩
    simp only [Bool.false_eq_true, false_or] at hfailed hchanged
    rw [← hfailed, ← hchanged]
    cases failed <;> cases changed <;> simp [final_status]

section Samples

/-- A provider that cannot observe the resource `a`. -/
def blind_provider : Provider Unit where
  observe resource _ :=
    if resource.name = "a" then (.error (.Provider "file" "permission denied"), ()) else (.ok ⟨false, .null, []⟩, ())
  diff _ _ _ := (.ok ⟨.Create, [], [], true⟩, ())
  plan _ _ _ := (.ok [], ())
  pre_apply _ _ _ _ := (.ok .null, ())
  apply _ _ _ _ := (.ok ⟨.Succeeded, "done", .null, none⟩, ())
  verify _ _ := (.ok .Match, ())
  rollback _ _ _ _ := (.ok (), ())

def blind_executor : Executor Unit where
  registry kind := if kind = "file" then some blind_provider else none
  state_dir := "/var/lib/iac-agent"
  actor := "agent"
  sha256_hex _ := ""
  ulid n := Fin.ofNat _ n
  now _ := ⟨0, jiff.year_zero_in_range⟩

def sample_file (name : String) : Resource := ⟨"iac.example/v1", "file", name, "prod", [], .null⟩

/-- The resource `a` cannot be observed, and `b` is not attempted. -/
theorem failed_observe_ends_apply : ¬ ∀ (exec : Executor Unit) (resources : List Resource) (w : World Unit),
    Covers exec resources w := by
  intro hall
  have hfailed : (perform (apply blind_executor [sample_file "a", sample_file "b"]) { host := () }).1.toBool = false := by
    decide
  obtain ⟨result, after, hrun, -⟩ := hall blind_executor [sample_file "a", sample_file "b"] { host := () }
  rw [hrun] at hfailed
  cases hfailed

end Samples

end iac_core.executor
