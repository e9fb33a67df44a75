import Iac.Collections.Fallible
import Iac.Collections.Run
import Iac.Core.Executor

open iac_core iac_core.executor serde_json effect transition

namespace iac_core.executor

def Step.new (id : Ulid) (action description : String) (payload : Value) : Step :=
  { id, action, description, reversible := true, payload, status := .Pending, started_at := none, finished_at := none }

def StepResult.ok (message : String) : StepResult := ⟨.Succeeded, message, .null, none⟩

end iac_core.executor

namespace iac_providers

/-- The operations of a provider on a spec. Those that only look are functions of the host. -/
structure Ops (Host Spec : Type) where
  observe : Spec → Host → Except Error ObservedState
  diff : Spec → ObservedState → Except Error Diff
  plan : Ulid → Spec → Diff → List Step
  pre_apply : Spec → Host → Except Error Value
  apply : Spec → Step → Value → Prog Host Error StepResult
  rollback : Spec → Value → Prog Host Error Unit

variable {Host Spec : Type}

namespace Ops

/-- `diff` of a fresh observation. -/
def drift (ops : Ops Host Spec) (spec : Spec) (host : Host) : Except Error Diff := do
  let observed ← ops.observe spec host
  ops.diff spec observed

/-- `diff` of a fresh observation reports no change. -/
def NoChange (ops : Ops Host Spec) (spec : Spec) (host : Host) : Prop :=
  ∃ d, ops.drift spec host = .ok d ∧ d.is_change = false

/-- The step is planned for what is observed. -/
def Planned (ops : Ops Host Spec) (spec : Spec) (host : Host) (step : Step) : Prop :=
  ∃ id d, ops.drift spec host = .ok d ∧ step ∈ ops.plan id spec d

/-- `pre_apply`, the planned step with either outcome, which leaves `t`, and a
rollback that returns Ok, from one host to the other. -/
def RolledBackFrom (ops : Ops Host Spec) (spec : Spec) (s t u : Host) : Prop :=
  ∃ step checkpoint, ops.Planned spec s step ∧ ops.pre_apply spec s = .ok checkpoint ∧
    (perform (ops.apply spec step checkpoint) s).2 = t ∧ perform (ops.rollback spec checkpoint) t = (.ok (), u)

/-- `pre_apply`, the planned step with either outcome, and a rollback that
returns Ok, from one host to the other. -/
def RolledBack (ops : Ops Host Spec) (spec : Spec) (s u : Host) : Prop :=
  ∃ step checkpoint, ops.Planned spec s step ∧ ops.pre_apply spec s = .ok checkpoint ∧
    perform (ops.rollback spec checkpoint) (perform (ops.apply spec step checkpoint) s).2 = (.ok (), u)

/-- The provider that reads the spec of the resource before each operation.
`saved` is what the checkpoint file holds when a step is applied. -/
def provider (ops : Ops Host Spec) (kind : String) (from_value : Value → Except String Spec) (id : Ulid)
    (saved : ApplyContext → Value) : executor.Provider Host :=
  let parse_spec (r : Resource) : Except Error Spec :=
    match from_value r.spec with
    | .ok spec => .ok spec
    | .error e => .error (.Validation r.id.to_string ("invalid " ++ kind ++ " spec: " ++ e))
  { observe := fun r host => (do ops.observe (← parse_spec r) host, host)
    diff := fun r observed host => (do ops.diff (← parse_spec r) observed, host)
    plan := fun r d host => (do return ops.plan id (← parse_spec r) d, host)
    pre_apply := fun r _ _ host => (do ops.pre_apply (← parse_spec r) host, host)
    apply := fun r step ctx host =>
      match parse_spec r with
      | .ok spec => perform (ops.apply spec step (saved ctx)) host
      | .error e => (.error e, host)
    verify := fun r host =>
      (do
        let d ← ops.drift (← parse_spec r) host
        return if d.is_change then .Mismatch d.changes else .Match, host)
    rollback := fun r checkpoint _ host =>
      match parse_spec r with
      | .ok spec => perform (ops.rollback spec checkpoint.data) host
      | .error e => (.error e, host) }

/-- `verify` reports a match where a fresh observation shows no change. -/
theorem verify_match {ops : Ops Host Spec} {kind : String} {from_value : Value → Except String Spec} {id : Ulid}
    {saved : ApplyContext → Value} {r : Resource} {spec : Spec} {host : Host} (hspec : from_value r.spec = .ok spec)
    (h : ops.NoChange spec host) : (ops.provider kind from_value id saved).verify r host = (.ok .Match, host) := by
  obtain ⟨d, hdrift, hchange⟩ := h
  simp only [provider, hspec]
  refine Prod.ext (fallible.bind_eq_ok_iff.mpr ⟨spec, rfl, fallible.bind_eq_ok_iff.mpr ⟨d, hdrift, ?_⟩⟩) rfl
  simp [hchange, pure, Except.pure]

/-- The step that a cycle plans, with the checkpoint that is saved before it. -/
def planned_step (ops : Ops Host Spec) (id : Ulid) (spec : Spec) (host : Host) : Except Error (Option (Step × Value)) := do
  let d ← ops.drift spec host
  match ops.plan id spec d with
  | [] => return none
  | step :: _ => return some (step, ← ops.pre_apply spec host)

theorem planned_step_ok {ops : Ops Host Spec} {id : Ulid} {spec : Spec} {host : Host} {step : Step} {saved : Value}
    (h : ops.planned_step id spec host = .ok (some (step, saved))) :
    ops.pre_apply spec host = .ok saved ∧ ∃ d, ops.drift spec host = .ok d ∧ step ∈ ops.plan id spec d := by
  obtain ⟨d, hdrift, h⟩ := fallible.bind_eq_ok_iff.mp h
  split at h
  · cases h
  · next first rest hsteps =>
    obtain ⟨saved', hsaved, hreturn⟩ := fallible.bind_eq_ok_iff.mp h
    obtain ⟨rfl, rfl⟩ := Prod.mk.inj (Option.some.inj (Except.ok.inj hreturn))
    exact ⟨hsaved, d, hdrift, hsteps ▸ List.mem_cons_self⟩

end Ops

/-- The cycles of a provider for the specs that `admits` names, with what
others do to the host between them. -/
structure Cycles (Host Spec Act : Type) where
  ops : Ops Host Spec
  admits : Spec → Bool
  act : Act → Host → Host

/-- A host with the checkpoints that were saved, the latest first. -/
structure Cycled (Host Spec : Type) where
  host : Host
  saved : List (Spec × Value) := []

/-- A cycle up to its step, a rollback to a saved checkpoint, or what others do. -/
inductive Event (Spec Act : Type) where
  | apply (id : Ulid) (spec : Spec)
  | rollback (i : Nat)
  | outside (a : Act)

/-- What is asked of each event. -/
structure Condition (Host Spec Act : Type) where
  apply : Spec → Step → Value → Host → Prop
  rollback : Spec → Value → Host → Prop
  outside : Act → Host → Prop

namespace Cycles

variable {Act : Type} (c : Cycles Host Spec Act)

/-- A cycle in which nothing is planned, or that fails before its step, is none. -/
def step (w : Cycled Host Spec) : Event Spec Act → Option (Cycled Host Spec)
  | .apply id spec =>
    if c.admits spec then
      match c.ops.planned_step id spec w.host with
      | .ok (some (step, saved)) => some ⟨(perform (c.ops.apply spec step saved) w.host).2, (spec, saved) :: w.saved⟩
      | _ => none
    else none
  | .rollback i =>
    (w.saved[i]?).map fun (spec, saved) => { w with host := (perform (c.ops.rollback spec saved) w.host).2 }
  | .outside a => some { w with host := c.act a w.host }

def fair (cond : Condition Host Spec Act) (w : Cycled Host Spec) : Event Spec Act → Prop
  | .apply id spec => ∀ step saved, c.ops.planned_step id spec w.host = .ok (some (step, saved)) →
      cond.apply spec step saved w.host
  | .rollback i => ∀ spec saved, w.saved[i]? = some (spec, saved) → cond.rollback spec saved w.host
  | .outside a => cond.outside a w.host

variable {c} {cond : Condition Host Spec Act} {I : Host → Prop} {start : Host} {w : Cycled Host Spec}

/-- What every operation keeps holds throughout the cycles. -/
theorem invariant (hrun : Run c.step (c.fair cond) ⟨start, []⟩ w) (hstart : I start)
    (happly : ∀ h id spec step saved, I h → c.admits spec = true →
      c.ops.planned_step id spec h = .ok (some (step, saved)) → cond.apply spec step saved h →
      I (perform (c.ops.apply spec step saved) h).2)
    (hrollback : ∀ h before spec saved, I h → I before → c.admits spec = true → c.ops.pre_apply spec before = .ok saved →
      cond.rollback spec saved h → I (perform (c.ops.rollback spec saved) h).2)
    (houtside : ∀ h a, I h → cond.outside a h → I (c.act a h)) : I w.host := by
  have hsound : I w.host ∧ ∀ entry ∈ w.saved, c.admits entry.1 = true ∧
      ∃ before, I before ∧ c.ops.pre_apply entry.1 before = .ok entry.2 := by
    refine hrun.invariant (I := fun w => I w.host ∧ ∀ entry ∈ w.saved, c.admits entry.1 = true ∧
      ∃ before, I before ∧ c.ops.pre_apply entry.1 before = .ok entry.2) ⟨hstart, by simp⟩ ?_
    rintro t u (⟨id, spec⟩ | i | a) ⟨hkept, hsaved⟩ hfair hstep
    · simp only [step] at hstep
      split_ifs at hstep with hadmits
      split at hstep
      · next planned saved hplanned =>
        obtain rfl := Option.some.inj hstep
        have hcheckpoint := (Ops.planned_step_ok hplanned).1
        exact ⟨happly _ id spec planned saved hkept hadmits hplanned (hfair planned saved hplanned),
          List.forall_mem_cons.mpr ⟨⟨hadmits, _, hkept, hcheckpoint⟩, hsaved⟩⟩
      · cases hstep
    · obtain ⟨⟨spec, saved⟩, hentry, rfl⟩ := Option.map_eq_some_iff.mp hstep
      obtain ⟨hadmits, before, hbefore, hcheckpoint⟩ := hsaved _ (List.mem_of_getElem? hentry)
      exact ⟨hrollback _ before spec saved hkept hbefore hadmits hcheckpoint (hfair spec saved hentry), hsaved⟩
    · obtain rfl := Option.some.inj hstep
      exact ⟨houtside _ a hkept hfair, hsaved⟩
  exact hsound.1

end Cycles

end iac_providers
