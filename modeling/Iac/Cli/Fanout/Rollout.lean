import Iac.Cli.Fanout

open iac_cli.ssh_dispatch iac_core.protocol

namespace iac_cli.fanout

variable {f : Fanout} {w u : World} {i : Nat} {target : SshTarget} {reply : Reply} {phase next : Phase} {news : List Event}

/-- The permits that a task holds. -/
def Phase.permit : Phase → Nat
  | .permitted | .dispatching | .returned _ | .reported _ => 1
  | .spawned | .waiting | .recorded _ | .skipped => 0

def Event.outcome : Event → Option DispatchOutcome
  | .recorded _ outcome => some outcome
  | _ => none

/-- What a step of a task does: its next phase, what others can tell of it, and the
rest of the state. -/
structure Advanced (f : Fanout) (w : World) (i : Nat) (phase next : Phase) (news : List Event) (u : World) : Prop where
  tasks : u.tasks = w.tasks.set i next
  trace : u.trace = w.trace ++ news
  permits : u.permits + next.permit = w.permits + phase.permit
  outcomes : u.outcomes = w.outcomes ++ news.filterMap Event.outcome
  flag : u.abort_flag = (w.abort_flag || phase.fails f)
  history : next.history i = phase.history i ++ news.filter (Event.of i)
  others : ∀ j, j ≠ i → news.filter (Event.of j) = []
  aborts : ∀ j, .aborted j ∈ news → phase.fails f = true
  starts : ∀ j, .started j ∈ news → news = [.started j] ∧ phase = .permitted
  made : ∀ j o, .ended j o ∈ news → ∃ target reply, o = outcome f target reply
  sets : phase.fails f = true → .aborted i ∈ news
  stays : phase.past_check = true → next.past_check = true ∨ .started i ∈ news
  passes : next.past_check = true → u.abort_flag = false ∨ phase.past_check = true
  skips : next = .skipped → w.abort_flag = true
  left : next.left < phase.left

theorem advanced_of_advance (h : w.advance f i target reply phase = some u) :
    ∃ next news, Advanced f w i phase next news u := by
  cases phase with
  | spawned =>
    obtain rfl := Option.some.inj h
    refine ⟨if w.abort_flag then .skipped else .waiting, [], ?_⟩
    cases hflag : w.abort_flag <;> constructor <;>
      simp [World.to, Phase.permit, Phase.history, Phase.fails, Phase.past_check, Phase.left, hflag]
  | waiting =>
    rw [World.advance] at h
    split_ifs at h with hnone
    obtain rfl := Option.some.inj h
    refine ⟨.permitted, [], ?_⟩
    constructor <;> simp [World.to, Phase.permit, Phase.history, Phase.fails, Phase.past_check, Phase.left]
    omega
  | permitted =>
    obtain rfl := Option.some.inj h
    refine ⟨.dispatching, [.started i], ?_⟩
    constructor <;>
      simp [World.to, Phase.permit, Phase.history, Phase.fails, Phase.past_check, Phase.left, Event.outcome, Event.of]
    exact fun j hj => Ne.symm hj
  | dispatching =>
    obtain rfl := Option.some.inj h
    refine ⟨.returned (outcome f target reply), [.ended i (outcome f target reply)], ?_⟩
    constructor <;>
      simp [World.to, Phase.permit, Phase.history, Phase.fails, Phase.past_check, Phase.left, Event.outcome, Event.of]
    exact fun j hj => Ne.symm hj
  | returned o =>
    cases hfails : o.is_terminal_failure && f.fail_fast with
    | true =>
      rw [World.advance, if_pos hfails] at h
      obtain rfl := Option.some.inj h
      refine ⟨.reported o, [.aborted i], ?_⟩
      constructor <;>
        simp [World.to, Phase.permit, Phase.history, Phase.fails, Phase.past_check, Phase.left, Event.outcome, Event.of, hfails]
    | false =>
      rw [World.advance, if_neg (by simp [hfails])] at h
      obtain rfl := Option.some.inj h
      refine ⟨.reported o, [], ?_⟩
      constructor <;> simp [World.to, Phase.permit, Phase.history, Phase.fails, Phase.past_check, Phase.left, hfails]
  | reported o =>
    obtain rfl := Option.some.inj h
    refine ⟨.recorded o, [.recorded i o], ?_⟩
    constructor <;>
      simp [World.to, Phase.permit, Phase.history, Phase.fails, Phase.past_check, Phase.left, Event.outcome, Event.of]
    exact fun j hj => Ne.symm hj
  | recorded o => cases h
  | skipped => cases h

theorem step_cases {a : Action} (h : step f w a = some u) :
    (a = .spawn ∧ w.tasks.length < f.targets.length ∧ u = { w with tasks := w.tasks ++ [.spawned] }) ∨
      ∃ i reply phase next news, a = .task i reply ∧ w.tasks[i]? = some phase ∧ Advanced f w i phase next news u := by
  cases a with
  | spawn =>
    rw [step] at h
    split_ifs at h with hmore
    exact .inl ⟨rfl, hmore, (Option.some.inj h).symm⟩
  | task i reply =>
    rw [step] at h
    cases hphase : w.tasks[i]? with
    | none => simp [hphase] at h
    | some phase =>
      cases htarget : f.targets[i]? with
      | none => simp [hphase, htarget] at h
      | some target =>
        rw [hphase, htarget] at h
        obtain ⟨next, news, hadvanced⟩ := advanced_of_advance h
        exact .inr ⟨i, reply, phase, next, news, rfl, hphase, hadvanced⟩

/-- What holds of the tasks in every state, whatever the scheduler does. -/
structure Invariant (f : Fanout) (w : World) : Prop where
  spawned : w.tasks.length ≤ f.targets.length
  permits : w.permits + (w.tasks.map Phase.permit).sum = max f.max_parallel 1
  history : ∀ i, w.trace.filter (Event.of i) = (w.tasks[i]?.map (Phase.history i)).getD []
  outcomes : w.outcomes = w.trace.filterMap Event.outcome
  made : ∀ i o, .ended i o ∈ w.trace → ∃ target reply, o = outcome f target reply
  flag : w.abort_flag = true → f.fail_fast = true
  skipped : .skipped ∈ w.tasks → f.fail_fast = true

theorem start_eq (h : start f = .ok w) : w = { permits := max f.max_parallel 1 } := by
  rw [start] at h
  split at h
  · cases h
  · split_ifs at h
    exact (Except.ok.inj h).symm

theorem invariant_start (h : start f = .ok w) : Invariant f w := by
  obtain rfl := start_eq h
  constructor <;> simp

theorem fail_fast_of_fails (h : phase.fails f = true) : f.fail_fast = true := by
  cases phase <;> simp_all [Phase.fails]

theorem invariant_step {a : Action} (hinv : Invariant f w) (h : step f w a = some u) : Invariant f u := by
  obtain ⟨-, hmore, rfl⟩ | ⟨i, reply, phase, next, news, -, hphase, hadvanced⟩ := step_cases h
  · refine { hinv with spawned := ?_, permits := ?_, history := fun j => ?_, skipped := fun hmem => hinv.skipped ?_ }
    · rw [List.length_append, List.length_singleton]
      exact hmore
    · simpa [Phase.permit] using hinv.permits
    · rw [hinv.history j, List.getElem?_append]
      split
      · rfl
      · rename_i hlast
        rw [List.getElem?_eq_none (Nat.le_of_not_lt hlast)]
        cases hnew : [Phase.spawned][j - w.tasks.length]? with
        | none => rfl
        | some phase =>
          obtain rfl : phase = .spawned := by simpa using List.mem_of_getElem? hnew
          rfl
    · simpa using hmem
  · have hlen : i < w.tasks.length := (List.getElem?_eq_some_iff.mp hphase).1
    refine ⟨?_, ?_, fun j => ?_, ?_, fun j o hended => ?_, fun hflag => ?_, fun hmem => ?_⟩
    · rw [hadvanced.tasks, List.length_set]
      exact hinv.spawned
    · have hsum := slots.sum_map_set Phase.permit next hphase
      have hpermits := hadvanced.permits
      have htotal := hinv.permits
      rw [hadvanced.tasks]
      omega
    · rw [hadvanced.trace, hadvanced.tasks, List.filter_append, hinv.history j]
      by_cases hj : j = i
      · subst hj
        rw [hphase, List.getElem?_set_self hlen]
        exact hadvanced.history.symm
      · rw [hadvanced.others j hj, List.append_nil, List.getElem?_set_ne (Ne.symm hj)]
    · rw [hadvanced.outcomes, hadvanced.trace, List.filterMap_append, hinv.outcomes]
    · rw [hadvanced.trace] at hended
      obtain hold | hnew := List.mem_append.mp hended
      · exact hinv.made j o hold
      · exact hadvanced.made j o hnew
    · rw [hadvanced.flag, Bool.or_eq_true] at hflag
      exact hflag.elim hinv.flag fail_fast_of_fails
    · rw [hadvanced.tasks] at hmem
      obtain hold | hnew := List.mem_or_eq_of_mem_set hmem
      · exact hinv.skipped hold
      · exact hinv.flag (hadvanced.skips hnew.symm)

private theorem pair_sublist_append {α : Type} {a b : α} {l m : List α} (h : [a, b].Sublist (l ++ m)) :
    [a, b].Sublist l ∨ (a ∈ l ∧ b ∈ m) ∨ [a, b].Sublist m := by
  obtain ⟨first, second, hsplit, hfirst, hsecond⟩ := List.sublist_append_iff.mp h
  obtain _ | ⟨x, _ | ⟨y, rest⟩⟩ := first
  · obtain rfl : [a, b] = second := hsplit
    exact .inr (.inr hsecond)
  · obtain ⟨rfl, rfl⟩ := List.cons.inj hsplit
    exact .inr (.inl ⟨List.singleton_sublist.mp hfirst, List.singleton_sublist.mp hsecond⟩)
  · obtain ⟨rfl, hrest⟩ := List.cons.inj hsplit
    obtain ⟨rfl, hnil⟩ := List.cons.inj hrest
    obtain ⟨rfl, -⟩ := List.append_eq_nil_iff.mp hnil.symm
    exact .inl hfirst

/-- No task that has found the flag unset is still to start its dispatch once the flag is set. -/
structure Settled (w : World) : Prop where
  flag : ∀ i, .aborted i ∈ w.trace → w.abort_flag = true
  passed : w.abort_flag = true → ∀ phase ∈ w.tasks, phase.past_check = false
  order : ∀ i j, ¬ [Event.aborted i, .started j].Sublist w.trace

theorem settled_step {a : Action} (hsettled : Settled w) (hallowed : Unpassed f w a) (h : step f w a = some u) : Settled u := by
  obtain ⟨rfl, -, rfl⟩ | ⟨i, reply, phase, next, news, rfl, hphase, hadvanced⟩ := step_cases h
  · refine { hsettled with passed := fun hflag phase hmem => ?_ }
    obtain hold | hnew := List.mem_append.mp hmem
    · exact hsettled.passed hflag phase hold
    · obtain rfl : phase = .spawned := by simpa using hnew
      rfl
  · have hmem := List.mem_of_getElem? hphase
    refine ⟨fun j haborted => ?_, fun hflag other hother => ?_, fun j k hsub => ?_⟩
    · rw [hadvanced.trace] at haborted
      rw [hadvanced.flag, Bool.or_eq_true]
      obtain hold | hnew := List.mem_append.mp haborted
      · exact .inl (hsettled.flag j hold)
      · exact .inr (hadvanced.aborts j hnew)
    · have hall : ∀ phase ∈ w.tasks, phase.past_check = false := by
        rw [hadvanced.flag, Bool.or_eq_true] at hflag
        obtain hset | hfails := hflag
        · exact hsettled.passed hset
        · exact hallowed (by simpa [hphase] using hfails)
      rw [hadvanced.tasks] at hother
      obtain hold | rfl := List.mem_or_eq_of_mem_set hother
      · exact hall other hold
      · cases hpast : other.past_check with
        | false => rfl
        | true =>
          obtain hunset | hpassed := hadvanced.passes hpast
          · rw [hunset] at hflag
            cases hflag
          · rw [hall phase hmem] at hpassed
            cases hpassed
    · rw [hadvanced.trace] at hsub
      obtain hold | ⟨haborted, hstarted⟩ | hnew := pair_sublist_append hsub
      · exact hsettled.order j k hold
      · obtain ⟨-, rfl⟩ := hadvanced.starts k hstarted
        cases hsettled.passed (hsettled.flag j haborted) _ hmem
      · obtain ⟨rfl, -⟩ := hadvanced.starts k (hnew.mem (by simp))
        simpa using hnew.length_le

theorem left_step {a : Action} (h : step f w a = some u) : u.left f < w.left f := by
  obtain ⟨-, hmore, rfl⟩ | ⟨i, reply, phase, next, news, -, hphase, hadvanced⟩ := step_cases h
  · simp only [World.left, List.map_append, List.sum_append, List.length_append, List.map_cons, List.map_nil,
      List.sum_cons, List.sum_nil, List.length_cons, List.length_nil, Phase.left]
    omega
  · have hsum := slots.sum_map_set Phase.left next hphase
    have hless := hadvanced.left
    rw [World.left, World.left, hadvanced.tasks, List.length_set]
    omega

/-- A task that is not over and does not wait for a permit can take its next step. -/
private theorem can_advance (hover : phase.over = false) (hpermit : phase = .waiting → w.permits ≠ 0) (i : Nat)
    (target : SshTarget) (reply : Reply) : ∃ u, w.advance f i target reply phase = some u := by
  cases phase with
  | spawned | permitted | dispatching | reported o => exact ⟨_, rfl⟩
  | waiting => exact ⟨_, if_neg (hpermit rfl)⟩
  | returned o =>
    rw [World.advance]
    split
    · exact ⟨_, rfl⟩
    · exact ⟨_, rfl⟩
  | recorded o | skipped => cases hover

theorem can_step (hinv : Invariant f w) (hnot : ¬ w.Finished f) : ∃ a u, step f w a = some u := by
  by_cases hmore : w.tasks.length < f.targets.length
  · exact ⟨.spawn, _, if_pos hmore⟩
  · have hlen : w.tasks.length = f.targets.length := Nat.le_antisymm hinv.spawned (Nat.le_of_not_lt hmore)
    -- with no permit left, a task that holds one goes on
    obtain ⟨phase, hmem, hover, hpermit⟩ : ∃ phase ∈ w.tasks, phase.over = false ∧ (phase = .waiting → w.permits ≠ 0) := by
      by_cases hfree : w.permits = 0
      · have hheld : (w.tasks.map Phase.permit).sum ≠ 0 := by
          have := hinv.permits
          omega
        obtain ⟨phase, hmem, hone⟩ : ∃ phase ∈ w.tasks, phase.permit ≠ 0 := by
          by_contra hnone
          push Not at hnone
          refine hheld (List.sum_eq_zero fun n hn => ?_)
          obtain ⟨phase, hmem, rfl⟩ := List.mem_map.mp hn
          exact hnone phase hmem
        refine ⟨phase, hmem, ?_, ?_⟩
        · cases phase <;> simp_all [Phase.permit, Phase.over]
        · rintro rfl
          exact absurd rfl hone
      · have hopen : ¬ ∀ phase ∈ w.tasks, phase.over = true := fun hall => hnot ⟨hlen, hall⟩
        push Not at hopen
        obtain ⟨phase, hmem, hover⟩ := hopen
        exact ⟨phase, hmem, by simpa using hover, fun _ => hfree⟩
    obtain ⟨i, hi, rfl⟩ := List.mem_iff_getElem.mp hmem
    obtain ⟨u, hu⟩ := can_advance hover hpermit i (f.targets.get ⟨i, hlen ▸ hi⟩) (.panicked "")
    refine ⟨.task i (.panicked ""), u, ?_⟩
    rw [step, List.getElem?_eq_getElem hi, List.getElem?_eq_getElem (hlen ▸ hi)]
    exact hu

theorem outcome_run_not_partial {command : List String} (h : f.command = .run command) (target : SshTarget) (reply : Reply) :
    (outcome f target reply).status ≠ .PartiallyApplied := by
  rw [outcome]
  cases hdispatch : dispatch f target reply with
  | error e => simp
  | ok o =>
    cases reply with
    | panicked join_err => cases hdispatch
    | ran ssh =>
      rw [dispatch, h] at hdispatch
      exact dispatch_run_not_partial hdispatch

/-- In the end what has come back has been recorded. -/
theorem mem_outcomes_iff (hinv : Invariant f w) (hfinished : w.Finished f) (o : DispatchOutcome) :
    o ∈ w.outcomes ↔ ∃ i, .ended i o ∈ w.trace := by
  have hof (i : Nat) (e : Event) (he : e.of i = true) :
      e ∈ w.trace ↔ ∃ outcome, w.tasks[i]? = some (.recorded outcome) ∧ e ∈ Phase.history i (.recorded outcome) := by
    have hmem : e ∈ w.trace ↔ e ∈ w.trace.filter (Event.of i) := by simp [List.mem_filter, he]
    rw [hmem, hinv.history i]
    cases hphase : w.tasks[i]? with
    | none => simp
    | some phase =>
      have hover := hfinished.2 phase (List.mem_of_getElem? hphase)
      cases phase <;> simp_all [Phase.over, Phase.history]
  have hrecorded : o ∈ w.outcomes ↔ ∃ i, .recorded i o ∈ w.trace := by
    rw [hinv.outcomes, List.mem_filterMap]
    constructor
    · rintro ⟨e, he, houtcome⟩
      cases e <;> simp only [Event.outcome, Option.some.injEq, reduceCtorEq] at houtcome
      exact ⟨_, houtcome ▸ he⟩
    · rintro ⟨i, he⟩
      exact ⟨_, he, rfl⟩
  rw [hrecorded]
  refine exists_congr fun i => ?_
  rw [hof i _ (by simp [Event.of]), hof i _ (by simp [Event.of])]
  simp [Phase.history]

theorem exit_code_failure (outcomes : List DispatchOutcome) :
    exit_code f outcomes = 5 ↔ ∃ o ∈ outcomes, o.status = .Failed := by
  have hfailed : (0 < outcomes.countP fun o => o.status == .Failed) ↔ ∃ o ∈ outcomes, o.status = .Failed := by
    simp [List.countP_pos_iff]
  rw [← hfailed, exit_code]
  cases f.command with
  | apply payload auto_bootstrap => grind
  | run command => grind

/-- Only the exit code of a fan-out of `apply` tells a partial outcome, and only such a fan-out has one. -/
theorem exit_code_success {outcomes : List DispatchOutcome}
    (hmade : ∀ o ∈ outcomes, ∃ target reply, o = outcome f target reply) :
    exit_code f outcomes = 0 ↔ ∀ o ∈ outcomes, o.status = .Succeeded := by
  have hnone (status : AssignmentResultStatus) : (outcomes.countP fun o => o.status == status) = 0 ↔
      ∀ o ∈ outcomes, o.status ≠ status := by
    simp [List.countP_eq_zero]
  have hall : (∀ o ∈ outcomes, o.status = .Succeeded) ↔
      (∀ o ∈ outcomes, o.status ≠ .Failed) ∧ ∀ o ∈ outcomes, o.status ≠ .PartiallyApplied := by
    rw [← forall₂_and]
    refine forall₂_congr fun o _ => ?_
    cases o.status <;> simp
  rw [hall, ← hnone, ← hnone, exit_code]
  cases hcommand : f.command with
  | apply payload auto_bootstrap => grind
  | run command =>
    have hpartly : (outcomes.countP fun o => o.status == .PartiallyApplied) = 0 := by
      refine (hnone _).mpr fun o ho => ?_
      obtain ⟨target, reply, rfl⟩ := hmade o ho
      exact outcome_run_not_partial hcommand target reply
    grind

theorem orderly_of_invariants (hinv : Invariant f w) (hsettled : Settled w) : Orderly f w := by
  refine ⟨?_, can_step hinv, fun a u => left_step, fun hpatient hfinished i hi => ?_, hsettled.order, fun hfinished => ?_,
    fun hfinished => ?_⟩
  · have hheld : w.tasks.countP Phase.in_progress ≤ (w.tasks.map Phase.permit).sum :=
      slots.countP_le_sum fun phase h => by cases phase <;> simp_all [Phase.in_progress, Phase.permit]
    have hpermits := hinv.permits
    omega
  · have hi' : i < w.tasks.length := hfinished.1 ▸ hi
    have hmem := List.getElem_mem hi'
    rw [hinv.history i, List.getElem?_eq_getElem hi', Option.map_some, Option.getD_some]
    cases hphase : w.tasks[i] with
    | recorded o => exact ⟨o, rfl⟩
    | skipped =>
      rw [hphase] at hmem
      rw [hinv.skipped hmem] at hpatient
      cases hpatient
    | _ =>
      have hover := hfinished.2 _ hmem
      rw [hphase] at hover
      cases hover
  · rw [exit_code_failure]
    simp only [mem_outcomes_iff hinv hfinished]
    exact ⟨fun ⟨o, ⟨i, hi⟩, ho⟩ => ⟨i, o, hi, ho⟩, fun ⟨i, o, hi, ho⟩ => ⟨o, ⟨i, hi⟩, ho⟩⟩
  · have hmade (o : DispatchOutcome) (ho : o ∈ w.outcomes) : ∃ target reply, o = outcome f target reply := by
      obtain ⟨i, hi⟩ := (mem_outcomes_iff hinv hfinished o).mp ho
      exact hinv.made i o hi
    rw [exit_code_success hmade]
    simp only [mem_outcomes_iff hinv hfinished]
    exact ⟨fun hall i o hi => hall o ⟨i, hi⟩, fun hall o ⟨i, hi⟩ => hall i o hi⟩

/-- When nothing has passed the flag and not started its dispatch yet each time the
flag is set, whatever the scheduler does the fan-out keeps to its limit, to its
targets, to its flag and to its exit code. -/
theorem unpassed_fanout_is_orderly (f : Fanout) {first w : World} (hstart : start f = .ok first)
    (hrun : transition.Run (step f) (Unpassed f) first w) : Orderly f w := by
  have hfirst := invariant_start hstart
  have hsettled : Settled first := by
    obtain rfl := start_eq hstart
    constructor <;> simp
  obtain ⟨hinv, hsettled⟩ := hrun.invariant (I := fun w => Invariant f w ∧ Settled w) ⟨hfirst, hsettled⟩
    fun t u a ⟨hinv, hsettled⟩ hallowed hstep => ⟨invariant_step hinv hstep, settled_step hsettled hallowed hstep⟩
  exact orderly_of_invariants hinv hsettled

/-- And a task that has passed the flag when it is set starts its dispatch after that, in every run that comes to its end. -/
theorem passed_task_starts {j : Nat} {passed : Phase} (hpassed : w.tasks[j]? = some passed)
    (hpast : passed.past_check = true) (hphase : w.tasks[i]? = some phase) (hfails : phase.fails f = true)
    (hstep : step f w (.task i reply) = some u) {last : World} (hrun : transition.Run (step f) (fun _ _ => True) u last)
    (hfinished : last.Finished f) : [Event.aborted i, .started j].Sublist last.trace := by
  let I (w : World) : Prop := (.aborted i ∈ w.trace ∧ ∃ phase, w.tasks[j]? = some phase ∧ phase.past_check = true) ∨
    [Event.aborted i, .started j].Sublist w.trace
  have hu : I u := by
    obtain ⟨hspawn, -⟩ | ⟨k, reply', phase', next, news, heq, hphase', hadvanced⟩ := step_cases hstep
    · cases hspawn
    · obtain ⟨rfl, rfl⟩ := Action.task.inj heq
      obtain rfl : phase = phase' := Option.some.inj (hphase.symm.trans hphase')
      have hne : i ≠ j := by
        rintro rfl
        obtain rfl : passed = phase := Option.some.inj (hpassed.symm.trans hphase)
        cases passed <;> simp_all [Phase.fails, Phase.past_check]
      refine .inl ⟨?_, passed, ?_, hpast⟩
      · rw [hadvanced.trace]
        exact List.mem_append_right _ (hadvanced.sets hfails)
      · rw [hadvanced.tasks, List.getElem?_set_ne hne, hpassed]
  have hlast : I last := hrun.invariant hu fun t v a ht _ hstep => by
    obtain ⟨-, -, rfl⟩ | ⟨k, reply', phase', next, news, -, hphase', hadvanced⟩ := step_cases hstep
    · refine ht.imp (fun ⟨haborted, phase, hphase, hpast⟩ => ⟨haborted, phase, ?_, hpast⟩) id
      rw [List.getElem?_append_left (List.getElem?_eq_some_iff.mp hphase).1, hphase]
    · obtain ⟨haborted, other, hother, hpast⟩ | hsub := ht
      · by_cases hk : k = j
        · subst hk
          obtain rfl : other = phase' := Option.some.inj (hother.symm.trans hphase')
          obtain hnext | hstarted := hadvanced.stays hpast
          · refine .inl ⟨?_, next, ?_, hnext⟩
            · rw [hadvanced.trace]
              exact List.mem_append_left _ haborted
            · rw [hadvanced.tasks, List.getElem?_set_self (List.getElem?_eq_some_iff.mp hphase').1]
          · refine .inr ?_
            rw [hadvanced.trace]
            exact (List.singleton_sublist.mpr haborted).append (List.singleton_sublist.mpr hstarted)
        · refine .inl ⟨?_, other, ?_, hpast⟩
          · rw [hadvanced.trace]
            exact List.mem_append_left _ haborted
          · rw [hadvanced.tasks, List.getElem?_set_ne hk, hother]
      · refine .inr ?_
        rw [hadvanced.trace]
        exact hsub.trans (List.sublist_append_left _ _)
  obtain ⟨-, phase, hphase, hpast⟩ | hsub := hlast
  · have hover := hfinished.2 phase (List.mem_of_getElem? hphase)
    cases phase <;> simp_all [Phase.over, Phase.past_check]
  · exact hsub

/-- Two hosts, one at a time, until one fails. -/
def two_hosts : Fanout where
  crates := Crates.on []
  command := .run ["uptime"]
  targets := [{ label := "web-01" }, { label := "web-02" }]
  max_parallel := 1
  fail_fast := true

def unreachable : Reply := .ran
  { output := fun _ => .ok ⟨.code 255, [], []⟩, bootstrap_iac_binary := .error "", spawn := fun _ => .error ""
    write_all := fun _ => .error "", wait_with_output := .error "" }

def one_at_a_time : World := { permits := 1 }

def unpassed_check (f : Fanout) (w : World) : Action → Bool
  | .spawn => true
  | .task i _ => !(w.tasks[i]?.any fun phase => phase.fails f) || w.tasks.all fun phase => !phase.past_check

/-- The second task looks at the flag when the first one is done, and its host is spared. -/
theorem later_host_is_spared : ∃ w : World, (w.outcomes.length = 1 ∧ exit_code two_hosts w.outcomes = 5) ∧
    Orderly two_hosts w := by
  have hok (w : World) (a : Action) (h : unpassed_check two_hosts w a = true) : Unpassed two_hosts w a := by
    cases a with
    | spawn => trivial
    | task i reply =>
      rw [unpassed_check, Bool.or_eq_true] at h
      intro hfails
      simpa [hfails] using h
  have hfollow : (transition.follow (step two_hosts) (unpassed_check two_hosts) one_at_a_time
      ([.spawn, .spawn] ++ List.replicate 6 (.task 0 unreachable) ++ [.task 1 unreachable])).any
        (fun w => w.outcomes.length == 1 && exit_code two_hosts w.outcomes == 5) = true := by
    decide
  obtain ⟨w, hrun, hw⟩ := transition.run_of_follow hok hfollow
  exact ⟨w, by simpa using hw, unpassed_fanout_is_orderly two_hosts rfl hrun⟩

/-- The trace of one host after the other, although the first one has failed. -/
def carries_on : List Event → Bool
  | [.started 0, .ended 0 _, .aborted 0, .recorded 0 _, .started 1] => true
  | _ => false

/-- Both tasks look at the flag before the first one has its outcome. The second
one waits for the permit and starts when the first one has failed. -/
theorem failure_does_not_stop_rollout : ¬ ∀ (f : Fanout) (first w : World), start f = .ok first →
    transition.Run (step f) (fun _ _ => True) first w → Orderly f w := by
  intro hall
  have hfollow : (transition.follow (step two_hosts) (fun _ _ => true) one_at_a_time
      ([.spawn, .spawn, .task 0 unreachable, .task 1 unreachable] ++ List.replicate 5 (.task 0 unreachable) ++
        List.replicate 2 (.task 1 unreachable))).any (fun w => carries_on w.trace) = true := by
    decide
  obtain ⟨w, hrun, hw⟩ := transition.run_of_follow (fun _ _ _ => trivial) hfollow
  refine (hall two_hosts one_at_a_time w rfl hrun).aborts 0 1 ?_
  unfold carries_on at hw
  split at hw
  · rename_i htrace
    rw [htrace]
    simp
  · cases hw

end iac_cli.fanout
