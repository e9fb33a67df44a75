import Iac.Controlplane.SshPush

open iac_core.protocol iac_controlplane.store os serde_json

namespace iac_controlplane.ssh_push

variable {crates : Crates} {job : Job} {capacity : Nat} {w v : World}

/-- The process takes its payload: it has no end of the pipe closed while bytes are
left to be written, and takes the last of them at once or ends in time all the same. -/
def takes_payload (w : World) : timed.Action Act → Prop
  | .act .resume => ¬ (w.phase = .writing ∧ w.stdin.unsent ≠ [] ∧ w.stdin.readers = [])
  | .act _ => True
  | .tick d =>
    match w.phase with
    | .writing => w.now + d ≤ w.started + MAX_PUSH_DURATION
    | .waiting deadline => deadline = w.started + MAX_PUSH_DURATION ∨ w.now + d ≤ w.started + MAX_PUSH_DURATION
    | .ended _ => True

/-- The process was started, and has not been killed. -/
def World.Started (w : World) : Prop := w.child = .running ∨ ∃ status, w.child = .exited status

/-- What holds where the worker is. -/
def World.InPhase (crates : Crates) (w : World) : Phase → Prop
  | .writing => w.Started ∧ w.recorded = [] ∧ w.now ≤ w.started + MAX_PUSH_DURATION
  | .waiting deadline => w.Started ∧ w.recorded = [] ∧ w.now ≤ w.started + MAX_PUSH_DURATION ∧ w.now ≤ deadline
  | .ended _ => w.child ≠ .running ∧ ∃ r, w.recorded = [r] ∧ r.result.status = verdict crates w.child (w.outputs .stdout).written

structure OnTime (crates : Crates) (w : World) : Prop where
  drained : ∀ s, (w.outputs s).Drained
  phase : w.InPhase crates w.phase

theorem OnTime.settles (h : OnTime crates w) : Settles crates w := by
  have hphase := h.phase
  refine ⟨fun hrunning => ?_, fun hended => ?_⟩
  · cases hp : w.phase with
    | writing => exact (hp ▸ hphase : w.InPhase crates .writing).2.2
    | waiting deadline => exact (hp ▸ hphase : w.InPhase crates (.waiting deadline)).2.2.1
    | ended result => simp [World.running, hp] at hrunning
  · cases hp : w.phase with
    | writing => simp [World.running, hp] at hended
    | waiting deadline => simp [World.running, hp] at hended
    | ended result => exact (hp ▸ hphase : w.InPhase crates (.ended result)).2

section Ends

variable {result : AssignmentResultRequest}

/-- The first result that is recorded ends the push. -/
theorem OnTime.complete (hdrained : ∀ s, (w.outputs s).Drained) (hnone : w.recorded = [])
    (hstatus : result.status = verdict crates (if w.child = .running then .killed else w.child) (w.outputs .stdout).written) :
    OnTime crates (w.complete job result) := by
  refine ⟨hdrained, ?_, { result, audit := build_push_audit job result.status }, by simp [World.complete, hnone], hstatus⟩
  simp only [World.complete]
  split_ifs with hrunning
  · nofun
  · exact hrunning

theorem OnTime.conclude {status : ExitStatus} (hdrained : ∀ s, (w.outputs s).Drained) (hnone : w.recorded = [])
    (hchild : w.child = .exited status) (hended : (w.outputs .stdout).ended = true) (stderr : List UInt8) :
    OnTime crates (w.conclude crates job status (w.outputs .stdout).buf stderr) := by
  have hkept : (if w.child = .running then Child.killed else w.child) = .exited status := by
    rw [hchild, if_neg nofun]
  rw [World.conclude, Output.buf_of_ended (hdrained _) hended]
  split_ifs with hsuccess
  · refine .complete hdrained hnone ?_
    rw [hkept]
    unfold verdict
    split
    · rename_i hzero
      obtain rfl := Child.exited.inj hzero
      cases hsuccess
    · rfl
  · obtain rfl : status = .code 0 := by simpa [ExitStatus.success] using hsuccess
    cases hprinted : printed_result crates (w.outputs .stdout).written with
    | ok result | error e =>
      refine .complete hdrained hnone ?_
      simp only [hkept, verdict, hprinted]

end Ends

section Steps

variable (hw : OnTime crates w)

include hw

theorem OnTime.resume (hallowed : takes_payload w (.act .resume)) (h : w.resume crates job capacity = some v) :
    OnTime crates v := by
  have hphase := hw.phase
  rw [World.resume] at h
  split at h
  · rename_i hp
    obtain ⟨hstarted, hnone, hnow⟩ : w.InPhase crates .writing := hp ▸ hphase
    rw [World.write_turn] at h
    split_ifs at h with hsent hbroken hroom
    · obtain rfl := Option.some.inj h
      exact ⟨hw.drained, hstarted, hnone, hnow, Nat.le_add_right _ _⟩
    · exact absurd ⟨hp, by simpa using hsent, by simpa using hbroken⟩ hallowed
    · obtain rfl := Option.some.inj h
      refine ⟨hw.drained, ?_⟩
      simp only [hp]
      exact ⟨hstarted, hnone, hnow⟩
  · rename_i deadline hp
    obtain ⟨hstarted, hnone, hnow, hdeadline⟩ : w.InPhase crates (.waiting deadline) := hp ▸ hphase
    rw [World.wait_turn] at h
    split at h
    · rename_i status hchild
      split_ifs at h with hended
      obtain rfl := Option.some.inj h
      exact .conclude hw.drained hnone hchild (Bool.and_eq_true_iff.mp hended).1 _
    · rename_i hnot
      split_ifs at h
      obtain rfl := Option.some.inj h
      refine .complete hw.drained hnone ?_
      obtain hrunning | ⟨status, hexited⟩ := hstarted
      · rw [if_pos hrunning]
        rfl
      · exact absurd hexited (hnot status)
  · cases h

/-- What the process and the readers do leaves the worker where it is. -/
theorem OnTime.beside (hstays : w.running = true) (hnow : v.now = w.now) (hbegan : v.started = w.started)
    (hphase : v.phase = w.phase) (hrecorded : v.recorded = w.recorded) (hdrained : ∀ s, (v.outputs s).Drained)
    (hchild : v.child = w.child ∨ ∃ status, v.child = .exited status) : OnTime crates v := by
  have hstarted (h : w.Started) : v.Started := by
    obtain hsame | hexited := hchild
    · rwa [World.Started, hsame]
    · exact .inr hexited
  refine ⟨hdrained, ?_⟩
  have hin := hw.phase
  rw [hphase]
  cases hp : w.phase with
  | writing =>
    obtain ⟨h, hnone, htime⟩ : w.InPhase crates .writing := hp ▸ hin
    exact ⟨hstarted h, hrecorded.trans hnone, by rwa [hnow, hbegan]⟩
  | waiting deadline =>
    obtain ⟨h, hnone, htime, hdeadline⟩ : w.InPhase crates (.waiting deadline) := hp ▸ hin
    exact ⟨hstarted h, hrecorded.trans hnone, by rwa [hnow, hbegan], by rwa [hnow]⟩
  | ended result => simp [World.running, hp] at hstays

/-- Once the push has ended, nothing happens any more. -/
theorem running_of_act {a : Act} (h : act crates job capacity w a = some v) : w.running = true := by
  cases hp : w.phase with
  | writing => simp [World.running, hp]
  | waiting deadline => simp [World.running, hp]
  | ended result =>
    have hchild : w.child ≠ .running := (hp ▸ hw.phase : w.InPhase crates (.ended result)).1
    cases a <;> simp [act, hchild, World.reading, World.resume, hp] at h

theorem drained_set_output {s : Stream} {o : Output} (ho : (w.outputs s).Follows o) (s' : Stream) :
    ((w.set_output s o).outputs s').Drained := by
  by_cases hs : s' = s
  · subst hs
    simpa [World.set_output] using ho.drained
  · simpa [World.set_output, Function.update_of_ne hs] using hw.drained s'

theorem OnTime.act {a : Act} (hallowed : takes_payload w (.act a)) (h : act crates job capacity w a = some v) :
    OnTime crates v := by
  have hstays := running_of_act hw h
  cases a with
  | consume n =>
    simp only [ssh_push.act] at h
    split_ifs at h
    obtain ⟨stdin, -, rfl⟩ := Option.map_eq_some_iff.mp h
    exact hw.beside hstays rfl rfl rfl rfl hw.drained (.inl rfl)
  | close_stdin =>
    simp only [ssh_push.act] at h
    split_ifs at h
    obtain rfl := Option.some.inj h
    exact hw.beside hstays rfl rfl rfl rfl hw.drained (.inl rfl)
  | write s bytes =>
    simp only [ssh_push.act] at h
    split_ifs at h
    obtain ⟨o, hwrite, rfl⟩ := Option.map_eq_some_iff.mp h
    exact hw.beside hstays rfl rfl rfl rfl (drained_set_output hw (Output.follows_write (hw.drained s) hwrite)) (.inl rfl)
  | close s =>
    simp only [ssh_push.act] at h
    split_ifs at h
    obtain rfl := Option.some.inj h
    exact hw.beside hstays rfl rfl rfl rfl (drained_set_output hw (Output.follows_close (hw.drained s))) (.inl rfl)
  | exit status =>
    simp only [ssh_push.act] at h
    split_ifs at h
    obtain rfl := Option.some.inj h
    exact hw.beside hstays rfl rfl rfl rfl (fun s => (Output.follows_close (hw.drained s)).drained) (.inr ⟨status, rfl⟩)
  | read s =>
    simp only [ssh_push.act] at h
    split_ifs at h
    obtain ⟨o, hread, rfl⟩ := Option.map_eq_some_iff.mp h
    exact hw.beside hstays rfl rfl rfl rfl (drained_set_output hw (Output.follows_read hread)) (.inl rfl)
  | fail e =>
    simp only [ssh_push.act] at h
    split_ifs at h with hfails
    obtain rfl := Option.some.inj h
    obtain ⟨hreading, hrunning⟩ := Bool.and_eq_true_iff.mp hfails
    have hrunning : w.child = .running := by simpa using hrunning
    cases hp : w.phase with
    | waiting deadline =>
      refine .complete hw.drained (hp ▸ hw.phase : w.InPhase crates (.waiting deadline)).2.1 ?_
      rw [if_pos hrunning]
      rfl
    | writing => simp [World.reading, hp] at hreading
    | ended result => simp [World.reading, hp] at hreading
  | resume => exact hw.resume hallowed h

/-- Time passes while the worker cannot go on. -/
theorem OnTime.tick {d : Nat} (hallowed : takes_payload w (.tick d))
    (hwake : ∀ wake, (system crates job capacity).wake w = some wake → w.now + d ≤ wake) :
    OnTime crates { w with now := w.now + d } := by
  refine ⟨hw.drained, ?_⟩
  have hin := hw.phase
  cases hp : w.phase with
  | writing =>
    obtain ⟨hstarted, hnone, -⟩ : w.InPhase crates .writing := hp ▸ hin
    simp only [takes_payload, hp] at hallowed
    exact ⟨hstarted, hnone, hallowed⟩
  | waiting deadline =>
    obtain ⟨hstarted, hnone, -⟩ : w.InPhase crates (.waiting deadline) := hp ▸ hin
    have hdeadline := hwake deadline (by simp [system, hp])
    simp only [takes_payload, hp] at hallowed
    exact ⟨hstarted, hnone, hallowed.elim (fun hsame => hsame ▸ hdeadline) id, hdeadline⟩
  | ended result =>
    rw [hp] at hin
    exact hin

end Steps

/-- A job whose payload can be decoded; ssh can be started where it has to be. -/
structure Startable (crates : Crates) (job : Job) (spawn : Except String Unit) : Prop where
  decodable : ∃ payload, crates.from_str job.payload_json >>= AssignmentPayload.of_value = .ok payload
  spawned : ∀ stdin, process_assignment crates job.target job.payload_json = .ok (.piped stdin) → spawn = .ok ()

theorem onTime_start {now : Nat} {spawn : Except String Unit} (h : Startable crates job spawn) :
    OnTime crates (start crates job now spawn) := by
  have hdrained (s : Stream) : ({ writers := [0] } : Output).Drained := (nofun : false = true → _)
  obtain ⟨payload, hpayload⟩ := h.decodable
  simp only [start]
  split
  · rename_i e hprocess
    rw [process_assignment, hpayload] at hprocess
    simp only at hprocess
    split_ifs at hprocess
    split at hprocess <;> cases hprocess
  · exact .complete hdrained rfl rfl
  · rename_i stdin hprocess
    simp only [h.spawned stdin hprocess]
    exact ⟨hdrained, .inl rfl, rfl, Nat.le_add_right _ _⟩

/-- A push whose ssh process starts and takes its payload settles what was claimed. -/
theorem taken_payloads_settle {now : Nat} {spawn : Except String Unit} (hstart : Startable crates job spawn)
    (hrun : transition.Run (system crates job capacity).step takes_payload (start crates job now spawn) w) :
    Settles crates w := by
  have hontime : OnTime crates w := timed.Run.invariant hrun (onTime_start hstart)
    (fun _ _ _ hw hallowed h => hw.act hallowed h) fun _ _ hw hallowed _ hwake => hw.tick hallowed hwake
  exact hontime.settles

/-- The condition, computed. -/
def takes (w : World) : timed.Action Act → Bool
  | .act .resume => match w.phase with
    | .writing => w.stdin.unsent.isEmpty || !w.stdin.readers.isEmpty
    | _ => true
  | .act _ => true
  | .tick d => decide (w.now + d ≤ w.started + MAX_PUSH_DURATION)

theorem takes_payload_of_takes (w : World) (a : timed.Action Act) (h : takes w a = true) : takes_payload w a := by
  cases a with
  | act a =>
    cases a with
    | resume =>
      rintro ⟨hphase, hunsent, hreaders⟩
      simp [takes, hphase, hunsent, hreaders] at h
    | _ => trivial
  | tick d =>
    have hearly := of_decide_eq_true h
    simp only [takes_payload]
    split
    · exact hearly
    · exact .inr hearly
    · trivial

def no_resources : Value := .object [("resources", .array [])]

def partial_result : Value :=
  AssignmentResultRequest.to_value { status := .PartiallyApplied, summary := none, items := [] }

def push_crates : Crates := Crates.on [no_resources, partial_result]

def empty_push : Job where
  target := { name := "edge", capabilities := [] }
  host := "edge.example"
  agent_id := "a1"
  assignment_id := "x1"
  payload_json := compact no_resources

theorem empty_push_startable : Startable push_crates empty_push (.ok ()) := by
  refine ⟨⟨⟨[]⟩, ?_⟩, fun _ _ => rfl⟩
  set_option maxRecDepth 2000 in rfl

/-- The process reads its payload, prints a result and exits. -/
theorem printed_result_is_recorded : ∃ w : World, w.running = false ∧
    (w.recorded.map fun r => r.result.status) = [.PartiallyApplied] ∧ Settles push_crates w := by
  have hfollow : (transition.follow (system push_crates empty_push 65536).step takes (start push_crates empty_push 0 (.ok ()))
      [.act .resume, .act .resume, .tick 1000000, .act (.consume 16), .act (.write .stdout (as_bytes (compact partial_result))),
        .act (.read .stdout), .tick 1000000, .act (.exit (.code 0)), .act (.read .stdout), .act (.read .stderr), .act .resume]).any
          (fun w => !w.running && decide ((w.recorded.map fun r => r.result.status) = [.PartiallyApplied])) = true := by
    set_option maxRecDepth 4000 in decide
  obtain ⟨w, hrun, hw⟩ := transition.run_of_follow takes_payload_of_takes hfollow
  simp only [Bool.and_eq_true, Bool.not_eq_true', decide_eq_true_eq] at hw
  exact ⟨w, hw.1, hw.2, taken_payloads_settle empty_push_startable hrun⟩

/-- A process that cannot be started, and one that exits before its input is
written, leave the assignment without a result; one that hangs with its input full keeps the worker for good. -/
theorem pushes_are_left_unsettled :
    (∃ w, transition.Run (system push_crates empty_push 65536).step (fun _ _ => True)
        (start push_crates empty_push 0 (.error "No such file or directory (os error 2)")) w ∧
      w.running = false ∧ w.recorded.length = 0 ∧ ¬ Settles push_crates w) ∧
    (∃ w, transition.Run (system push_crates empty_push 65536).step (fun _ _ => True) (start push_crates empty_push 0 (.ok ())) w ∧
      w.running = false ∧ w.recorded.length = 0 ∧ ¬ Settles push_crates w) ∧
    ∃ w, transition.Run (system push_crates empty_push 8).step (fun _ _ => True) (start push_crates empty_push 0 (.ok ())) w ∧
      w.running = true ∧ ¬ Settles push_crates w := by
  have hunsettled {w : World} (hended : w.running = false) (hnone : w.recorded.length = 0) : ¬ Settles push_crates w := by
    intro hsettles
    obtain ⟨r, hr, -⟩ := hsettles.recorded hended
    simp [hr] at hnone
  refine ⟨⟨_, .start, ?_⟩, ?_, ?_⟩
  · have hend : (start push_crates empty_push 0 (.error "No such file or directory (os error 2)")).running = false ∧
        (start push_crates empty_push 0 (.error "No such file or directory (os error 2)")).recorded.length = 0 := by
      set_option maxRecDepth 2000 in decide
    exact ⟨hend.1, hend.2, hunsettled hend.1 hend.2⟩
  · have hfollow : (transition.follow (system push_crates empty_push 65536).step (fun _ _ => true)
        (start push_crates empty_push 0 (.ok ())) [.act (.exit (.code 0)), .act .resume]).any
          (fun w => !w.running && decide (w.recorded.length = 0)) = true := by
      set_option maxRecDepth 2000 in decide
    obtain ⟨w, hrun, hw⟩ := transition.run_of_follow (fun _ _ _ => trivial) hfollow
    simp only [Bool.and_eq_true, Bool.not_eq_true', decide_eq_true_eq] at hw
    exact ⟨w, hrun, hw.1, hw.2, hunsettled hw.1 hw.2⟩
  · have hfollow : (transition.follow (system push_crates empty_push 8).step (fun _ _ => true)
        (start push_crates empty_push 0 (.ok ())) [.act .resume, .tick (2 * MAX_PUSH_DURATION)]).any
          (fun w => w.running && decide (w.started + MAX_PUSH_DURATION < w.now)) = true := by
      set_option maxRecDepth 2000 in decide
    obtain ⟨w, hrun, hw⟩ := transition.run_of_follow (fun _ _ _ => trivial) hfollow
    simp only [Bool.and_eq_true, decide_eq_true_eq] at hw
    refine ⟨w, hrun, hw.1, fun hsettles => ?_⟩
    have hbounded := hsettles.bounded hw.1
    omega

end iac_controlplane.ssh_push
