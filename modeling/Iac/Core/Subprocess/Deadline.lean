import Iac.Core.Subprocess

open os

namespace iac_core.subprocess

variable {w v : World} {capacity : Nat}

/-- Whoever holds a pipe that the call reads lets go of it in time: by the bound
when the child has exited, before the end of the reader's window when it was
killed, unless nothing had been written to the pipe. -/
def released (w : World) : timed.Action Act → Prop
  | .act _ => True
  | .tick d =>
    match w.phase with
    | .collecting _ stdout => (w.outputs (awaited stdout)).writers = [] ∨ w.now + d ≤ w.bound
    | .receiving deadline partial_stdout => (w.outputs (awaited partial_stdout)).writers = [] ∨
        w.before_kill (awaited partial_stdout) = [] ∨ w.now + d < deadline
    | _ => True

/-- The child is running, or has come to its end without being killed. -/
def World.Unkilled (w : World) : Prop :=
  w.child = .running ∧ w.exit = none ∨ ∃ e, w.child = .exited e.status ∧ w.exit = some e

/-- The child was killed, and what had been written then has not been lost. -/
structure World.Killed (w : World) : Prop where
  child : w.child ≠ .running
  exit : w.exit = none
  before_kill : ∀ s, w.before_kill s <+: (w.outputs s).written

/-- What holds when the call has returned. -/
def World.Settled (w : World) : Except SubprocessError Output → Prop
  | .ok out => (∃ e, w.child = .exited e.status ∧ w.exit = some e ∧ e.status = out.status) ∧
      (∀ s, (w.outputs s).ended = true) ∧ out.stdout = (w.outputs .stdout).written ∧ out.stderr = (w.outputs .stderr).written
  | .error (.Spawn _) => w.child = .absent ∧ w.exit = none
  | .error (.Timeout _ stdout stderr) => w.Killed ∧ w.before_kill .stdout <+: stdout ∧ w.before_kill .stderr <+: stderr
  | .error (.Wait _) => w.wait_error ≠ none

/-- What holds where the calling thread is. -/
def World.InPhase (w : World) : Phase → Prop
  | .polling wake => w.Unkilled ∧ w.now ≤ wake ∧ wake < w.started + w.timeout + POLL_INTERVAL
  | .collecting status stdout => w.now ≤ w.bound ∧ (∃ e, w.child = .exited e.status ∧ w.exit = some e ∧ e.status = status) ∧
      ∀ out, stdout = some out → (w.outputs .stdout).ended = true ∧ out = (w.outputs .stdout).written
  | .reaping deadline wake => w.Killed ∧ w.now ≤ wake ∧ (∃ turns, wake + turns * POLL_INTERVAL = deadline) ∧
      deadline < w.started + w.timeout + POLL_INTERVAL + POST_KILL_REAP_WINDOW
  | .receiving deadline partial_stdout => w.Killed ∧ w.now ≤ deadline ∧
      (w.now < deadline ∨ (w.outputs (awaited partial_stdout)).ended = true ∨ w.before_kill (awaited partial_stdout) = []) ∧
      match partial_stdout with
      | none => deadline < w.started + w.timeout + POLL_INTERVAL + 2 * POST_KILL_REAP_WINDOW
      | some out => deadline < w.started + w.timeout + POLL_INTERVAL + 3 * POST_KILL_REAP_WINDOW ∧ w.before_kill .stdout <+: out
  | .returned result => w.Settled result

structure OnTime (w : World) : Prop where
  drained : ∀ s, (w.outputs s).Drained
  phase : w.InPhase w.phase

/-- What the processes and the other threads do while the calling thread waits. -/
structure Beside (w v : World) : Prop where
  now : v.now = w.now
  started : v.started = w.started
  timeout : v.timeout = w.timeout
  phase : v.phase = w.phase
  wait_error : v.wait_error = w.wait_error
  before_kill : v.before_kill = w.before_kill
  outputs : ∀ s, (w.outputs s).Follows (v.outputs s)
  child : v.child = w.child ∧ v.exit = w.exit ∨
    w.child = .running ∧ (∃ e, v.child = .exited e.status ∧ v.exit = some e) ∨
    w.child = .killed ∧ (∃ status, v.child = .exited status) ∧ v.exit = w.exit

theorem Beside.unkilled (h : Beside w v) (hw : w.Unkilled) : v.Unkilled := by
  obtain ⟨hchild, hexit⟩ | ⟨-, hexited⟩ | ⟨hkilled, -⟩ := h.child
  · rwa [World.Unkilled, hchild, hexit]
  · exact .inr hexited
  · obtain ⟨hrunning, -⟩ | ⟨e, hexited, -⟩ := hw
    · cases hkilled.symm.trans hrunning
    · cases hkilled.symm.trans hexited

theorem Beside.killed (h : Beside w v) (hw : w.Killed) : v.Killed := by
  refine ⟨?_, ?_, fun s => h.before_kill ▸ (hw.before_kill s).trans (h.outputs s).written⟩
  · obtain ⟨hchild, -⟩ | ⟨hrunning, -⟩ | ⟨-, ⟨status, hstatus⟩, -⟩ := h.child
    · exact hchild ▸ hw.child
    · exact absurd hrunning hw.child
    · simp [hstatus]
  · obtain ⟨-, hexit⟩ | ⟨hrunning, -⟩ | ⟨-, -, hexit⟩ := h.child
    · exact hexit.trans hw.exit
    · exact absurd hrunning hw.child
    · exact hexit.trans hw.exit

theorem Beside.exited (h : Beside w v) {status : ExitStatus}
    (hw : ∃ e, w.child = .exited e.status ∧ w.exit = some e ∧ e.status = status) :
    ∃ e, v.child = .exited e.status ∧ v.exit = some e ∧ e.status = status := by
  obtain ⟨e, hchild, hexit, hstatus⟩ := hw
  obtain ⟨hchild', hexit'⟩ | ⟨hrunning, -⟩ | ⟨hkilled, -⟩ := h.child
  · exact ⟨e, hchild'.trans hchild, hexit'.trans hexit, hstatus⟩
  · cases hrunning.symm.trans hchild
  · cases hkilled.symm.trans hchild

theorem Beside.settled (h : Beside w v) {result : Except SubprocessError Output} (hw : w.Settled result) : v.Settled result := by
  cases result with
  | ok out =>
    obtain ⟨hexited, hended, hstdout, hstderr⟩ := hw
    refine ⟨h.exited hexited, fun s => ((h.outputs s).ended (hended s)).1, ?_, ?_⟩
    · rw [((h.outputs .stdout).ended (hended .stdout)).2, hstdout]
    · rw [((h.outputs .stderr).ended (hended .stderr)).2, hstderr]
  | error e =>
    cases e with
    | Spawn e =>
      obtain ⟨hchild, hexit⟩ | ⟨hrunning, -⟩ | ⟨hkilled, -⟩ := h.child
      · exact ⟨hchild.trans hw.1, hexit.trans hw.2⟩
      · cases hrunning.symm.trans hw.1
      · cases hkilled.symm.trans hw.1
    | Timeout elapsed stdout stderr => exact ⟨h.killed hw.1, h.before_kill ▸ hw.2⟩
    | Wait e => exact h.wait_error.trans_ne hw

/-- Nothing that happens beside the calling thread takes it off its time. -/
theorem OnTime.beside (hw : OnTime w) (h : Beside w v) : OnTime v := by
  refine ⟨fun s => (h.outputs s).drained, ?_⟩
  have hphase := hw.phase
  rw [h.phase]
  cases hp : w.phase with
  | polling wake =>
    rw [hp] at hphase
    obtain ⟨hunkilled, hnow, hwake⟩ := hphase
    exact ⟨h.unkilled hunkilled, by rw [h.now]; exact hnow, by rw [h.started, h.timeout]; exact hwake⟩
  | collecting status stdout =>
    rw [hp] at hphase
    obtain ⟨hnow, hexited, hout⟩ := hphase
    refine ⟨by rw [h.now, World.bound, h.started, h.timeout]; exact hnow, h.exited hexited, fun out hsome => ?_⟩
    obtain ⟨hended, hwritten⟩ := hout out hsome
    obtain ⟨hended', hwritten'⟩ := (h.outputs .stdout).ended hended
    exact ⟨hended', hwritten.trans hwritten'.symm⟩
  | reaping deadline wake =>
    rw [hp] at hphase
    obtain ⟨hkilled, hnow, hturns, hdeadline⟩ := hphase
    exact ⟨h.killed hkilled, by rw [h.now]; exact hnow, hturns, by rw [h.started, h.timeout]; exact hdeadline⟩
  | receiving deadline partial_stdout =>
    rw [hp] at hphase
    obtain ⟨hkilled, hnow, hready, hrest⟩ := hphase
    refine ⟨h.killed hkilled, by rw [h.now]; exact hnow, ?_, ?_⟩
    · rw [h.now, h.before_kill]
      exact hready.imp_right (Or.imp_left fun hended => ((h.outputs _).ended hended).1)
    · cases partial_stdout <;> simpa only [h.started, h.timeout, h.before_kill] using hrest
  | returned result =>
    rw [hp] at hphase
    exact h.settled hphase

section Steps

variable (hw : OnTime w)

include hw

theorem beside_set_output {s : Stream} {o : os.Output} (ho : (w.outputs s).Follows o) : Beside w (w.set_output s o) := by
  refine ⟨rfl, rfl, rfl, rfl, rfl, rfl, fun s' => ?_, .inl ⟨rfl, rfl⟩⟩
  by_cases hs : s' = s
  · subst hs
    simpa [World.set_output] using ho
  · simpa [World.set_output, Function.update_of_ne hs] using Output.Follows.refl (hw.drained s')

theorem beside_exits {p : Pid} {status : ExitStatus} (h : w.exits p status = some v) : Beside w v := by
  have hdrop (s : Stream) : (w.outputs s).Follows ((w.outputs s).close p) := Output.follows_close (hw.drained s)
  rw [World.exits] at h
  split_ifs at h with hp
  · obtain rfl := Option.some.inj h
    exact ⟨rfl, rfl, rfl, rfl, rfl, rfl, hdrop, .inl ⟨rfl, rfl⟩⟩
  · obtain rfl := not_not.mp hp
    split at h
    · rename_i hrunning
      obtain rfl := Option.some.inj h
      exact ⟨rfl, rfl, rfl, rfl, rfl, rfl, hdrop, .inr (.inl ⟨hrunning, _, rfl, rfl⟩)⟩
    · rename_i hkilled
      obtain rfl := Option.some.inj h
      exact ⟨rfl, rfl, rfl, rfl, rfl, rfl, hdrop, .inr (.inr ⟨hkilled, ⟨status, rfl⟩, rfl⟩)⟩
    · cases h
    · cases h

/-- Every step but that of the calling thread is one beside it. -/
theorem beside_act {a : Act} (ha : a ≠ .poll) (h : act capacity w a = some v) : Beside w v := by
  have hstdin (stdin : Input) : Beside w { w with stdin } :=
    ⟨rfl, rfl, rfl, rfl, rfl, rfl, fun s => .refl (hw.drained s), .inl ⟨rfl, rfl⟩⟩
  cases a with
  | fork p q =>
    rw [act] at h
    split_ifs at h
    obtain rfl := Option.some.inj h
    exact ⟨rfl, rfl, rfl, rfl, rfl, rfl, fun s => Output.follows_fork (hw.drained s), .inl ⟨rfl, rfl⟩⟩
  | write p s bytes =>
    rw [act] at h
    split_ifs at h
    obtain ⟨o, hwrite, rfl⟩ := Option.map_eq_some_iff.mp h
    exact beside_set_output hw (Output.follows_write (hw.drained s) hwrite)
  | close p s =>
    rw [act] at h
    split_ifs at h
    obtain rfl := Option.some.inj h
    exact beside_set_output hw (Output.follows_close (hw.drained s))
  | close_stdin p =>
    rw [act] at h
    split_ifs at h
    obtain rfl := Option.some.inj h
    exact hstdin _
  | consume p n =>
    rw [act] at h
    split_ifs at h
    obtain ⟨stdin, -, rfl⟩ := Option.map_eq_some_iff.mp h
    exact hstdin _
  | exit p status => exact beside_exits hw h
  | read s =>
    obtain ⟨o, hread, rfl⟩ := Option.map_eq_some_iff.mp h
    exact beside_set_output hw (Output.follows_read hread)
  | feed =>
    rw [act] at h
    split_ifs at h
    obtain rfl := Option.some.inj h
    exact hstdin _
  | poll => exact absurd rfl ha

theorem OnTime.poll {wake : Nat} (hphase : w.phase = .polling wake) (hwake : wake ≤ w.now) : OnTime w.poll := by
  obtain ⟨hunkilled, hnow, hbefore⟩ : w.InPhase (.polling wake) := hphase ▸ hw.phase
  rw [World.poll]
  split
  · rename_i e herror
    exact ⟨hw.drained, by simp [World.InPhase, World.Settled, herror]⟩
  · obtain ⟨hrunning, hexit⟩ | ⟨e, hexited, hexit⟩ := hunkilled
    · simp only [hrunning]
      split_ifs with hlate
      · refine ⟨hw.drained, ⟨by simp, hexit, fun s => List.prefix_refl _⟩, Nat.le_refl _, ⟨40, ?_⟩, ?_⟩
        · simp only [POLL_INTERVAL, POST_KILL_REAP_WINDOW]
        · change w.now + POST_KILL_REAP_WINDOW < w.started + w.timeout + POLL_INTERVAL + POST_KILL_REAP_WINDOW
          omega
      · refine ⟨hw.drained, .inl ⟨rfl, hexit⟩, Nat.le_add_right _ _, ?_⟩
        change w.now + POLL_INTERVAL < w.started + w.timeout + POLL_INTERVAL
        omega
    · simp only [hexited]
      refine ⟨hw.drained, ?_, ⟨e, rfl, hexit, rfl⟩, nofun⟩
      change w.now ≤ w.started + w.timeout + 3 * POST_KILL_REAP_WINDOW + POLL_INTERVAL
      omega

theorem OnTime.reap {deadline wake : Nat} (hphase : w.phase = .reaping deadline wake) (hwake : wake ≤ w.now) :
    OnTime (w.reap deadline) := by
  obtain ⟨hkilled, hnow, ⟨turns, hturns⟩, hbefore⟩ : w.InPhase (.reaping deadline wake) := hphase ▸ hw.phase
  have hreceive : w.now ≤ deadline → OnTime { w with phase := .receiving (w.now + POST_KILL_REAP_WINDOW) none } := by
    intro hle
    refine ⟨hw.drained, ⟨hkilled.child, hkilled.exit, hkilled.before_kill⟩, Nat.le_add_right _ _, .inl ?_, ?_⟩
    · change w.now < w.now + POST_KILL_REAP_WINDOW
      simp [POST_KILL_REAP_WINDOW]
    · change w.now + POST_KILL_REAP_WINDOW < w.started + w.timeout + POLL_INTERVAL + 2 * POST_KILL_REAP_WINDOW
      omega
  rw [World.reap]
  split_ifs with hlt
  · split
    · exact hreceive (Nat.le_of_lt hlt)
    · cases turns with
      | zero => omega
      | succ turns =>
        refine ⟨hw.drained, ⟨hkilled.child, hkilled.exit, hkilled.before_kill⟩, Nat.le_add_right _ _, ⟨turns, ?_⟩, hbefore⟩
        have hsame : w.now = wake := Nat.le_antisymm hnow hwake
        rw [hsame, ← hturns, Nat.add_mul]
        omega
  · refine hreceive ?_
    omega

theorem OnTime.collect {status : ExitStatus} {stdout : Option (List UInt8)} (hphase : w.phase = .collecting status stdout)
    (hended : (w.outputs (awaited stdout)).ended = true) :
    OnTime (w.collect status stdout (w.outputs (awaited stdout)).buf) := by
  obtain ⟨hnow, hexited, hout⟩ : w.InPhase (.collecting status stdout) := hphase ▸ hw.phase
  have hbuf := Output.buf_of_ended (hw.drained _) hended
  cases stdout with
  | none => exact ⟨hw.drained, hnow, hexited, fun out hsome => ⟨hended, Option.some.inj hsome ▸ hbuf⟩⟩
  | some out =>
    obtain ⟨hended', hwritten⟩ := hout out rfl
    refine ⟨hw.drained, hexited, fun s => ?_, hwritten, hbuf⟩
    cases s with
    | stdout => exact hended'
    | stderr => exact hended

theorem OnTime.receive {deadline : Nat} {partial_stdout : Option (List UInt8)} {bytes : List UInt8}
    (hphase : w.phase = .receiving deadline partial_stdout)
    (hbytes : w.before_kill (awaited partial_stdout) <+: bytes) : OnTime (w.receive partial_stdout bytes) := by
  obtain ⟨hkilled, hnow, -, hrest⟩ : w.InPhase (.receiving deadline partial_stdout) := hphase ▸ hw.phase
  have hkilled' (phase : Phase) : ({ w with phase } : World).Killed := ⟨hkilled.child, hkilled.exit, hkilled.before_kill⟩
  cases partial_stdout with
  | none =>
    refine ⟨hw.drained, hkilled' _, Nat.le_add_right _ _, .inl ?_, ?_, hbytes⟩
    · change w.now < w.now + POST_KILL_REAP_WINDOW
      simp [POST_KILL_REAP_WINDOW]
    · change w.now + POST_KILL_REAP_WINDOW < w.started + w.timeout + POLL_INTERVAL + 3 * POST_KILL_REAP_WINDOW
      have hdeadline : deadline < w.started + w.timeout + POLL_INTERVAL + 2 * POST_KILL_REAP_WINDOW := hrest
      omega
  | some out => exact ⟨hw.drained, hkilled' _, hrest.2, hbytes⟩

theorem OnTime.resume (h : w.resume = some v) : OnTime v := by
  rw [World.resume] at h
  split at h
  · rename_i wake hphase
    split_ifs at h with hwake
    exact Option.some.inj h ▸ hw.poll hphase hwake
  · rename_i status stdout hphase
    simp only at h
    split_ifs at h with hended
    exact Option.some.inj h ▸ hw.collect hphase hended
  · rename_i deadline wake hphase
    split_ifs at h with hwake
    exact Option.some.inj h ▸ hw.reap hphase hwake
  · rename_i deadline partial_stdout hphase
    obtain ⟨hkilled, hnow, hready, -⟩ : w.InPhase (.receiving deadline partial_stdout) := hphase ▸ hw.phase
    simp only at h
    split_ifs at h with hended hdeadline
    · refine Option.some.inj h ▸ hw.receive hphase ?_
      rw [Output.buf_of_ended (hw.drained _) hended]
      exact hkilled.before_kill _
    · refine Option.some.inj h ▸ hw.receive hphase ?_
      obtain hearly | hended' | hnothing := hready
      · omega
      · exact absurd hended' hended
      · exact List.prefix_nil.mpr hnothing
  · cases h

theorem OnTime.act {a : Act} (h : act capacity w a = some v) : OnTime v := by
  by_cases ha : a = .poll
  · subst ha
    exact hw.resume h
  · exact hw.beside (beside_act hw ha h)

/-- Time passes while nobody can go on. -/
theorem OnTime.tick {d : Nat} (hallowed : released w (.tick d)) (hurgent : (system capacity).urgent w = false)
    (hwake : ∀ wake, w.wake = some wake → w.now + d ≤ wake) : OnTime { w with now := w.now + d } := by
  refine ⟨hw.drained, ?_⟩
  have hidle : w.resume = none ∧ ∀ s, (w.outputs s).readable = false := by
    have hurgent' : (w.resume.isSome || w.stdin.writable capacity ||
        [Stream.stdout, Stream.stderr].any fun s => (w.outputs s).readable) = false := hurgent
    simp only [Bool.or_eq_false_iff, List.any_cons, List.any_nil, Option.isSome_eq_false_iff, Option.isNone_iff_eq_none] at hurgent'
    refine ⟨hurgent'.1.1, fun s => ?_⟩
    cases s with
    | stdout => exact hurgent'.2.1
    | stderr => exact hurgent'.2.2.1
  have hphase := hw.phase
  cases hp : w.phase with
  | polling wake =>
    rw [hp] at hphase
    obtain ⟨hunkilled, -, hbefore⟩ := hphase
    exact ⟨hunkilled, hwake wake (by rw [World.wake, hp]), hbefore⟩
  | collecting status stdout =>
    rw [hp] at hphase
    obtain ⟨-, hexited, hout⟩ := hphase
    refine ⟨?_, hexited, hout⟩
    have hopen : (w.outputs (awaited stdout)).ended = false := by
      by_contra hended
      have hresume := hidle.1
      simp [World.resume, hp, Bool.not_eq_false _ ▸ hended] at hresume
    simp only [released, hp] at hallowed
    exact hallowed.resolve_left (Output.held_of_not_readable (hidle.2 _) hopen)
  | reaping deadline wake =>
    rw [hp] at hphase
    obtain ⟨hkilled, -, hturns, hbefore⟩ := hphase
    exact ⟨⟨hkilled.child, hkilled.exit, hkilled.before_kill⟩, hwake wake (by rw [World.wake, hp]), hturns, hbefore⟩
  | receiving deadline partial_stdout =>
    rw [hp] at hphase
    obtain ⟨hkilled, -, -, hrest⟩ := hphase
    refine ⟨⟨hkilled.child, hkilled.exit, hkilled.before_kill⟩, hwake deadline (by rw [World.wake, hp]), ?_, hrest⟩
    by_cases hended : (w.outputs (awaited partial_stdout)).ended = true
    · exact .inr (.inl hended)
    · simp only [released, hp] at hallowed
      obtain hnone | hnothing | hearly := hallowed
      · exact absurd hnone (Output.held_of_not_readable (hidle.2 _) (by simpa using hended))
      · exact .inr (.inr hnothing)
      · exact .inl hearly
  | returned result =>
    rw [hp] at hphase
    cases result with
    | ok out => exact hphase
    | error e =>
      cases e with
      | Spawn e => exact hphase
      | Timeout elapsed stdout stderr =>
        exact ⟨⟨hphase.1.child, hphase.1.exit, hphase.1.before_kill⟩, hphase.2⟩
      | Wait e => exact hphase

theorem OnTime.meets : MeetsDeadline w := by
  have hphase := hw.phase
  refine ⟨fun hnone => ?_, fun e result hexit _ _ herror hresult => ?_, fun elapsed stdout stderr hresult => ?_⟩
  · rw [World.bound]
    cases hp : w.phase with
    | polling wake =>
      obtain ⟨-, hnow, hbefore⟩ : w.InPhase (.polling wake) := hp ▸ hphase
      omega
    | collecting status stdout => exact (hp ▸ hphase : w.InPhase (.collecting status stdout)).1
    | reaping deadline wake =>
      obtain ⟨-, hnow, ⟨turns, hturns⟩, hbefore⟩ : w.InPhase (.reaping deadline wake) := hp ▸ hphase
      omega
    | receiving deadline partial_stdout =>
      obtain ⟨-, hnow, -, hrest⟩ : w.InPhase (.receiving deadline partial_stdout) := hp ▸ hphase
      cases partial_stdout with
      | none =>
        have hdeadline : deadline < w.started + w.timeout + POLL_INTERVAL + 2 * POST_KILL_REAP_WINDOW := hrest
        omega
      | some out =>
        have hdeadline : deadline < w.started + w.timeout + POLL_INTERVAL + 3 * POST_KILL_REAP_WINDOW := hrest.1
        omega
    | returned result => simp [World.result, hp] at hnone
  · cases hp : w.phase <;> simp only [World.result, hp] at hresult <;> try cases hresult
    have hsettled : w.Settled result := by rwa [hp] at hphase
    cases result with
    | ok out =>
      obtain ⟨⟨e', -, hexit', hstatus⟩, -, hstdout, hstderr⟩ := hsettled
      obtain rfl : e = e' := Option.some.inj (hexit.symm.trans hexit')
      rw [hstatus, ← hstdout, ← hstderr]
    | error err =>
      cases err with
      | Spawn _ => cases hexit.symm.trans hsettled.2
      | Timeout _ _ _ => cases hexit.symm.trans hsettled.1.exit
      | Wait _ => exact absurd herror hsettled
  · cases hp : w.phase <;> simp only [World.result, hp] at hresult <;> try cases hresult
    rw [hp] at hphase
    exact hphase.2

end Steps

/-- A thread that sleeps has not slept long enough yet. -/
theorem now_lt_wake {wake : Nat} (hresume : w.resume = none) (hwake : w.wake = some wake) : w.now < wake := by
  by_contra hdue
  cases hp : w.phase with
  | polling wake' | reaping deadline wake' =>
    obtain rfl : wake' = wake := by simpa [World.wake, hp] using hwake
    simp [World.resume, hp, Nat.le_of_not_lt hdue] at hresume
  | receiving deadline partial_stdout =>
    obtain rfl : deadline = wake := by simpa [World.wake, hp] using hwake
    simp only [World.resume, hp] at hresume
    split_ifs at hresume
    omega
  | collecting status stdout => simp [World.wake, hp] at hwake
  | returned result => simp [World.wake, hp] at hwake

/-- Time passes wherever no thread of the call can go on. -/
theorem time_passes (h : (system capacity).urgent w = false) :
    (system capacity).step w (.tick 1) = some { w with now := w.now + 1 } := by
  refine timed.tick_of_not_urgent (fun wake hwake => ?_) h
  have hurgent : (w.resume.isSome || w.stdin.writable capacity ||
      [Stream.stdout, Stream.stderr].any fun s => (w.outputs s).readable) = false := h
  simp only [Bool.or_eq_false_iff, Option.isSome_eq_false_iff, Option.isNone_iff_eq_none] at hurgent
  exact now_lt_wake hurgent.1.1 hwake

theorem onTime_start (now timeout : Nat) (stdin : List UInt8) (wait_error : Option String) (spawn : Except String Unit) :
    OnTime (run_with_timeout now timeout stdin wait_error spawn) := by
  refine ⟨fun s => (nofun : false = true → _), ?_⟩
  cases spawn with
  | ok =>
    refine ⟨.inl ⟨rfl, rfl⟩, Nat.le_refl _, ?_⟩
    change now < now + timeout + POLL_INTERVAL
    simp only [POLL_INTERVAL]
    omega
  | error e => exact ⟨rfl, rfl⟩

/-- A call meets its deadline when its pipes are let go of in time. -/
theorem released_pipes_meet_deadline {now timeout : Nat} {stdin : List UInt8} {wait_error : Option String}
    {spawn : Except String Unit}
    (hrun : transition.Run (system capacity).step released (run_with_timeout now timeout stdin wait_error spawn) w) :
    MeetsDeadline w := by
  have hontime : OnTime w := timed.Run.invariant hrun (onTime_start now timeout stdin wait_error spawn)
    (fun _ _ _ hw _ h => hw.act h) fun _ _ hw hallowed hurgent hwake => hw.tick hallowed hurgent hwake
  exact hontime.meets

/-- The condition, computed. -/
def releases (w : World) : timed.Action Act → Bool
  | .act _ => true
  | .tick d =>
    match w.phase with
    | .collecting _ stdout => (w.outputs (awaited stdout)).writers.isEmpty || decide (w.now + d ≤ w.bound)
    | .receiving deadline partial_stdout => (w.outputs (awaited partial_stdout)).writers.isEmpty ||
        (w.before_kill (awaited partial_stdout)).isEmpty || decide (w.now + d < deadline)
    | _ => true

theorem released_of_releases (w : World) (a : timed.Action Act) (h : releases w a = true) : released w a := by
  cases a with
  | act a => trivial
  | tick d =>
    simp only [releases] at h
    simp only [released]
    split <;> simp_all [or_assoc]

/-- The output that the call has returned. -/
def World.collected (w : World) : Option Output :=
  match w.result with
  | some (.ok out) => some out
  | _ => none

theorem result_of_collected {w : World} {out : Output} (h : w.collected = some out) : w.result = some (.ok out) := by
  unfold World.collected at h
  split at h
  · rename_i hresult
    rw [hresult, Option.some.inj h]
  · cases h

/-- The output that a timeout has returned. -/
def World.timed_out (w : World) : Option (List UInt8 × List UInt8) :=
  match w.result with
  | some (.error (.Timeout _ stdout stderr)) => some (stdout, stderr)
  | _ => none

theorem result_of_timed_out {w : World} {stdout stderr : List UInt8} (h : w.timed_out = some (stdout, stderr)) :
    ∃ elapsed, w.result = some (.error (.Timeout elapsed stdout stderr)) := by
  unfold World.timed_out at h
  split at h
  · rename_i elapsed _ _ hresult
    cases h
    exact ⟨elapsed, hresult⟩
  · cases h

/-- A child that greets, starts another process, and exits; what it started keeps its output for a second. -/
theorem greeting_is_collected : ∃ w : World,
    w.result = some (.ok { status := .code 0, stdout := [104, 105], stderr := [] }) ∧ MeetsDeadline w := by
  have hfollow : (transition.follow (system 65536).step releases (run_with_timeout 0 200000000 [1] none (.ok ()))
      [.act .feed, .act .feed, .act (.write 0 .stdout [104, 105]), .act (.fork 0 1), .act (.exit 0 (.code 0)),
        .act (.read .stdout), .act .poll, .tick 1000000000, .act (.exit 1 (.code 0)), .act (.read .stdout),
        .act (.read .stderr), .act .poll, .act .poll]).any
          (fun w => w.collected = some { status := .code 0, stdout := [104, 105], stderr := [] }) = true := by
    decide
  obtain ⟨w, hrun, hw⟩ := transition.run_of_follow released_of_releases hfollow
  exact ⟨w, result_of_collected (of_decide_eq_true hw), released_pipes_meet_deadline hrun⟩

/-- What the child started keeps its output open: after an exit the call waits for
it past every bound, and after a kill it returns without what had been written. -/
theorem inherited_output_misses_deadline :
    (∃ w, transition.Run (system 65536).step (fun _ _ => True) (run_with_timeout 0 200000000 [] none (.ok ())) w ∧
      w.result = none ∧ ¬ MeetsDeadline w) ∧
    ∃ w, transition.Run (system 65536).step (fun _ _ => True) (run_with_timeout 0 0 [] none (.ok ())) w ∧
      w.before_kill .stdout = [104, 105] ∧ (∃ elapsed, w.result = some (.error (.Timeout elapsed [] []))) ∧ ¬ MeetsDeadline w := by
  constructor
  · have hfollow : (transition.follow (system 65536).step (fun _ _ => true) (run_with_timeout 0 200000000 [] none (.ok ()))
        [.act (.fork 0 1), .act (.exit 0 (.code 0)), .act .feed, .act .poll, .tick 86400000000000]).any
          (fun w => w.result.isNone && decide (w.bound < w.now)) = true := by
      decide
    obtain ⟨w, hrun, hw⟩ := transition.run_of_follow (fun _ _ _ => trivial) hfollow
    simp only [Bool.and_eq_true, Option.isNone_iff_eq_none, decide_eq_true_eq] at hw
    refine ⟨w, hrun, hw.1, fun hmeets => ?_⟩
    have hbounded := hmeets.bounded hw.1
    omega
  · have hfollow : (transition.follow (system 65536).step (fun _ _ => true) (run_with_timeout 0 0 [] none (.ok ()))
        [.act .feed, .act (.write 0 .stdout [104, 105]), .act (.fork 0 1), .act (.read .stdout), .act .poll,
          .act (.exit 0 (.signal 9)), .act .poll, .tick 1000000000, .act .poll, .tick 1000000000, .act .poll]).any
          (fun w => w.before_kill .stdout = [104, 105] ∧ w.timed_out = some ([], [])) = true := by
      decide
    obtain ⟨w, hrun, hw⟩ := transition.run_of_follow (fun _ _ _ => trivial) hfollow
    obtain ⟨hwritten, hresult⟩ := of_decide_eq_true hw
    obtain ⟨elapsed, hlost⟩ := result_of_timed_out hresult
    refine ⟨w, hrun, hwritten, ⟨elapsed, hlost⟩, fun hmeets => ?_⟩
    have hkept := (hmeets.killed _ _ _ hlost).1
    rw [hwritten] at hkept
    cases List.prefix_nil.mp hkept

end iac_core.subprocess
