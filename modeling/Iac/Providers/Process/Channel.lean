import Iac.Providers.Process

open iac_core iac_core.executor serde_json substring

namespace iac_providers.process

structure Response where
  id : Nat
  error : Option String := none
  result : Option Value := none

/-- A line of a child's stdout, or a failure to read one, with the place of the request
that it answers among those written to the child. -/
structure Utterance where
  line : Except String String
  answers : Option Nat := none

/-- An utterance in the channel: the child it comes from, how many requests had been written
when it came, and the number of the request that it answers. -/
structure Delivery where
  line : Except String String
  child : Nat
  written : Nat
  answers : Option Nat

/-- A child process, with the lines in its channel and the requests written to it. -/
structure Child where
  number : Nat
  lines : List Delivery := []
  requests : List Nat := []

/-- The handle with its latest child; `written` counts the requests of the handle. -/
structure Wire where
  state : State := {}
  child : Child := { number := 0 }
  written : Nat := 0

/-- `RecvTimeoutError`. -/
inductive Silence where
  | Timeout
  | Disconnected

/-- The error of a read when no line comes. -/
def Silence.message : Silence → String
  | .Timeout => "deadline"
  | .Disconnected => "EOF"

/-- What the surroundings do in one `call_once`: what comes of a spawn, the lines that come
before the request, what comes of the write, the lines that come between it and the
deadline, and what the read meets when there is no line. -/
structure Scene where
  now : Nat := 0
  spawn : Spawn := .no_process ""
  before : List Utterance := []
  write_failure : Option String := none
  after : List Utterance := []
  silence : Silence := .Timeout
  failed_at : Nat := 0

/-- The child that a request goes to: the running one, else the next one. -/
def Wire.current (w : Wire) : Child :=
  if w.state.running then w.child else { number := w.child.number + 1 }

/-- The reader thread hands over what the child says, `written` requests having been written. -/
def Child.hear (child : Child) (written : Nat) (said : List Utterance) : Child :=
  { child with
    lines := child.lines ++ said.map fun utterance =>
      ⟨utterance.line, child.number, written, utterance.answers.bind fun place => child.requests[place]?⟩ }

def Child.send (child : Child) (request : Nat) : Child :=
  { child with requests := child.requests ++ [request] }

/-- The child when the response is read. -/
def Wire.asked (w : Wire) (scene : Scene) : Child :=
  ((w.current.hear w.written scene.before).send w.written).hear (w.written + 1) scene.after

def read_line_until (silence : Silence) : List Delivery → Except String String
  | [] => .error silence.message
  | delivery :: _ => delivery.line

variable (spec : ExternalProviderSpec) (from_str : String → Except String Response)

def read_response_until (silence : Silence) (lines : List Delivery) : Except String Response :=
  match read_line_until silence lines with
  | .error e => .error e
  | .ok line =>
    match from_str line with
    | .ok response => .ok response
    | .error e => .error ("parse response: " ++ e ++ ": " ++ str.debug line)

def Scene.exchange (scene : Scene) (lines : List Delivery) : Exchange :=
  match scene.write_failure with
  | some message => .write_failed message
  | none =>
    match read_response_until from_str scene.silence lines with
    | .error message => .read_failed message
    | .ok response => .response response.id response.error response.result

/-- The line that is read, if the request could be written. -/
def Scene.heard (scene : Scene) (lines : List Delivery) : Option Delivery :=
  match scene.write_failure with
  | some _ => none
  | none => lines.head?

def Scene.left (scene : Scene) (lines : List Delivery) : List Delivery :=
  match scene.write_failure with
  | some _ => lines
  | none => lines.tail

def Wire.attempt (w : Wire) (scene : Scene) : Attempt where
  now := scene.now
  spawn := scene.spawn
  exchange := scene.exchange from_str (w.asked scene).lines
  failed_at := scene.failed_at

/-- One round of the loop of `call`: the handle before, the line that was read, what
`call_once` came to, and the handle after. -/
structure Round where
  start : Wire
  scene : Scene
  heard : Option Delivery
  outcome : Except executor.Error Value
  final : Wire

/-- What the loop of `call` makes of an outcome of `call_once`. -/
def settle (attempt : Attempt) (outcome : Except executor.Error Value) (state : State) : State :=
  match outcome with
  | .ok _ => { state with consecutive_crashes := 0, spawn_blocked_until := none }
  | .error e => if is_transport e then record_crash attempt state else state

def one_round (w : Wire) (scene : Scene) : Round :=
  let attempt := w.attempt from_str scene
  let (outcome, state) := call_once spec attempt w.state
  let child := w.asked scene
  if state.running then
    { start := w, scene, outcome
      heard := scene.heard child.lines
      final :=
        { state := settle attempt outcome state
          child := { child with lines := scene.left child.lines }
          written := w.written + 1 } }
  else { start := w, scene, outcome, heard := none, final := { w with state := settle attempt outcome state } }

/-- The round is followed by another attempt, if there is one left. -/
def Round.again (r : Round) : Bool :=
  match r.outcome with
  | .ok _ => false
  | .error e => is_transport e && spec.restart_on_crash

/-- The rounds of the loop of `call`. -/
def rounds (w : Wire) : List Scene → List Round
  | [] => []
  | scene :: scenes =>
    let r := one_round spec from_str w scene
    r :: if r.again spec then rounds r.final scenes else []

/-- The handle after a call's rounds. -/
def Wire.after (w : Wire) (rs : List Round) : Wire := (rs.getLast?.map Round.final).getD w

/-- The rounds of each call of a sequence of calls. -/
def session (w : Wire) : List (Scene × Scene) → List (List Round)
  | [] => []
  | c :: calls =>
    let rs := rounds spec from_str w [c.1, c.2]
    rs :: session (w.after rs) calls

/-- The attempts that `call` makes of the scenes. -/
def attempts (w : Wire) : List Scene → List Attempt
  | [] => []
  | scene :: scenes => w.attempt from_str scene :: attempts (one_round spec from_str w scene).final scenes

section Synchronised

variable {spec from_str}

/-- The child that the round's request goes to. -/
def Round.child (r : Round) : Nat := r.start.current.number

/-- The id of the round's request. -/
def Round.id (r : Round) : Nat := r.start.state.next_id

/-- The round reads a line that is a response. -/
def Round.Reads (from_str : String → Except String Response) (r : Round) (delivery : Delivery)
    (response : Response) : Prop :=
  r.heard = some delivery ∧ ∃ line, delivery.line = .ok line ∧ from_str line = .ok response

/-- The plugin's reply to the request is an error of its own. -/
def Round.ApplicationError (from_str : String → Except String Response) (r : Round) : Prop :=
  ∃ delivery response, r.Reads from_str delivery response ∧ response.id = r.id ∧ response.error ≠ none

/-- The round fails with anything but an application error. -/
def Round.FailedOtherwise (from_str : String → Except String Response) (r : Round) : Prop :=
  (∃ e, r.outcome = .error e) ∧ ¬ r.ApplicationError from_str

/-- A value is what the child answered to the request after it was sent; an application
error ends its call, keeps the child and adds no crash; after a call that failed otherwise no
line is read that answers a request of before. -/
structure Synchronised (from_str : String → Except String Response) (calls : List (List Round)) : Prop where
  answered : ∀ rs ∈ calls, ∀ r ∈ rs, ∀ v, r.outcome = .ok v → ∃ delivery response,
    r.Reads from_str delivery response ∧ delivery.child = r.child ∧ r.start.written < delivery.written ∧
      response.id = r.id ∧ response.error = none ∧ response.result.getD .null = v
  application_errors : ∀ rs ∈ calls, ∀ r ∈ rs, r.ApplicationError from_str →
    rs.getLast? = some r ∧ r.final.state.running = true ∧ r.final.child.number = r.child ∧
      r.final.state.consecutive_crashes ≤ r.start.state.consecutive_crashes
  no_stale_line : calls.Pairwise fun earlier later => ∀ r, earlier.getLast? = some r → r.FailedOtherwise from_str →
    ∀ r' ∈ later, ∀ delivery, r'.heard = some delivery → ∀ request, delivery.answers = some request →
      r.final.written ≤ request

/-- When the line that is read is a response, it has the request's id, and it is an error
with no mark of the transport or was said after the request was sent. -/
def Orderly (spec : ExternalProviderSpec) (from_str : String → Except String Response) (r : Round) : Prop :=
  ∀ delivery response, r.Reads from_str delivery response → response.id = r.id ∧
    match response.error with
    | some message => is_transport (provider_error spec message) = false
    | none => r.start.written < delivery.written

theorem is_transport_of_mark {message : String} (mark : String) (hmark : mark ∈ transport_marks)
    (h : mark.toList <:+: message.toList) : is_transport (provider_error spec message) = true := by
  have hcut : cut mark.toList message.toList ≠ none := fun hnone => cut_eq_none_iff.mp hnone h
  exact List.any_eq_true.mpr ⟨mark, hmark, Option.isSome_iff_ne_none.mpr hcut⟩

theorem write_failure_is_transport (message : String) :
    is_transport (provider_error spec ("write: " ++ message)) = true := by
  refine is_transport_of_mark "write:" (by simp [transport_marks]) ?_
  exact ⟨[], ' ' :: message.toList, by simp⟩

theorem read_failure_is_transport (message : String) :
    is_transport (provider_error spec ("read: " ++ message)) = true := by
  refine is_transport_of_mark "read:" (by simp [transport_marks]) ?_
  exact ⟨[], ' ' :: message.toList, by simp⟩

/-- A spawn keeps the ids and the crashes; it succeeds when a child runs. -/
theorem spawn_locked_cases {attempt : Attempt} {state : State} (hidle : state.running = false) :
    (∃ e, (spawn_locked spec attempt state).1 = .error e ∧ (spawn_locked spec attempt state).2.running = false) ∨
      ∃ up, spawn_locked spec attempt state = (.ok (), up) ∧ up.running = true ∧ up.next_id = state.next_id ∧
        up.consecutive_crashes = state.consecutive_crashes := by
  have hhandshake : ∀ ready : State, ready.running = false → ready.next_id = state.next_id →
      ready.consecutive_crashes = state.consecutive_crashes →
      (∃ e, (handshake spec attempt ready).1 = .error e ∧ (handshake spec attempt ready).2.running = false) ∨
        ∃ up, handshake spec attempt ready = (.ok (), up) ∧ up.running = true ∧ up.next_id = state.next_id ∧
          up.consecutive_crashes = state.consecutive_crashes := by
    intro ready hready hid hcrashes
    rw [handshake]
    cases attempt.spawn with
    | no_process message => exact .inl ⟨_, rfl, hready⟩
    | no_line message => exact .inl ⟨_, rfl, hready⟩
    | no_hello message => exact .inl ⟨_, rfl, hready⟩
    | hello hello =>
      simp only
      split_ifs
      · exact .inl ⟨_, rfl, hready⟩
      · exact .inl ⟨_, rfl, hready⟩
      · exact .inr ⟨_, rfl, rfl, hid, hcrashes⟩
  rw [spawn_locked]
  cases state.spawn_blocked_until with
  | none => exact hhandshake state hidle rfl rfl
  | some blocked_until =>
    simp only
    split
    · exact .inl ⟨_, rfl, hidle⟩
    · exact hhandshake _ hidle rfl rfl

/-- Either there is no child to write to, or the request is made of a child that runs. -/
theorem call_once_cases (attempt : Attempt) (state : State) :
    ((∃ e, (call_once spec attempt state).1 = .error e) ∧ (call_once spec attempt state).2.running = false ∧
      state.running = false) ∨
    ∃ up, call_once spec attempt state = exchange spec attempt up ∧ up.running = true ∧
      up.next_id = state.next_id ∧ up.consecutive_crashes = state.consecutive_crashes := by
  rw [call_once]
  by_cases hrunning : state.running = true
  · rw [if_pos hrunning]
    exact .inr ⟨state, rfl, hrunning, rfl, rfl⟩
  · rw [if_neg hrunning]
    have hidle : state.running = false := by simpa using hrunning
    obtain ⟨e, herror, hdown⟩ | ⟨up, hspawn, hup⟩ := @spawn_locked_cases spec attempt state hidle
    · left
      rcases hspawn : spawn_locked spec attempt state with ⟨outcome, spawned⟩
      rw [hspawn] at herror hdown
      obtain rfl : outcome = .error e := herror
      exact ⟨⟨e, rfl⟩, hdown, hidle⟩
    · rw [hspawn]
      exact .inr ⟨up, rfl, hup⟩

theorem exchange_state (attempt : Attempt) (state : State) :
    (exchange spec attempt state).2 = { state with next_id := following_id state.next_id } := by
  rw [exchange]
  cases attempt.exchange with
  | write_failed message => rfl
  | read_failed message => rfl
  | response answered error result =>
    simp only
    split
    · rfl
    · cases error <;> rfl

theorem call_once_eq_one_round (w : Wire) (scene : Scene) : ∃ state,
    call_once spec (w.attempt from_str scene) w.state = ((one_round spec from_str w scene).outcome, state) ∧
      (one_round spec from_str w scene).final.state =
        settle (w.attempt from_str scene) (one_round spec from_str w scene).outcome state := by
  refine ⟨(call_once spec (w.attempt from_str scene) w.state).2, ?_, ?_⟩
  · rw [one_round]
    dsimp only
    split <;> rfl
  · rw [one_round]
    dsimp only
    split <;> rfl

theorem attempts_eq_nil_iff {scenes : List Scene} {w : Wire} :
    attempts spec from_str w scenes = [] ↔ scenes = [] := by
  cases scenes <;> simp [attempts]

/-- The loop of `call`, with the attempts that the scenes amount to, ends as the rounds do. -/
theorem call_tries_eq_rounds {scenes : List Scene} {w : Wire} {r : Round}
    (h : (rounds spec from_str w scenes).getLast? = some r) :
    call_tries spec w.state (attempts spec from_str w scenes) = (r.outcome, r.final.state) := by
  induction scenes generalizing w with
  | nil => cases h
  | cons scene scenes ih =>
    obtain ⟨state, hcall, hfinal⟩ := @call_once_eq_one_round spec from_str w scene
    rw [rounds] at h
    rw [attempts, call_tries, hcall]
    cases houtcome : (one_round spec from_str w scene).outcome with
    | ok v =>
      have hagain : (one_round spec from_str w scene).again spec = false := by rw [Round.again, houtcome]
      simp only [hagain, Bool.false_eq_true, if_false, List.getLast?_singleton, Option.some.injEq] at h
      rw [← h, hfinal, houtcome]
      rfl
    | error e =>
      rw [houtcome, settle] at hfinal
      simp only [Round.again, houtcome] at h
      by_cases htransport : is_transport e = true
      · rw [if_pos htransport] at hfinal
        by_cases hagain : scenes ≠ [] ∧ spec.restart_on_crash = true
        · have hmore : attempts spec from_str (one_round spec from_str w scene).final scenes ≠ [] := by
            rw [ne_eq, attempts_eq_nil_iff]
            exact hagain.1
          simp only [htransport, hagain.2, hmore, ne_eq, not_false_eq_true, and_self, if_true]
          rw [← hfinal]
          refine ih ?_
          simp only [htransport, hagain.2, Bool.and_self, if_true] at h
          rw [List.getLast?_cons] at h
          cases hlast : (rounds spec from_str (one_round spec from_str w scene).final scenes).getLast? with
          | none =>
            have hnil := List.getLast?_eq_none_iff.mp hlast
            obtain ⟨next, later, rfl⟩ := List.exists_cons_of_ne_nil hagain.1
            rw [rounds] at hnil
            cases hnil
          | some r' =>
            rw [hlast] at h
            exact h
        · have hlast : one_round spec from_str w scene = r := by
            by_cases hscenes : scenes = []
            · subst hscenes
              simpa [rounds] using h
            · have hrestart : spec.restart_on_crash = false := by
                simpa [hscenes] using hagain
              simpa [hrestart] using h
          have hstop : ¬ (attempts spec from_str (one_round spec from_str w scene).final scenes ≠ [] ∧
              spec.restart_on_crash = true) := by
            rwa [ne_eq, attempts_eq_nil_iff]
          simp only [htransport, if_true]
          rw [if_neg hstop, ← hlast, houtcome, hfinal]
      · rw [if_neg htransport] at hfinal
        have hstop : (is_transport e && spec.restart_on_crash) = false := by simp [htransport]
        simp only [hstop, Bool.false_eq_true, if_false, List.getLast?_singleton, Option.some.injEq] at h
        simp only [htransport, Bool.false_eq_true, if_false]
        rw [← h, houtcome, hfinal]

/-- What a round is when there is no child to write to. -/
structure NoChild (w : Wire) (r : Round) : Prop where
  failed : ∃ e, r.outcome = .error e
  heard : r.heard = none
  idle : r.final.state.running = false
  written : r.final.written = w.written

/-- What a round is when its request is made, the state being `up` before it. -/
structure Requested (spec : ExternalProviderSpec) (from_str : String → Except String Response) (w : Wire)
    (scene : Scene) (up : State) (r : Round) : Prop where
  running : up.running = true
  next_id : up.next_id = w.state.next_id
  crashes : up.consecutive_crashes = w.state.consecutive_crashes
  outcome : r.outcome = (exchange spec (w.attempt from_str scene) up).1
  heard : r.heard = scene.heard (w.asked scene).lines
  state : r.final.state =
    settle (w.attempt from_str scene) r.outcome { up with next_id := following_id up.next_id }
  child : r.final.child = { w.asked scene with lines := scene.left (w.asked scene).lines }
  written : r.final.written = w.written + 1

theorem settle_idle {attempt : Attempt} {outcome : Except executor.Error Value} {state : State}
    (h : state.running = false) : (settle attempt outcome state).running = false := by
  cases outcome with
  | ok v => exact h
  | error e =>
    rw [settle]
    split
    · rfl
    · exact h

theorem one_round_cases (w : Wire) (scene : Scene) :
    NoChild w (one_round spec from_str w scene) ∨
      ∃ up, Requested spec from_str w scene up (one_round spec from_str w scene) := by
  rw [one_round]
  obtain ⟨⟨e, herror⟩, hidle, -⟩ | ⟨up, hcall, hrunning, hid, hcrashes⟩ :=
    @call_once_cases spec (w.attempt from_str scene) w.state
  · rcases hcall : call_once spec (w.attempt from_str scene) w.state with ⟨outcome, state⟩
    rw [hcall] at herror hidle
    have hdown : ¬ state.running = true := by simpa using hidle
    simp only [if_neg hdown]
    exact .inl ⟨⟨e, herror⟩, rfl, settle_idle hidle, rfl⟩
  · rw [hcall]
    have hstate := @exchange_state spec (w.attempt from_str scene) up
    rcases hexchange : exchange spec (w.attempt from_str scene) up with ⟨outcome, state⟩
    rw [hexchange] at hstate
    obtain rfl : state = { up with next_id := following_id up.next_id } := hstate
    dsimp only
    rw [if_pos hrunning]
    exact .inr ⟨up, hrunning, hid, hcrashes, (congrArg Prod.fst hexchange).symm, rfl, rfl, rfl, rfl⟩

@[simp] theorem one_round_start (w : Wire) (scene : Scene) : (one_round spec from_str w scene).start = w := by
  rw [one_round]
  dsimp only
  split <;> rfl

/-- Requests and lines of a child are its own, and none is older than the request `first`. -/
structure Since (first : Nat) (child : Child) : Prop where
  requests : ∀ request ∈ child.requests, first ≤ request
  lines : ∀ delivery ∈ child.lines, delivery.child = child.number ∧
    ∀ request, delivery.answers = some request → first ≤ request

theorem Since.hear {first written : Nat} {child : Child} {said : List Utterance} (h : Since first child) :
    Since first (child.hear written said) := by
  refine ⟨h.requests, ?_⟩
  intro delivery hdelivery
  obtain hold | hnew := List.mem_append.mp hdelivery
  · exact h.lines delivery hold
  · obtain ⟨utterance, -, rfl⟩ := List.mem_map.mp hnew
    refine ⟨rfl, ?_⟩
    intro request hrequest
    obtain ⟨place, -, hplace⟩ := Option.bind_eq_some_iff.mp hrequest
    exact h.requests request (List.mem_of_getElem? hplace)

theorem Since.send {first request : Nat} {child : Child} (h : Since first child) (hfirst : first ≤ request) :
    Since first (child.send request) := by
  refine ⟨?_, h.lines⟩
  intro sent hsent
  obtain hold | hnew := List.mem_append.mp hsent
  · exact h.requests sent hold
  · rwa [List.mem_singleton.mp hnew]

/-- The handle's child hears nothing that is older than the request `first`. -/
structure Wire.Since (first : Nat) (w : Wire) : Prop where
  written : first ≤ w.written
  current : process.Since first w.current

theorem since_of_idle {w : Wire} {first : Nat} (hidle : w.state.running = false) (hwritten : first ≤ w.written) :
    w.Since first := by
  refine ⟨hwritten, ?_⟩
  rw [Wire.current, hidle]
  exact ⟨by simp, by simp⟩

theorem Wire.Since.asked {w : Wire} {first : Nat} (h : w.Since first) (scene : Scene) :
    process.Since first (w.asked scene) :=
  (h.current.hear.send h.written).hear

theorem heard_mem {scene : Scene} {lines : List Delivery} {delivery : Delivery}
    (h : scene.heard lines = some delivery) : delivery ∈ lines := by
  rw [Scene.heard] at h
  cases hwrite : scene.write_failure with
  | some message => simp [hwrite] at h
  | none =>
    rw [hwrite] at h
    exact List.mem_of_mem_head? h

theorem left_subset (scene : Scene) (lines : List Delivery) : scene.left lines ⊆ lines := by
  rw [Scene.left]
  cases scene.write_failure with
  | some message => exact List.Subset.refl lines
  | none => exact List.tail_subset lines

/-- What a round reads comes from the child that it writes to, and answers nothing older. -/
theorem Wire.Since.heard {w : Wire} {first : Nat} {scene : Scene} {delivery : Delivery} (h : w.Since first)
    (hheard : (one_round spec from_str w scene).heard = some delivery) :
    delivery.child = w.current.number ∧ ∀ request, delivery.answers = some request → first ≤ request := by
  obtain hnone | ⟨up, hrequested⟩ := @one_round_cases spec from_str w scene
  · rw [hnone.heard] at hheard
    cases hheard
  · rw [hrequested.heard] at hheard
    exact (h.asked scene).lines delivery (heard_mem hheard)

theorem Wire.Since.one_round {w : Wire} {first : Nat} (h : w.Since first) (scene : Scene) :
    (one_round spec from_str w scene).final.Since first := by
  obtain hnone | ⟨up, hrequested⟩ := @one_round_cases spec from_str w scene
  · exact since_of_idle hnone.idle (hnone.written ▸ h.written)
  · have hwritten : first ≤ (process.one_round spec from_str w scene).final.written := by
      have := h.written
      rw [hrequested.written]
      omega
    refine ⟨hwritten, ?_⟩
    rw [Wire.current]
    split
    · have hasked := h.asked scene
      rw [hrequested.child]
      exact ⟨hasked.requests, fun delivery hdelivery => hasked.lines delivery (left_subset scene _ hdelivery)⟩
    · exact ⟨by simp, by simp⟩

/-- What each round of a call starts from, and what it leaves. -/
theorem rounds_since {first : Nat} {scenes : List Scene} {w : Wire} (h : w.Since first) :
    ∀ r ∈ rounds spec from_str w scenes, r.start.Since first ∧ r = one_round spec from_str r.start r.scene := by
  induction scenes generalizing w with
  | nil => exact fun r hr => nomatch hr
  | cons scene scenes ih =>
    intro r hr
    rw [rounds] at hr
    obtain rfl | hlater := List.mem_cons.mp hr
    · have hscene : (one_round spec from_str w scene).scene = scene := by
        rw [one_round]
        dsimp only
        split <;> rfl
      rw [one_round_start, hscene]
      exact ⟨h, rfl⟩
    · split at hlater
      · exact ih (h.one_round scene) r hlater
      · cases hlater

theorem Wire.Since.after {first : Nat} {w : Wire} {scenes : List Scene} (h : w.Since first) :
    (w.after (rounds spec from_str w scenes)).Since first := by
  rw [Wire.after]
  cases hlast : (rounds spec from_str w scenes).getLast? with
  | none => exact h
  | some r =>
    obtain ⟨hstart, hr⟩ := rounds_since h r (List.mem_of_getLast? hlast)
    have hfinal : (process.one_round spec from_str r.start r.scene).final.Since first := hstart.one_round r.scene
    rwa [← hr] at hfinal

theorem session_since {first : Nat} {calls : List (Scene × Scene)} {w : Wire} (h : w.Since first) :
    ∀ rs ∈ session spec from_str w calls, ∀ r ∈ rs,
      r.start.Since first ∧ r = one_round spec from_str r.start r.scene := by
  induction calls generalizing w with
  | nil => exact fun rs hrs => nomatch hrs
  | cons c calls ih =>
    intro rs hrs
    obtain rfl | hlater := List.mem_cons.mp hrs
    · exact rounds_since h
    · exact ih h.after rs hlater

/-- A round that asks for no other attempt ends its call. -/
theorem last_of_not_again {scenes : List Scene} {w : Wire} {r : Round}
    (hr : r ∈ rounds spec from_str w scenes) (hagain : r.again spec = false) :
    (rounds spec from_str w scenes).getLast? = some r := by
  induction scenes generalizing w with
  | nil => cases hr
  | cons scene scenes ih =>
    rw [rounds] at hr ⊢
    obtain rfl | hlater := List.mem_cons.mp hr
    · rw [hagain]
      rfl
    · split at hlater
      · rename_i hfirst
        rw [if_pos hfirst, List.getLast?_cons, ih hlater]
        rfl
      · cases hlater

theorem reads_iff {w : Wire} {scene : Scene} {up : State} {r : Round}
    (h : Requested spec from_str w scene up r) {delivery : Delivery} {response : Response} :
    r.Reads from_str delivery response ↔ scene.write_failure = none ∧ ∃ lines line,
      (w.asked scene).lines = delivery :: lines ∧ delivery.line = .ok line ∧ from_str line = .ok response := by
  rw [Round.Reads, h.heard, Scene.heard]
  cases scene.write_failure with
  | some message => simp
  | none => simp [List.head?_eq_some_iff]

/-- What a request comes to: a failure of the transport, or a line that is a response. -/
theorem outcome_cases {w : Wire} {scene : Scene} {up : State} {r : Round}
    (h : Requested spec from_str w scene up r) :
    (∃ e, r.outcome = .error e ∧ is_transport e = true ∧ ∀ delivery response, ¬ r.Reads from_str delivery response) ∨
    ∃ delivery response, r.Reads from_str delivery response ∧
      ((response.id ≠ w.state.next_id ∧ ∃ e, r.outcome = .error e) ∨
        response.id = w.state.next_id ∧ r.outcome =
          match response.error with
          | some message => .error (provider_error spec message)
          | none => .ok (response.result.getD .null)) := by
  have hreads : ∀ delivery response, r.Reads from_str delivery response ↔ _ := fun _ _ => reads_iff h
  have houtcome := h.outcome
  rw [exchange] at houtcome
  simp only [Wire.attempt, Scene.exchange] at houtcome
  cases hwrite : scene.write_failure with
  | some message =>
    left
    rw [hwrite] at houtcome
    refine ⟨_, houtcome, write_failure_is_transport message, ?_⟩
    intro delivery response hread
    obtain ⟨hwritten, -⟩ := (hreads delivery response).mp hread
    rw [hwrite] at hwritten
    cases hwritten
  | none =>
    simp only [hwrite] at houtcome
    cases hresponse : read_response_until from_str scene.silence (w.asked scene).lines with
    | error message =>
      left
      rw [hresponse] at houtcome
      refine ⟨_, houtcome, read_failure_is_transport message, ?_⟩
      intro delivery response hread
      obtain ⟨-, lines, line, hlines, hline, hparse⟩ := (hreads delivery response).mp hread
      rw [read_response_until, hlines, read_line_until, hline] at hresponse
      simp [hparse] at hresponse
    | ok response =>
      right
      rw [hresponse] at houtcome
      obtain ⟨delivery, hread⟩ : ∃ delivery, r.Reads from_str delivery response := by
        cases hlines : (w.asked scene).lines with
        | nil =>
          rw [hlines] at hresponse
          cases hresponse
        | cons delivery lines =>
          rw [hlines, read_response_until, read_line_until] at hresponse
          cases hline : delivery.line with
          | error e =>
            rw [hline] at hresponse
            cases hresponse
          | ok line =>
            rw [hline] at hresponse
            refine ⟨delivery, (hreads delivery response).mpr ⟨hwrite, lines, line, hlines, hline, ?_⟩⟩
            cases hparse : from_str line with
            | error e => simp [hparse] at hresponse
            | ok parsed =>
              simp only [hparse, Except.ok.injEq] at hresponse
              rw [hresponse]
      refine ⟨delivery, response, hread, ?_⟩
      rw [h.next_id] at houtcome
      by_cases hid : response.id = w.state.next_id
      · right
        refine ⟨hid, ?_⟩
        rw [houtcome]
        simp only [hid, ne_eq, not_true_eq_false, if_false]
        cases response.error <;> rfl
      · left
        refine ⟨hid, ?_⟩
        simp only [ne_eq, hid, not_false_eq_true, if_true] at houtcome
        exact ⟨_, houtcome⟩

/-- A round that reads no stray response and fails without an application error leaves no child. -/
theorem idle_of_failed_otherwise {w : Wire} {scene : Scene} {r : Round} (hr : r = one_round spec from_str w scene)
    (horderly : Orderly spec from_str r) (hfailed : r.FailedOtherwise from_str) : r.final.state.running = false := by
  have hstart : r.start = w := by rw [hr, one_round_start]
  obtain ⟨⟨e, herror⟩, hnot⟩ := hfailed
  obtain hnone | ⟨up, hrequested⟩ := @one_round_cases spec from_str w scene
  · rw [hr]
    exact hnone.idle
  · rw [← hr] at hrequested
    obtain ⟨e', herror', htransport, -⟩ | ⟨delivery, response, hread, ⟨hid, -⟩ | ⟨hid, houtcome⟩⟩ :=
      outcome_cases hrequested
    · rw [hrequested.state, herror', settle, if_pos htransport]
      rfl
    · obtain ⟨hsame, -⟩ := horderly delivery response hread
      rw [Round.id, hstart] at hsame
      exact absurd hsame hid
    · cases hresponse : response.error with
      | none =>
        rw [herror, hresponse] at houtcome
        cases houtcome
      | some message =>
        have hsame : response.id = r.id := by rw [Round.id, hstart, hid]
        exact absurd ⟨delivery, response, hread, hsame, by simp [hresponse]⟩ hnot

theorem answered_of_orderly {w : Wire} {scene : Scene} {r : Round} {v : Value}
    (hr : r = one_round spec from_str w scene) (hw : w.Since 0) (horderly : Orderly spec from_str r)
    (hok : r.outcome = .ok v) : ∃ delivery response, r.Reads from_str delivery response ∧ delivery.child = r.child ∧
      r.start.written < delivery.written ∧ response.id = r.id ∧ response.error = none ∧
        response.result.getD .null = v := by
  have hstart : r.start = w := by rw [hr, one_round_start]
  obtain hnone | ⟨up, hrequested⟩ := @one_round_cases spec from_str w scene
  · obtain ⟨e, herror⟩ := hnone.failed
    rw [← hr, hok] at herror
    cases herror
  · rw [← hr] at hrequested
    obtain ⟨e, herror, -⟩ | ⟨delivery, response, hread, ⟨-, e, herror⟩ | ⟨hid, houtcome⟩⟩ := outcome_cases hrequested
    · rw [hok] at herror
      cases herror
    · rw [hok] at herror
      cases herror
    · obtain ⟨hsame, hlate⟩ := horderly delivery response hread
      have hheard := hread.1
      rw [hr] at hheard
      have hchild : delivery.child = r.child := by rw [Round.child, hstart, (hw.heard hheard).1]
      cases hresponse : response.error with
      | some message =>
        rw [hok, hresponse] at houtcome
        cases houtcome
      | none =>
        rw [hresponse] at hlate
        rw [hok, hresponse] at houtcome
        exact ⟨delivery, response, hread, hchild, hlate, hsame, hresponse, (Except.ok.inj houtcome).symm⟩

theorem application_error_kept {w : Wire} {scene : Scene} {r : Round} (hr : r = one_round spec from_str w scene)
    (horderly : Orderly spec from_str r) (herror : r.ApplicationError from_str) :
    r.again spec = false ∧ r.final.state.running = true ∧ r.final.child.number = r.child ∧
      r.final.state.consecutive_crashes ≤ r.start.state.consecutive_crashes := by
  have hstart : r.start = w := by rw [hr, one_round_start]
  obtain ⟨delivery, response, hread, hid, hsome⟩ := herror
  obtain hnone | ⟨up, hrequested⟩ := @one_round_cases spec from_str w scene
  · have hheard := hread.1
    rw [hr, hnone.heard] at hheard
    cases hheard
  · rw [← hr] at hrequested
    obtain ⟨message, hmessage⟩ := Option.ne_none_iff_exists'.mp hsome
    obtain ⟨-, hunmarked⟩ := horderly delivery response hread
    rw [hmessage] at hunmarked
    have houtcome : r.outcome = .error (provider_error spec message) := by
      obtain ⟨e, -, -, hnot⟩ | ⟨delivery', response', hread', hcases⟩ := outcome_cases hrequested
      · exact absurd hread (hnot delivery response)
      · obtain rfl : delivery = delivery' := Option.some.inj (hread.1.symm.trans hread'.1)
        obtain ⟨-, line, hline, hparse⟩ := hread
        obtain ⟨-, line', hline', hparse'⟩ := hread'
        obtain rfl : line = line' := Except.ok.inj (hline.symm.trans hline')
        obtain rfl : response = response' := Except.ok.inj (hparse.symm.trans hparse')
        rw [Round.id, hstart] at hid
        obtain ⟨hother, -⟩ | ⟨-, houtcome⟩ := hcases
        · exact absurd hid hother
        · rwa [hmessage] at houtcome
    have hstate := hrequested.state
    rw [houtcome, settle, hunmarked] at hstate
    refine ⟨?_, ?_, ?_, ?_⟩
    · rw [Round.again, houtcome]
      simp [hunmarked]
    · rw [hstate]
      exact hrequested.running
    · rw [hrequested.child, Round.child, hstart]
      rfl
    · rw [hstart, ← hrequested.crashes, hstate]
      exact Nat.le_refl _

theorem no_stale_line_from {calls : List (Scene × Scene)} {w : Wire} (hw : w.Since 0)
    (horderly : ∀ rs ∈ session spec from_str w calls, ∀ r ∈ rs, Orderly spec from_str r) :
    (session spec from_str w calls).Pairwise fun earlier later => ∀ r, earlier.getLast? = some r →
      r.FailedOtherwise from_str → ∀ r' ∈ later, ∀ delivery, r'.heard = some delivery → ∀ request,
        delivery.answers = some request → r.final.written ≤ request := by
  induction calls generalizing w with
  | nil => exact List.Pairwise.nil
  | cons c calls ih =>
    rw [session] at horderly ⊢
    obtain ⟨hfirst, hlater⟩ := List.forall_mem_cons.mp horderly
    refine List.pairwise_cons.mpr ⟨?_, ih hw.after hlater⟩
    intro later hmem r hlast hfailed r' hr' delivery hheard
    have hr := List.mem_of_getLast? hlast
    have hidle : r.final.state.running = false :=
      idle_of_failed_otherwise (rounds_since hw r hr).2 (hfirst r hr) hfailed
    -- after such a failure every child to come is a new one
    have hfrom : (w.after (rounds spec from_str w [c.1, c.2])).Since r.final.written := by
      rw [Wire.after, hlast]
      exact since_of_idle hidle (Nat.le_refl _)
    obtain ⟨hsince, hround⟩ := session_since hfrom later hmem r' hr'
    rw [hround] at hheard
    exact (hsince.heard hheard).2

theorem mem_session {calls : List (Scene × Scene)} {w : Wire} {rs : List Round}
    (h : rs ∈ session spec from_str w calls) : ∃ w' c, rs = rounds spec from_str w' c := by
  induction calls generalizing w with
  | nil => cases h
  | cons c calls ih =>
    obtain rfl | hlater := List.mem_cons.mp h
    · exact ⟨w, _, rfl⟩
    · exact ih hlater

/-- Calls stay synchronised as long as no stray response is read and no application error
reads like a failure of the transport. -/
theorem orderly_calls_stay_synchronised (calls : List (Scene × Scene))
    (horderly : ∀ rs ∈ session spec from_str {} calls, ∀ r ∈ rs, Orderly spec from_str r) :
    Synchronised from_str (session spec from_str {} calls) := by
  have hstart : Wire.Since 0 {} := since_of_idle rfl (Nat.zero_le _)
  refine ⟨?_, ?_, no_stale_line_from hstart horderly⟩
  · intro rs hrs r hr v hok
    obtain ⟨hsince, hround⟩ := session_since hstart rs hrs r hr
    exact answered_of_orderly hround hsince (horderly rs hrs r hr) hok
  · intro rs hrs r hr herror
    obtain ⟨-, hround⟩ := session_since hstart rs hrs r hr
    obtain ⟨hagain, hkept⟩ := application_error_kept hround (horderly rs hrs r hr) herror
    obtain ⟨w', c, rfl⟩ := mem_session hrs
    exact ⟨last_of_not_again hr hagain, hkept⟩

end Synchronised

private def unit_spec : ExternalProviderSpec := ⟨"unit", true⟩

private def unit_hello : Spawn := .hello ⟨PROTOCOL_VERSION, "unit", [], []⟩

private def ok_line : String := "\x7b\"id\":1\x7d"

private def eof_line : String := "\x7b\"id\":1,\"error\":\"EOF\"\x7d"

private def no_line : String := "\x7b\"id\":2,\"error\":\"no\"\x7d"

private def sample_from_str (line : String) : Except String Response :=
  if line = ok_line then .ok { id := 1 }
  else if line = eof_line then .ok { id := 1, error := some "EOF" }
  else if line = no_line then .ok { id := 2, error := some "no" }
  else .error "expected value at line 1 column 1"

private def ok_scene : Scene where
  spawn := unit_hello
  after := [⟨.ok ok_line, some 0⟩]

private def no_scene : Scene where
  after := [⟨.ok no_line, some 1⟩]

private def ok_round : Round := one_round unit_spec sample_from_str {} ok_scene

private def no_round : Round := one_round unit_spec sample_from_str ok_round.final no_scene

private theorem orderly_of_reads {r : Round} {delivery : Delivery} {response : Response} {line : String}
    (hheard : r.heard = some delivery) (hline : delivery.line = .ok line) (hparse : sample_from_str line = .ok response)
    (hid : response.id = r.id)
    (horderly : match response.error with
      | some message => is_transport (provider_error unit_spec message) = false
      | none => r.start.written < delivery.written) : Orderly unit_spec sample_from_str r := by
  rintro delivery' response' ⟨hheard', line', hline', hparse'⟩
  obtain rfl : delivery = delivery' := Option.some.inj (hheard.symm.trans hheard')
  obtain rfl : line = line' := Except.ok.inj (hline.symm.trans hline')
  obtain rfl : response = response' := Except.ok.inj (hparse.symm.trans hparse')
  exact ⟨hid, horderly⟩

/-- An answer and an application error, each in its turn. -/
theorem ok_and_no_stay_synchronised :
    Synchronised sample_from_str (session unit_spec sample_from_str {} [(ok_scene, {}), (no_scene, {})]) := by
  refine orderly_calls_stay_synchronised _ ?_
  have hsession : session unit_spec sample_from_str {} [(ok_scene, {}), (no_scene, {})] = [[ok_round], [no_round]] := by
    rfl
  have hok : Orderly unit_spec sample_from_str ok_round := by
    refine @orderly_of_reads ok_round ⟨.ok ok_line, 1, 1, some 0⟩ { id := 1 } ok_line (by rfl) rfl (by rfl) (by rfl) ?_
    exact Nat.zero_lt_one
  have hno : Orderly unit_spec sample_from_str no_round :=
    @orderly_of_reads no_round ⟨.ok no_line, 1, 2, some 1⟩ { id := 2, error := some "no" } no_line (by rfl) rfl
      (by rfl) (by rfl) (by rfl)
  rw [hsession]
  simpa using ⟨hok, hno⟩

private def eof_scene : Scene where
  spawn := unit_hello
  after := [⟨.ok eof_line, some 0⟩]

/-- An application error that says "EOF" counts as a crash. -/
theorem eof_error_is_a_crash :
    ¬ Synchronised sample_from_str (session unit_spec sample_from_str {} [(eof_scene, {})]) := by
  intro h
  have hreads : (one_round unit_spec sample_from_str {} eof_scene).Reads sample_from_str
      ⟨.ok eof_line, 1, 1, some 0⟩ { id := 1, error := some "EOF" } :=
    ⟨by rfl, eof_line, rfl, by rfl⟩
  have herror : (one_round unit_spec sample_from_str {} eof_scene).ApplicationError sample_from_str :=
    ⟨_, _, hreads, rfl, by simp⟩
  obtain ⟨-, -, -, hcrashes⟩ := h.application_errors _ (List.mem_cons_self) _ (List.mem_cons_self) herror
  have hcount : (one_round unit_spec sample_from_str {} eof_scene).final.state.consecutive_crashes = 1 := by rfl
  rw [hcount] at hcrashes
  exact absurd hcrashes (by decide)

end iac_providers.process
