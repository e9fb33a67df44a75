import Iac.Agent.Acceptance
import Iac.Collections.Run

open iac_agent.remote iac_core.protocol transition

namespace iac_agent.store

/-- A row of `processed_assignments`. -/
structure ProcessedRow where
  assignment_id : String
  processed_at : String
  status : String

def assignment_already_processed (assignment_id : String) (table : List ProcessedRow) : Option String :=
  (table.find? fun row => row.assignment_id == assignment_id).map ProcessedRow.status

/-- `INSERT OR IGNORE`. -/
def mark_assignment_processed (now : jiff.Timestamp) (assignment_id status : String) (table : List ProcessedRow) :
    List ProcessedRow :=
  if table.any fun row => row.assignment_id == assignment_id then table
  else table ++ [⟨assignment_id, now.to_string, status⟩]

def vacuum_replay (now : jiff.Timestamp) (retain_days : Int) (table : List ProcessedRow) : List ProcessedRow :=
  let cutoff := ((now.minus_seconds (retain_days * 86400)).getD now).to_string
  table.filter fun row => !decide (row.processed_at < cutoff)

variable {now : jiff.Timestamp} {id status : String} {table : List ProcessedRow} {row : ProcessedRow}

theorem assignment_already_processed_eq_none :
    assignment_already_processed id table = none ↔ ∀ row ∈ table, row.assignment_id ≠ id := by
  simp [assignment_already_processed]

theorem mem_of_mem_mark (h : row ∈ mark_assignment_processed now id status table) :
    row ∈ table ∨ row = ⟨id, now.to_string, status⟩ := by
  unfold mark_assignment_processed at h
  split at h
  · exact .inl h
  · simpa using h

theorem mem_mark_of_mem (h : row ∈ table) : row ∈ mark_assignment_processed now id status table := by
  unfold mark_assignment_processed
  split
  · exact h
  · exact List.mem_append_left _ h

/-- The id has a row from then on. -/
theorem exists_mem_mark : ∃ row ∈ mark_assignment_processed now id status table, row.assignment_id = id := by
  unfold mark_assignment_processed
  split
  · rename_i hany
    simpa using hany
  · exact ⟨_, List.mem_append_right _ List.mem_cons_self, rfl⟩

theorem mem_of_mem_vacuum {days : Int} (h : row ∈ vacuum_replay now days table) : row ∈ table :=
  (List.mem_filter.mp h).1

/-- A row goes at the earliest in the second in which it is seven days old. -/
theorem kept_or_old {processed : jiff.Timestamp} (hnow : 0 ≤ now.nanos) (hera : 0 ≤ processed.nanos)
    (htext : row.processed_at = processed.to_string) (hmem : row ∈ table) :
    row ∈ vacuum_replay now 7 table ∨ processed.second + 604800 ≤ now.second := by
  by_cases hkept : row ∈ vacuum_replay now 7 table
  · exact .inl hkept
  · refine .inr ?_
    obtain ⟨cutoff, hcutoff, hseconds⟩ : ∃ cutoff, now.minus_seconds 604800 = some cutoff ∧
        cutoff.nanos = now.nanos - 604800 * jiff.nanos_per_second := by
      have hrange : jiff.min_nanos ≤ now.nanos - 604800 * jiff.nanos_per_second ∧
          now.nanos - 604800 * jiff.nanos_per_second ≤ jiff.max_nanos := by
        have hmax := now.in_range.2
        simp only [jiff.min_nanos, jiff.max_nanos, jiff.nanos_per_second] at hmax ⊢
        omega
      unfold jiff.Timestamp.minus_seconds
      rw [dif_pos hrange, if_pos (by decide)]
      exact ⟨_, rfl, rfl⟩
    have hlt : processed.to_string < cutoff.to_string := by
      simpa [vacuum_replay, List.mem_filter, hmem, hcutoff, htext] using hkept
    have hsecond : processed.second ≤ cutoff.second := by
      obtain hearlier | htruncates := jiff.lt_of_to_string_lt hera hlt
      · exact Int.ediv_le_ediv (by decide) hearlier.le
      · exact htruncates.1.ge
    simp only [jiff.Timestamp.second, hseconds, jiff.nanos_per_second] at hsecond ⊢
    omega

end iac_agent.store

namespace iac_agent.agent

open iac_agent.store

/-- How far `drain_assignments` is: at the checks of a response, at the head of
its loop, or at a step of the assignment before the remaining ones. -/
inductive Session where
  | idle
  | verifying (items todo : List AssignmentEnvelope)
  | next (todo : List AssignmentEnvelope)
  | ready (env : AssignmentEnvelope) (todo : List AssignmentEnvelope)
  | executing (env : AssignmentEnvelope) (todo : List AssignmentEnvelope)
  | executed (env : AssignmentEnvelope) (status : String) (todo : List AssignmentEnvelope)
  | reporting (todo : List AssignmentEnvelope)

/-- The agent with the ids whose execution has been started, the latest first. -/
structure World where
  now : jiff.Timestamp
  table : List ProcessedRow
  session : Session
  started : List String

def World.start (now : jiff.Timestamp) : World := ⟨now, [], .idle, []⟩

/-- What can happen next: time, a response with any envelopes, the steps of the
loop with what the store and the executor answer, a vacuum, and a restart. -/
inductive Action where
  | pass (now : jiff.Timestamp)
  | fetch (items : List AssignmentEnvelope)
  | check
  | look_up (fails : Bool)
  | execute
  | finish (result : Except String AssignmentResultStatus)
  | mark (fails : Bool)
  | report
  | vacuum
  | restart

def processed_status : Except String AssignmentResultStatus → String
  | .ok status => status.name
  | .error _ => "failed"

def World.step (crates : Crates) (dalek : Dalek) (parse : String → Option jiff.Timestamp) (agent : Verifier) (w : World) :
    Action → Option World
  | .pass now => if w.now.nanos ≤ now.nanos then some { w with now } else none
  | .fetch items =>
    match w.session with
    | .idle => some { w with session := .verifying items items }
    | _ => none
  | .check =>
    match w.session with
    | .verifying items [] => some { w with session := .next items }
    | .verifying items (env :: todo) =>
      match verify_envelope crates dalek parse w.now agent env with
      | .ok _ => some { w with session := .verifying items todo }
      | .error _ => some { w with session := .idle }
    | _ => none
  | .look_up fails =>
    match w.session with
    | .next [] => some { w with session := .idle }
    | .next (env :: todo) =>
      if fails then some { w with session := .ready env todo }
      else
        match assignment_already_processed env.assignment_id w.table with
        | some _ => some { w with session := .reporting todo }
        | none => some { w with session := .ready env todo }
    | _ => none
  | .execute =>
    match w.session with
    | .ready env todo => some { w with session := .executing env todo, started := env.assignment_id :: w.started }
    | _ => none
  | .finish result =>
    match w.session with
    | .executing env todo => some { w with session := .executed env (processed_status result) todo }
    | _ => none
  | .mark fails =>
    match w.session with
    | .executed env status todo =>
      let table := if fails then w.table else mark_assignment_processed w.now env.assignment_id status w.table
      some { w with table, session := .reporting todo }
    | _ => none
  | .report =>
    match w.session with
    | .reporting todo => some { w with session := .next todo }
    | _ => none
  | .vacuum => some { w with table := vacuum_replay w.now 7 w.table }
  | .restart => some { w with session := .idle }

/-- The creation time under which the pinned keys have signed the assignment. -/
def Issued (crates : Crates) (dalek : Dalek) (parse : String → Option jiff.Timestamp) (agent : Verifier)
    (assignment_id : String) (created : jiff.Timestamp) : Prop :=
  ∃ (env : AssignmentEnvelope) (verifier : List UInt8), agent.verifiers.lookup env.key_id = some verifier ∧
    check_signature dalek verifier (env.message crates agent.agent_id) env.signature = .ok () ∧
    env.assignment_id = assignment_id ∧ parse env.created_at = some created

/-- The assignment was made so long ago that its row may be gone. -/
def Outlived (now created : jiff.Timestamp) : Prop :=
  created.as_second + 7 * 86400 ≤ now.as_second + future_grace_secs + 1

/-- The agent does not restart between the start of an execution and its mark,
marks can be stored, and an executed assignment that comes again is looked up,
with an answer, before it has outlived its row. -/
def remembering (parse : String → Option jiff.Timestamp) (w : World) : Action → Prop
  | .look_up fails =>
    match w.session with
    | .next (env :: _) => env.assignment_id ∈ w.started →
        fails = false ∧ ∀ created, parse env.created_at = some created → ¬ Outlived w.now created
    | _ => True
  | .mark fails => fails = false
  | .restart =>
    match w.session with
    | .executing _ _ | .executed _ _ _ => False
    | _ => True
  | _ => True

section Steps

variable {crates : Crates} {dalek : Dalek} {parse : String → Option jiff.Timestamp} {agent : Verifier}
variable {w u : World} {now : jiff.Timestamp} {env : AssignmentEnvelope} {id : String}

/-- An envelope that the agent has accepted by `now`. -/
def Accepted (crates : Crates) (dalek : Dalek) (parse : String → Option jiff.Timestamp) (agent : Verifier)
    (now : jiff.Timestamp) (env : AssignmentEnvelope) : Prop :=
  ∃ created, Issued crates dalek parse agent env.assignment_id created ∧ parse env.created_at = some created ∧
    created.as_second ≤ now.as_second + future_grace_secs

/-- What is known of the loop. -/
def Session.Sound (accepted : AssignmentEnvelope → Prop) (started : List String) : Session → Prop
  | .idle => True
  | .verifying items todo => ∃ checked, items = checked ++ todo ∧ ∀ env ∈ checked, accepted env
  | .next todo | .reporting todo => ∀ env ∈ todo, accepted env
  | .ready env todo => (accepted env ∧ env.assignment_id ∉ started) ∧ ∀ env ∈ todo, accepted env
  | .executing env todo | .executed env _ todo => accepted env ∧ ∀ env ∈ todo, accepted env

/-- The assignment that is executed and not yet marked. -/
def Session.unmarked : Session → Option String
  | .executing env _ | .executed env _ _ => some env.assignment_id
  | _ => none

/-- Every execution that is over has its row as long as its assignment may be accepted. -/
structure Sound (crates : Crates) (dalek : Dalek) (parse : String → Option jiff.Timestamp) (agent : Verifier) (w : World) :
    Prop where
  era : 0 ≤ w.now.nanos
  rows : ∀ row ∈ w.table, ∃ processed created : jiff.Timestamp, row.processed_at = processed.to_string ∧
    0 ≤ processed.nanos ∧ Issued crates dalek parse agent row.assignment_id created ∧
    created.as_second ≤ processed.as_second + future_grace_secs
  remembered : ∀ id ∈ w.started, w.session.unmarked ≠ some id →
    (∃ row ∈ w.table, row.assignment_id = id) ∨
      ∃ created, Issued crates dalek parse agent id created ∧ Outlived w.now created
  session : w.session.Sound (Accepted crates dalek parse agent w.now) w.started
  once : w.started.Nodup

theorem Session.Sound.imp {accepted accepted' : AssignmentEnvelope → Prop} {started : List String} {session : Session}
    (h : session.Sound accepted started) (himp : ∀ env, accepted env → accepted' env) : session.Sound accepted' started := by
  cases session with
  | idle => trivial
  | verifying items todo =>
    obtain ⟨checked, hitems, hchecked⟩ := h
    exact ⟨checked, hitems, fun env henv => himp env (hchecked env henv)⟩
  | next todo | reporting todo => exact fun env henv => himp env (h env henv)
  | ready env todo => exact ⟨⟨himp env h.1.1, h.1.2⟩, fun env henv => himp env (h.2 env henv)⟩
  | executing env todo | executed env status todo =>
    exact ⟨himp env h.1, fun env henv => himp env (h.2 env henv)⟩

/-- What passes the checks was made by the time, up to the grace. -/
private theorem accepted_of_verified {max_age : UInt64} (hage : agent.max_age = some max_age)
    (h : verify_envelope crates dalek parse now agent env = .ok ()) : Accepted crates dalek parse agent now env := by
  obtain ⟨verifier, hverifier, hfresh, -, hsignature⟩ := verify_envelope_ok_iff.mp h
  have hwindow := hfresh max_age hage
  unfold check_envelope_freshness at hwindow
  split at hwindow
  · cases hwindow
  · rename_i created hcreated
    simp only at hwindow
    split_ifs at hwindow with hold hfuture
    refine ⟨created, ⟨env, verifier, hverifier, hsignature, rfl, hcreated⟩, hcreated, ?_⟩
    omega

/-- Time keeps the agent sound. -/
private theorem sound_pass (h : Sound crates dalek parse agent w) (hlater : w.now.nanos ≤ now.nanos) :
    Sound crates dalek parse agent { w with now } := by
  have hmono := jiff.Timestamp.as_second_mono hlater
  refine ⟨h.era.trans hlater, h.rows, fun id hid hmarked => ?_, h.session.imp fun env haccepted => ?_, h.once⟩
  · refine (h.remembered id hid hmarked).imp_right fun ⟨created, hissued, houtlived⟩ => ⟨created, hissued, ?_⟩
    unfold Outlived at houtlived ⊢
    simp only at houtlived ⊢
    omega
  · obtain ⟨created, hissued, hcreated, hgrace⟩ := haccepted
    exact ⟨created, hissued, hcreated, by simp only at hgrace ⊢; omega⟩

/-- A step of the loop that starts and marks nothing. -/
private theorem sound_session {session : Session} (h : Sound crates dalek parse agent w)
    (hunmarked : session.unmarked = w.session.unmarked)
    (hsession : session.Sound (Accepted crates dalek parse agent w.now) w.started) :
    Sound crates dalek parse agent { w with session } :=
  ⟨h.era, h.rows, fun id hid hmarked => h.remembered id hid (hunmarked ▸ hmarked), hsession, h.once⟩

private theorem sound_execute {todo : List AssignmentEnvelope} (h : Sound crates dalek parse agent w)
    (hsession : w.session = .ready env todo) : Sound crates dalek parse agent
      { w with session := .executing env todo, started := env.assignment_id :: w.started } := by
  have hready := h.session
  rw [hsession] at hready
  refine ⟨h.era, h.rows, fun id hid hmarked => ?_, ⟨hready.1.1, hready.2⟩, List.nodup_cons.mpr ⟨hready.1.2, h.once⟩⟩
  obtain rfl | hbefore := List.mem_cons.mp hid
  · exact absurd rfl hmarked
  · exact h.remembered id hbefore (by simp [hsession, Session.unmarked])

private theorem sound_mark {status : String} {todo : List AssignmentEnvelope} (h : Sound crates dalek parse agent w)
    (hsession : w.session = .executed env status todo) : Sound crates dalek parse agent
      { w with table := mark_assignment_processed w.now env.assignment_id status w.table, session := .reporting todo } := by
  have hexecuted := h.session
  rw [hsession] at hexecuted
  refine ⟨h.era, fun row hrow => ?_, fun id hid _ => ?_, hexecuted.2, h.once⟩
  · obtain hold | rfl := mem_of_mem_mark hrow
    · exact h.rows row hold
    · obtain ⟨created, hissued, -, hgrace⟩ := hexecuted.1
      exact ⟨w.now, created, rfl, h.era, hissued, hgrace⟩
  · by_cases hthis : id = env.assignment_id
    · exact .inl (hthis ▸ exists_mem_mark)
    · have hother : w.session.unmarked ≠ some id := by
        simpa [hsession, Session.unmarked] using Ne.symm hthis
      exact (h.remembered id hid hother).imp_left fun ⟨row, hrow, hrow_id⟩ => ⟨row, mem_mark_of_mem hrow, hrow_id⟩

/-- The rows that go are those of assignments that have outlived them. -/
private theorem sound_vacuum (h : Sound crates dalek parse agent w) :
    Sound crates dalek parse agent { w with table := vacuum_replay w.now 7 w.table } := by
  refine ⟨h.era, fun row hrow => h.rows row (mem_of_mem_vacuum hrow), fun id hid hmarked => ?_, h.session, h.once⟩
  obtain ⟨row, hrow, rfl⟩ | hgone := h.remembered id hid hmarked
  · obtain ⟨processed, created, htext, hera, hissued, hgrace⟩ := h.rows row hrow
    obtain hkept | hold := kept_or_old h.era hera htext hrow
    · exact .inl ⟨row, hkept, rfl⟩
    · refine .inr ⟨created, hissued, ?_⟩
      have hprocessed := processed.as_second_bounds.2
      have hnow := w.now.as_second_bounds.1
      unfold Outlived
      simp only [jiff.unix_epoch_second] at hprocessed hnow ⊢
      omega
  · exact .inr hgone

/-- What the look-up lets through has not been executed. -/
private theorem not_started_of_look_up {fails : Bool} {todo : List AssignmentEnvelope}
    (hserver : ∀ id created created', Issued crates dalek parse agent id created →
      Issued crates dalek parse agent id created' → created = created')
    (h : Sound crates dalek parse agent w) (hsession : w.session = .next (env :: todo))
    (hallowed : remembering parse w (.look_up fails))
    (hmissing : fails = true ∨ assignment_already_processed env.assignment_id w.table = none) :
    env.assignment_id ∉ w.started := by
  intro hstarted
  simp only [remembering, hsession] at hallowed
  obtain ⟨hanswered, hyoung⟩ := hallowed hstarted
  have haccepted := h.session
  rw [hsession] at haccepted
  obtain ⟨created, hissued, hparsed, -⟩ := haccepted env List.mem_cons_self
  have hnone : assignment_already_processed env.assignment_id w.table = none :=
    hmissing.resolve_left (by simp [hanswered])
  rcases h.remembered env.assignment_id hstarted (by simp [hsession, Session.unmarked]) with
    ⟨row, hrow, hid⟩ | ⟨created', hissued', houtlived⟩
  · exact assignment_already_processed_eq_none.mp hnone row hrow hid
  · obtain rfl := hserver _ _ _ hissued hissued'
    exact hyoung created hparsed houtlived

theorem sound_of_step {max_age : UInt64} {a : Action} (hage : agent.max_age = some max_age)
    (hserver : ∀ id created created', Issued crates dalek parse agent id created →
      Issued crates dalek parse agent id created' → created = created')
    (h : Sound crates dalek parse agent w) (hallowed : remembering parse w a)
    (hstep : w.step crates dalek parse agent a = some u) : Sound crates dalek parse agent u := by
  have hsession := h.session
  cases a with
  | pass now =>
    simp only [World.step] at hstep
    split_ifs at hstep with hlater
    obtain rfl := Option.some.inj hstep
    exact sound_pass h hlater
  | vacuum =>
    obtain rfl := Option.some.inj hstep
    exact sound_vacuum h
  | restart =>
    obtain rfl := Option.some.inj hstep
    refine sound_session h ?_ trivial
    simp only [remembering] at hallowed
    cases hs : w.session with
    | executing env todo | executed env status todo =>
      rw [hs] at hallowed
      exact hallowed.elim
    | _ => rfl
  | fetch items =>
    simp only [World.step] at hstep
    split at hstep
    · rename_i hs
      obtain rfl := Option.some.inj hstep
      exact sound_session h (by rw [hs]; rfl) ⟨[], rfl, by simp⟩
    · cases hstep
  | check =>
    simp only [World.step] at hstep
    split at hstep
    · rename_i items hs
      rw [hs] at hsession
      obtain ⟨checked, rfl, hchecked⟩ := hsession
      obtain rfl := Option.some.inj hstep
      exact sound_session h (by rw [hs]; rfl) (by simpa [Session.Sound] using hchecked)
    · rename_i items env todo hs
      rw [hs] at hsession
      obtain ⟨checked, rfl, hchecked⟩ := hsession
      split at hstep
      · rename_i hverified
        obtain rfl := Option.some.inj hstep
        refine sound_session h (by rw [hs]; rfl) ⟨checked ++ [env], by simp, ?_⟩
        simpa [or_imp, forall_and] using ⟨hchecked, accepted_of_verified hage hverified⟩
      · obtain rfl := Option.some.inj hstep
        exact sound_session h (by rw [hs]; rfl) trivial
    · cases hstep
  | look_up fails =>
    simp only [World.step] at hstep
    split at hstep
    · rename_i hs
      obtain rfl := Option.some.inj hstep
      exact sound_session h (by rw [hs]; rfl) trivial
    · rename_i env todo hs
      rw [hs] at hsession
      obtain ⟨henv, htodo⟩ := List.forall_mem_cons.mp hsession
      have hready (hmissing : fails = true ∨ assignment_already_processed env.assignment_id w.table = none) :
          Sound crates dalek parse agent { w with session := .ready env todo } :=
        sound_session h (by rw [hs]; rfl) ⟨⟨henv, not_started_of_look_up hserver h hs hallowed hmissing⟩, htodo⟩
      split at hstep
      · rename_i hfails
        obtain rfl := Option.some.inj hstep
        exact hready (.inl hfails)
      · split at hstep
        · obtain rfl := Option.some.inj hstep
          exact sound_session h (by rw [hs]; rfl) htodo
        · rename_i hnone
          obtain rfl := Option.some.inj hstep
          exact hready (.inr hnone)
    · cases hstep
  | execute =>
    simp only [World.step] at hstep
    split at hstep
    · rename_i env todo hs
      obtain rfl := Option.some.inj hstep
      exact sound_execute h hs
    · cases hstep
  | finish result =>
    simp only [World.step] at hstep
    split at hstep
    · rename_i env todo hs
      rw [hs] at hsession
      obtain rfl := Option.some.inj hstep
      exact sound_session h (by rw [hs]; rfl) hsession
    · cases hstep
  | mark fails =>
    obtain rfl : fails = false := hallowed
    simp only [World.step] at hstep
    split at hstep
    · rename_i env status todo hs
      obtain rfl := Option.some.inj hstep
      exact sound_mark h hs
    · cases hstep
  | report =>
    simp only [World.step] at hstep
    split at hstep
    · rename_i todo hs
      rw [hs] at hsession
      obtain rfl := Option.some.inj hstep
      exact sound_session h (by rw [hs]; rfl) hsession
    · cases hstep

end Steps

section Runs

variable {crates : Crates} {dalek : Dalek} {parse : String → Option jiff.Timestamp} {agent : Verifier} {w : World}

theorem sound_start {start : jiff.Timestamp} (hera : 0 ≤ start.nanos) :
    Sound crates dalek parse agent (World.start start) :=
  ⟨hera, by simp [World.start], by simp [World.start], trivial, List.nodup_nil⟩

/-- No assignment is executed twice by an agent that checks ages and does not
restart between an execution and its mark, in a run in which marks are stored
and executed assignments do not come again after they have outlived theirs. -/
theorem assignments_execute_once {max_age : UInt64} (hage : agent.max_age = some max_age)
    (hserver : ∀ id created created', Issued crates dalek parse agent id created →
      Issued crates dalek parse agent id created' → created = created')
    {start : jiff.Timestamp} (hera : 0 ≤ start.nanos)
    (hrun : Run (World.step crates dalek parse agent) (remembering parse) (World.start start) w) : w.started.Nodup :=
  (hrun.invariant (sound_start hera) fun _ _ _ h hallowed hstep => sound_of_step hage hserver h hallowed hstep).once

end Runs

section Samples

private theorem web_issued {id : String} {created : jiff.Timestamp}
    (h : Issued web_crates web_dalek read_midnight web_agent id created) : created = iac_controlplane.store.midnight := by
  obtain ⟨env, -, -, -, -, hcreated⟩ := h
  unfold read_midnight at hcreated
  split_ifs at hcreated
  exact (Option.some.inj hcreated).symm

private theorem web_issued_once (id : String) (created created' : jiff.Timestamp)
    (h : Issued web_crates web_dalek read_midnight web_agent id created)
    (h' : Issued web_crates web_dalek read_midnight web_agent id created') : created = created' :=
  (web_issued h).trans (web_issued h').symm

/-- A response with the sample assignment up to the start of its execution. -/
def deliver : List Action := [.fetch [web_item], .check, .check, .look_up false, .execute]

/-- The assignment is executed, marked and delivered again. -/
def redelivered : List Action :=
  deliver ++ [.finish (.ok .Succeeded), .mark false, .report, .look_up false, .vacuum, .fetch [web_item], .check, .check,
    .look_up false, .report]

/-- The condition at midnight, computed. -/
def remembering_at_midnight (w : World) : Action → Bool
  | .look_up fails => !fails && w.now.nanos == iac_controlplane.store.midnight.nanos
  | .mark fails => !fails
  | .restart => false
  | _ => true

private theorem remembering_of_check (w : World) (a : Action) (h : remembering_at_midnight w a = true) :
    remembering read_midnight w a := by
  cases a with
  | look_up fails =>
    simp only [remembering_at_midnight, Bool.and_eq_true, Bool.not_eq_true', beq_iff_eq] at h
    simp only [remembering]
    split
    · refine fun _ => ⟨h.1, fun created hcreated houtlived => ?_⟩
      have hcreated_at : created = iac_controlplane.store.midnight := by
        unfold read_midnight at hcreated
        split_ifs at hcreated
        exact (Option.some.inj hcreated).symm
      unfold Outlived jiff.Timestamp.as_second at houtlived
      rw [hcreated_at, h.2] at houtlived
      revert houtlived
      decide
    · trivial
  | mark fails => simpa [remembering_at_midnight, remembering] using h
  | restart => cases h
  | _ => trivial

/-- A response whose only envelope passes the checks leads to the loop. -/
private theorem follow_verified {crates : Crates} {dalek : Dalek} {parse : String → Option jiff.Timestamp} {agent : Verifier}
    {ok : World → Action → Bool} {w : World} {env : AssignmentEnvelope} (hok : ∀ w items, ok w (.fetch items) = true)
    (hcheck : ∀ w, ok w .check = true) (hidle : w.session = .idle)
    (hverified : verify_envelope crates dalek parse w.now agent env = .ok ()) (rest : List Action) :
    follow (World.step crates dalek parse agent) ok w (.fetch [env] :: .check :: .check :: rest) =
      follow (World.step crates dalek parse agent) ok { w with session := .next [env] } rest := by
  have hfetched : w.step crates dalek parse agent (.fetch [env]) = some { w with session := .verifying [env] [env] } := by
    simp only [World.step, hidle]
  have hchecked : World.step crates dalek parse agent { w with session := .verifying [env] [env] } .check =
      some { w with session := .verifying [env] [] } := by
    simp only [World.step, hverified]
  rw [follow_cons (hok _ _) hfetched, follow_cons (hcheck _) hchecked, follow_cons (hcheck _) rfl]

/-- The checks of the sample pass, without being computed at each delivery. -/
private theorem follow_received {ok : World → Action → Bool} (hok : ∀ w items, ok w (.fetch items) = true)
    (hcheck : ∀ w, ok w .check = true) {w : World} (hnow : w.now = hours_later 0) (hidle : w.session = .idle)
    (rest : List Action) :
    follow (World.step web_crates web_dalek read_midnight web_agent) ok w (.fetch [web_item] :: .check :: .check :: rest) =
      follow (World.step web_crates web_dalek read_midnight web_agent) ok { w with session := .next [web_item] } rest :=
  follow_verified hok hcheck hidle (hnow.symm ▸ web_item_passes) rest

private def web_row : ProcessedRow := ⟨"0", (hours_later 0).to_string, "succeeded"⟩

private theorem web_row_stays : vacuum_replay (hours_later 0) 7 [web_row] = [web_row] := by
  have hkept : (vacuum_replay (hours_later 0) 7 [web_row]).length = [web_row].length := by
    set_option maxRecDepth 2000 in decide
  exact List.filter_sublist.eq_of_length hkept

/-- The second delivery executes nothing. -/
theorem redelivered_assignment_executes_once : ∃ w : World, w.started = ["0"] ∧ w.started.Nodup := by
  have hparts : redelivered = .fetch [web_item] :: .check :: .check ::
      ([.look_up false, .execute, .finish (.ok .Succeeded), .mark false, .report, .look_up false] ++
        [.vacuum, .fetch [web_item], .check, .check, .look_up false, .report]) := rfl
  have hfirst : follow (World.step web_crates web_dalek read_midnight web_agent) remembering_at_midnight
      { World.start (hours_later 0) with session := .next [web_item] }
      [.look_up false, .execute, .finish (.ok .Succeeded), .mark false, .report, .look_up false] =
        some ⟨hours_later 0, [web_row], .idle, ["0"]⟩ := rfl
  have hvacuum : World.step web_crates web_dalek read_midnight web_agent ⟨hours_later 0, [web_row], .idle, ["0"]⟩ .vacuum =
      some ⟨hours_later 0, [web_row], .idle, ["0"]⟩ := by
    simp only [World.step, web_row_stays]
  have hsecond : follow (World.step web_crates web_dalek read_midnight web_agent) remembering_at_midnight
      ⟨hours_later 0, [web_row], .next [web_item], ["0"]⟩ [.look_up false, .report] =
        some ⟨hours_later 0, [web_row], .next [], ["0"]⟩ := rfl
  have hfollow : follow (World.step web_crates web_dalek read_midnight web_agent) remembering_at_midnight
      (World.start (hours_later 0)) redelivered = some ⟨hours_later 0, [web_row], .next [], ["0"]⟩ := by
    calc follow (World.step web_crates web_dalek read_midnight web_agent) remembering_at_midnight
          (World.start (hours_later 0)) redelivered
        = follow (World.step web_crates web_dalek read_midnight web_agent) remembering_at_midnight
            { World.start (hours_later 0) with session := .next [web_item] }
            ([.look_up false, .execute, .finish (.ok .Succeeded), .mark false, .report, .look_up false] ++
              [.vacuum, .fetch [web_item], .check, .check, .look_up false, .report]) := by
          rw [hparts]
          exact follow_received (fun _ _ => rfl) (fun _ => rfl) rfl rfl _
      _ = follow (World.step web_crates web_dalek read_midnight web_agent) remembering_at_midnight
            ⟨hours_later 0, [web_row], .idle, ["0"]⟩ [.fetch [web_item], .check, .check, .look_up false, .report] := by
          rw [follow_append, hfirst, Option.bind_some, follow_cons rfl hvacuum]
      _ = follow (World.step web_crates web_dalek read_midnight web_agent) remembering_at_midnight
            ⟨hours_later 0, [web_row], .next [web_item], ["0"]⟩ [.look_up false, .report] :=
          follow_received (fun _ _ => rfl) (fun _ => rfl) rfl rfl _
      _ = some ⟨hours_later 0, [web_row], .next [], ["0"]⟩ := hsecond
  exact ⟨_, rfl, assignments_execute_once rfl web_issued_once (by decide) (run_of_follow_from remembering_of_check .start hfollow)⟩

/-- A restart before the mark lets the next delivery execute the assignment again. -/
theorem restart_executes_assignment_again :
    ¬ ∀ (crates : Crates) (dalek : Dalek) (parse : String → Option jiff.Timestamp) (agent : Verifier) (max_age : UInt64)
        (start : jiff.Timestamp) (w : World), agent.max_age = some max_age →
      (∀ id created created', Issued crates dalek parse agent id created →
        Issued crates dalek parse agent id created' → created = created') →
      0 ≤ start.nanos → Run (World.step crates dalek parse agent) (fun _ _ => True) (World.start start) w →
      w.started.Nodup := by
  intro hall
  have hfollow : follow (World.step web_crates web_dalek read_midnight web_agent) (fun _ _ => true)
      (World.start (hours_later 0)) (deliver ++ .restart :: deliver) =
        some ⟨hours_later 0, [], .executing web_item [], ["0", "0"]⟩ := by
    calc follow (World.step web_crates web_dalek read_midnight web_agent) (fun _ _ => true)
          (World.start (hours_later 0)) (deliver ++ .restart :: deliver)
        = follow (World.step web_crates web_dalek read_midnight web_agent) (fun _ _ => true)
            { World.start (hours_later 0) with session := .next [web_item] }
            (.look_up false :: .execute :: .restart :: deliver) :=
          follow_received (fun _ _ => rfl) (fun _ => rfl) rfl rfl _
      _ = follow (World.step web_crates web_dalek read_midnight web_agent) (fun _ _ => true)
            ⟨hours_later 0, [], .executing web_item [], ["0"]⟩ (.restart :: deliver) :=
          (follow_cons rfl rfl).trans (follow_cons rfl rfl)
      _ = follow (World.step web_crates web_dalek read_midnight web_agent) (fun _ _ => true)
            ⟨hours_later 0, [], .idle, ["0"]⟩ deliver := follow_cons rfl rfl
      _ = follow (World.step web_crates web_dalek read_midnight web_agent) (fun _ _ => true)
            ⟨hours_later 0, [], .next [web_item], ["0"]⟩ [.look_up false, .execute] :=
          follow_received (fun _ _ => rfl) (fun _ => rfl) rfl rfl _
      _ = some ⟨hours_later 0, [], .executing web_item [], ["0", "0"]⟩ := rfl
  have hrun : Run (World.step web_crates web_dalek read_midnight web_agent) (fun _ _ => True)
      (World.start (hours_later 0)) ⟨hours_later 0, [], .executing web_item [], ["0", "0"]⟩ :=
    run_of_follow_from (fun _ _ _ => trivial) .start hfollow
  have honce := hall web_crates web_dalek read_midnight web_agent 86400 (hours_later 0) _ rfl web_issued_once (by decide) hrun
  exact absurd honce (by decide)

end Samples

end iac_agent.agent
