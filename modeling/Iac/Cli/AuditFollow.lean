import Iac.Collections.Following
import Iac.Collections.Run
import Iac.Controlplane.Store.Audit
import Iac.Controlplane.Store.Audit.Listing
import Iac.Controlplane.Store.Audit.Order
import Iac.Sql.ReadCommitted.Alone

open following iac_controlplane iac_controlplane.store sql transition
open iac_controlplane.webhook (AuditEvent audit_event)

namespace iac_cli.audit_follow

/-- The arguments of `cmd_audit` that decide what is asked for. -/
structure CmdAudit where
  limit : Int := 50
  kind : Option String := none
  actor : Option String := none
  operation_id : Option String := none
  agent_id : Option String := none

/-- The query that `build_url` writes. -/
def CmdAudit.build_url (cmd : CmdAudit) (since_id : Option Nat) (n : Int) : AuditFilter where
  since_id := since_id.map Int.ofNat
  kind := cmd.kind
  actor := cmd.actor
  operation_id := cmd.operation_id
  agent_id := cmd.agent_id
  limit := some n

/-- The first page, or what a poll asks for. -/
def CmdAudit.next_page (cmd : CmdAudit) : Option Nat → AuditFilter
  | none => cmd.build_url none cmd.limit
  | some max_id => cmd.build_url (some max_id) 1000

/-- The database with its clients, and a follower that rests between two polls
or awaits an answer. It has no `max_id` before the first page has come, and
`since` are the rows that this page was read from. -/
structure System (ι α : Type) where
  world : World ι Row ApiError α
  phase : Phase AuditEventRow := .resting
  max_id : Option Nat := none
  printed : List AuditEvent := []
  since : Option (List AuditEventRow) := none

/-- What happens next. -/
inductive Event (ι : Type) where
  /-- A step of a client of the database. -/
  | client (action : sql.Action ι ApiError)
  /-- The server executes the query of the next page. -/
  | query
  /-- The response to it arrives. -/
  | answer
  /-- There is none, or its status is an error. -/
  | fail
  /-- Its body does not parse. -/
  | garble

section Followed

variable {ι α : Type}

def System.audit_events (sys : System ι α) : List AuditEventRow :=
  sys.world.committed .audit_events

/-- An error on the first page ends the command, one of a poll is retried. -/
def System.fail (sys : System ι α) : System ι α :=
  { sys with phase := if sys.max_id.isNone then .ended else .resting }

/-- The events of a page, sorted, move the cursor and are printed. -/
def System.take (sys : System ι α) (events : List AuditEvent) : System ι α :=
  let batch := events.insertionSort fun a b => a.id ≤ b.id
  { sys with
    phase := .resting
    max_id := some ((batch.getLast?.map AuditEvent.id).getD (sys.max_id.getD 0))
    printed := sys.printed ++ batch }

def System.step [DecidableEq ι] (crates : Crates) (cmd : CmdAudit) (sys : System ι α) : Event ι → Option (System ι α)
  | .client action => (sys.world.step action).map fun world => { sys with world }
  | .query =>
    match sys.phase with
    | .resting => some { sys with
        phase := .asked sys.audit_events
        since := if sys.max_id.isNone then some sys.audit_events else sys.since }
    | _ => none
  | .answer =>
    match sys.phase with
    | .asked rows =>
      match list_audit crates (cmd.next_page sys.max_id) rows with
      | .ok events => some (sys.take events)
      | .error _ => some sys.fail
    | _ => none
  | .fail =>
    match sys.phase with
    | .ended => none
    | _ => some sys.fail
  | .garble =>
    match sys.phase with
    | .asked _ => some { sys with phase := .ended }
    | _ => none

/-- The rows that match the filters. -/
def CmdAudit.wants (cmd : CmdAudit) (row : AuditEventRow) : Bool :=
  (cmd.build_url none cmd.limit).selects row

/-- Rows that match and were committed after the first page was read. -/
def Due (cmd : CmdAudit) (sys : System ι α) (row : AuditEventRow) : Prop :=
  row ∈ sys.audit_events ∧ cmd.wants row = true ∧ ∃ old, sys.since = some old ∧ row ∉ old

/-- What was printed is in the order of the ids, and each row that is due and
not above the cursor is there exactly once. -/
def Gapless (crates : Crates) (cmd : CmdAudit) (sys : System ι α) : Prop :=
  (sys.printed.Pairwise fun a b => a.id < b.id) ∧
    ∀ max_id, sys.max_id = some max_id → ∀ row, Due cmd sys row → row.id ≤ max_id →
      (sys.printed.filter fun event => event.id == row.id) = [audit_event crates row]

/-- How many rows the query of the page that is awaited selects, without its limit. -/
def System.selected (cmd : CmdAudit) (sys : System ι α) : Nat :=
  match sys.phase with
  | .asked rows => (rows.filter (cmd.next_page sys.max_id).selects).length
  | _ => 0

/-- A poll that is answered found at most as many rows as a page has. -/
def fits_a_page (cmd : CmdAudit) (sys : System ι α) (event : Event ι) : Prop :=
  event = .answer → sys.max_id.isSome = true → sys.selected cmd ≤ 1000

/-- The follower as the library sees it. -/
def System.tail (sys : System ι α) (shown : List AuditEventRow) : Tail AuditEventRow where
  log := sys.audit_events
  floor := frontier sys.world
  phase := sys.phase
  since := sys.since
  cursor := sys.max_id
  printed := shown

def CmdAudit.page_size (cmd : CmdAudit) (max_id : Option Nat) : Nat :=
  (cmd.next_page max_id).row_limit

end Followed

variable {ι α : Type} {crates : Crates} {cmd : CmdAudit}

section Pages

variable {max_id : Option Nat} {rows shown : List AuditEventRow}

theorem selects_next_page (max_id : Option Nat) (row : AuditEventRow) :
    (cmd.next_page max_id).selects row = (cmd.wants row && max_id.all fun c => c < row.id) := by
  cases max_id with
  | none => simp [CmdAudit.next_page, CmdAudit.wants]
  | some c =>
    simp only [CmdAudit.next_page, CmdAudit.wants, CmdAudit.build_url, AuditFilter.selects, Option.map_some, Option.map_none,
      Option.all_some, Option.all_none, Bool.true_and, Int.ofNat_eq_natCast, Int.ofNat_lt]
    ac_rfl

/-- The server selects what is wanted behind the cursor. -/
theorem selected_eq_behind (max_id : Option Nat) (rows : List AuditEventRow) :
    rows.filter (cmd.next_page max_id).selects = behind AuditEventRow.id cmd.wants max_id rows :=
  List.filter_congr fun row _ => selects_next_page max_id row

theorem page_size_pos (max_id : Option Nat) : 0 < cmd.page_size max_id := row_limit_pos

/-- The client sorts what it is answered, and has the newest rows behind its cursor. -/
theorem sorted_page (hsorted : rows.Pairwise fun a b => a.id < b.id) {events : List AuditEvent}
    (h : list_audit crates (cmd.next_page max_id) rows = .ok events) :
    (events.insertionSort fun a b => a.id ≤ b.id) =
      (page AuditEventRow.id cmd.wants cmd.page_size max_id rows).map (audit_event crates) := by
  rw [sorted_list_audit hsorted h, selected_eq_behind]
  rfl

end Pages

section Steps

variable [DecidableEq ι] {sys next : System ι α} {shown : List AuditEventRow} {guard : Tail AuditEventRow → Prop}

/-- The step of a client, seen from the follower. -/
private theorem grow_of_client (horder : InOrder sys.world) {world : World ι Row ApiError α} {action : sql.Action ι ApiError}
    (hstep : sys.world.step action = some world) : InOrder world ∧
      following.Step AuditEventRow.id cmd.wants cmd.page_size guard (sys.tail shown) (System.tail { sys with world } shown) := by
  obtain ⟨hnext, inserted, hcommitted, hsorted, hnew, hfloor⟩ := horder.grows hstep
  refine ⟨hnext, ?_⟩
  have htail : System.tail { sys with world } shown =
      { sys.tail shown with log := (sys.tail shown).log ++ inserted, floor := frontier world } := by
    simp only [System.tail, System.audit_events, hcommitted]
  rw [htail]
  exact .grow inserted (frontier world) hsorted hnew hfloor

omit [DecidableEq ι] in
private theorem tail_take {rows : List AuditEventRow} {events : List AuditEvent}
    (hevents : (events.insertionSort fun a b => a.id ≤ b.id) =
      (page AuditEventRow.id cmd.wants cmd.page_size sys.max_id rows).map (audit_event crates)) :
    (sys.take events).tail (shown ++ page AuditEventRow.id cmd.wants cmd.page_size sys.max_id rows) =
      { sys.tail shown with
        phase := .resting
        cursor := some (polling.last_id AuditEventRow.id (sys.max_id.getD 0)
          (page AuditEventRow.id cmd.wants cmd.page_size sys.max_id rows))
        printed := shown ++ page AuditEventRow.id cmd.wants cmd.page_size sys.max_id rows } := by
  simp only [System.take, System.tail, hevents, List.getLast?_map, Option.map_map, polling.last_id]
  rfl

omit [DecidableEq ι] in
private theorem fail_follows : following.Step AuditEventRow.id cmd.wants cmd.page_size guard (sys.tail shown) (sys.fail.tail shown) := by
  cases hmax : sys.max_id with
  | none =>
    have htail : sys.fail.tail shown = { sys.tail shown with phase := .ended } := by
      simp [System.fail, System.tail, System.audit_events, hmax]
    exact htail ▸ .stop
  | some c =>
    have htail : sys.fail.tail shown = { sys.tail shown with phase := .resting } := by
      simp [System.fail, System.tail, System.audit_events, hmax]
    exact htail ▸ .retry

/-- The system takes a step of the library. -/
theorem step_follows {event : Event ι} (horder : InOrder sys.world) (hprinted : sys.printed = shown.map (audit_event crates))
    (hordered : Ordered AuditEventRow.id cmd.wants (sys.tail shown)) (hguard : event = .answer → guard (sys.tail shown))
    (hstep : sys.step crates cmd event = some next) :
    InOrder next.world ∧ ∃ shown', next.printed = shown'.map (audit_event crates) ∧
      following.Step AuditEventRow.id cmd.wants cmd.page_size guard (sys.tail shown) (next.tail shown') := by
  cases event with
  | client action =>
    obtain ⟨world, hworld, rfl⟩ := Option.map_eq_some_iff.mp hstep
    exact (grow_of_client horder hworld).imp_right fun hgrow => ⟨shown, hprinted, hgrow⟩
  | query =>
    cases hphase : sys.phase with
    | resting =>
      simp only [System.step, hphase, Option.some.injEq] at hstep
      subst hstep
      exact ⟨horder, shown, hprinted, .ask hphase⟩
    | asked rows | ended => simp [System.step, hphase] at hstep
  | answer =>
    cases hphase : sys.phase with
    | asked rows =>
      have hsorted := hordered.sorted.sublist (hordered.asked rows hphase).sublist
      cases hlist : list_audit crates (cmd.next_page sys.max_id) rows with
      | ok events =>
        simp only [System.step, hphase, hlist, Option.some.injEq] at hstep
        subst hstep
        have hevents := sorted_page hsorted hlist
        refine ⟨horder, shown ++ page AuditEventRow.id cmd.wants cmd.page_size sys.max_id rows, ?_, ?_⟩
        · rw [List.map_append, ← hevents, ← hprinted]
          rfl
        · rw [tail_take hevents]
          exact .take rows hphase (hguard rfl)
      | error e =>
        simp only [System.step, hphase, hlist, Option.some.injEq] at hstep
        exact hstep ▸ ⟨horder, shown, hprinted, fail_follows⟩
    | resting | ended => simp [System.step, hphase] at hstep
  | fail =>
    cases hphase : sys.phase with
    | resting | asked rows =>
      simp only [System.step, hphase, Option.some.injEq] at hstep
      exact hstep ▸ ⟨horder, shown, hprinted, fail_follows⟩
    | ended => simp [System.step, hphase] at hstep
  | garble =>
    cases hphase : sys.phase with
    | asked rows =>
      simp only [System.step, hphase, Option.some.injEq] at hstep
      exact hstep ▸ ⟨horder, shown, hprinted, .stop⟩
    | resting | ended => simp [System.step, hphase] at hstep

/-- What the follower has printed are events of rows, none that is due and not
above the cursor is missing, and the rows follow the order of their ids. -/
structure Kept (crates : Crates) (cmd : CmdAudit) (sys : System ι α) : Prop where
  order : InOrder sys.world
  shown : ∃ shown, sys.printed = shown.map (audit_event crates) ∧ Ordered AuditEventRow.id cmd.wants (sys.tail shown) ∧
    (sys.tail shown).Gapless AuditEventRow.id cmd.wants

omit [DecidableEq ι] in
private theorem selected_eq {rows : List AuditEventRow} (hphase : sys.phase = .asked rows) :
    sys.selected cmd = (behind AuditEventRow.id cmd.wants sys.max_id rows).length := by
  rw [← selected_eq_behind]
  simp only [System.selected, hphase]

theorem Kept.step {event : Event ι} (h : Kept crates cmd sys) (hfits : fits_a_page cmd sys event)
    (hstep : sys.step crates cmd event = some next) : Kept crates cmd next := by
  obtain ⟨shown, hprinted, hordered, hgapless⟩ := h.shown
  have hwhole (hanswer : event = .answer) : (sys.tail shown).Whole AuditEventRow.id cmd.wants cmd.page_size := by
    intro c rows (hmax : sys.max_id = some c) hphase
    have hselected := hfits hanswer (Option.isSome_of_eq_some hmax)
    rwa [selected_eq hphase, hmax] at hselected
  obtain ⟨horder, shown', hprinted', hfollows⟩ := step_follows h.order hprinted hordered hwhole hstep
  exact ⟨horder, shown', hprinted', hordered.step (page_size_pos none) hfollows, hordered.gapless_step hgapless hfollows⟩

omit [DecidableEq ι] in
/-- In an ordered list nothing else has the id of a row that is in it. -/
private theorem filter_id_eq (hsorted : shown.Pairwise fun a b => a.id < b.id) {row : AuditEventRow} (hrow : row ∈ shown) :
    (shown.map (audit_event crates)).filter (fun event => event.id == row.id) = [audit_event crates row] := by
  obtain ⟨before, after, rfl⟩ := List.append_of_mem hrow
  obtain ⟨-, hafter, hbefore⟩ := List.pairwise_append.mp hsorted
  have hnone (rows : List AuditEventRow) (hne : ∀ a ∈ rows, a.id ≠ row.id) :
      (rows.map (audit_event crates)).filter (fun event => event.id == row.id) = [] := by
    rw [List.filter_map, List.map_eq_nil_iff, List.filter_eq_nil_iff]
    exact fun a ha => by simpa [audit_event] using hne a ha
  have hfirst := hnone before fun a ha => Nat.ne_of_lt (hbefore a ha row List.mem_cons_self)
  have hlast := hnone after fun a ha => Nat.ne_of_gt (List.rel_of_pairwise_cons hafter ha)
  rw [List.map_append, List.map_cons, List.filter_append, List.filter_cons, hfirst, hlast]
  simp [audit_event]

omit [DecidableEq ι] in
theorem Kept.gapless (h : Kept crates cmd sys) : Gapless crates cmd sys := by
  obtain ⟨shown, hprinted, hordered, hgapless⟩ := h.shown
  refine ⟨?_, fun c hmax row hdue hle => ?_⟩
  · rw [hprinted]
    exact List.pairwise_map.mpr hordered.printed_sorted
  · rw [hprinted]
    exact filter_id_eq hordered.printed_sorted (hgapless c hmax row hdue hle)

omit [DecidableEq ι] in
/-- An answer to a poll that found more rows than a page has leaves a gap. -/
theorem Kept.gap_of_long_page (h : Kept crates cmd sys) {rows : List AuditEventRow} {c : Nat} (hphase : sys.phase = .asked rows)
    (hmax : sys.max_id = some c) (hlong : 1000 < sys.selected cmd) {events : List AuditEvent}
    (hlist : list_audit crates (cmd.next_page sys.max_id) rows = .ok events) : ¬ Gapless crates cmd (sys.take events) := by
  obtain ⟨shown, hprinted, hordered, -⟩ := h.shown
  have hevents := sorted_page (hordered.sorted.sublist (hordered.asked rows hphase).sublist) hlist
  have htail : (sys.take events).tail (shown ++ _) = _ := tail_take hevents
  have hbehind : cmd.page_size (some c) < (behind AuditEventRow.id cmd.wants (some c) rows).length := by
    rwa [selected_eq hphase, hmax] at hlong
  obtain ⟨row, hdue, hle, hmissing⟩ := hordered.gap_of_long_page hphase hmax (page_size_pos (some c)) hbehind
  rintro ⟨-, hgapless⟩
  have hcursor : (sys.take events).max_id = _ := congrArg Tail.cursor htail
  rw [hmax] at hcursor
  have honce := hgapless _ hcursor row hdue hle
  have hmem : audit_event crates row ∈ (sys.take events).printed :=
    (List.mem_filter.mp (honce ▸ List.mem_singleton_self _)).1
  have hshown : (sys.take events).printed =
      (shown ++ page AuditEventRow.id cmd.wants cmd.page_size (some c) rows).map (audit_event crates) := by
    rw [List.map_append, ← hmax, ← hevents, ← hprinted]
    rfl
  rw [hshown] at hmem
  obtain ⟨other, hother, heq⟩ := List.mem_map.mp hmem
  exact hmissing other hother (congrArg AuditEvent.id heq)

end Steps

/-- A store that the command may be run against. -/
structure Startable (db : Store) : Prop where
  tip : ∃ tip, db.rows .audit_chain_tip = [tip] ∧ is_tip tip = true
  ids : (db.rows .audit_events).Pairwise fun a b => a.id < b.id
  below : ∀ row ∈ db.rows .audit_events, row.id < db.seq .audit_events
  positive : 0 < db.seq .audit_events

private theorem kept_start {db : Store} (hdb : Startable db) {progs : ι → Tx α} (hprogs : ∀ i, UnderTip false (progs i)) :
    Kept crates cmd { world := World.start db progs } := by
  have horder := in_order_start hprogs hdb.tip hdb.ids hdb.below
  refine ⟨horder, [], rfl, ?_, by simp [Tail.Gapless, System.tail]⟩
  refine ⟨horder.committed_ids, fun row hrow => horder.committed_lt_frontier hrow, ?_, by simp [System.tail],
    by simp [System.tail], by simp [System.tail], by simp [System.tail], by simp [System.tail], fun _ => rfl, .nil,
    by simp [System.tail]⟩
  exact Nat.lt_of_lt_of_eq hdb.positive frontier_start.symm

theorem kept_of_run [DecidableEq ι] {db : Store} (hdb : Startable db) {progs : ι → Tx α} (hprogs : ∀ i, UnderTip false (progs i))
    {sys : System ι α} (hrun : Run (System.step crates cmd) (fits_a_page cmd) { world := World.start db progs } sys) :
    Kept crates cmd sys :=
  hrun.invariant (kept_start hdb hprogs) fun _ _ _ hkept hfits hstep => hkept.step hfits hstep

/-- For any clients that take their audit ids under the tip, any filters and
any failures: as long as each poll that is answered found no more rows than a
page has, what matches and was committed after the first page was read is
printed once and in order before the cursor goes past it. -/
theorem follow_is_gapless [DecidableEq ι] {db : Store} (hdb : Startable db) {progs : ι → Tx α}
    (hprogs : ∀ i, UnderTip false (progs i)) {sys : System ι α}
    (hrun : Run (System.step crates cmd) (fits_a_page cmd) { world := World.start db progs } sys) : Gapless crates cmd sys :=
  (kept_of_run hdb hprogs hrun).gapless

section Samples

def sample_crates : Crates := .on [.null]

def sample_record : AuditRecord := { actor := "user:alice", kind := "operation.submitted" }

/-- Clients that each record an event, and a follower that has not begun. -/
def sample_start : System Nat Unit where
  world := World.start migrated fun _ => record_audit_on sample_crates "2026-05-01T00:00:00Z" sample_record

theorem migrated_is_startable : Startable migrated where
  tip := ⟨_, rfl, rfl⟩
  ids := .nil
  below := fun row hrow => by cases hrow
  positive := Nat.one_pos

/-- Whether the page that is awaited is not cut short. -/
def page_is_short (sys : System Nat Unit) (_ : Event Nat) : Bool := sys.selected {} ≤ 1000

/-- The first page is empty, a client records an event, and the next poll finds it. -/
theorem recorded_event_is_followed : ∃ sys : System Nat Unit,
    sys.printed.map AuditEvent.id = [1] ∧ Gapless sample_crates {} sys := by
  have hreached : (follow (System.step sample_crates {}) page_is_short sample_start
      ([.query, .answer] ++ List.replicate 6 (.client (.advance 0)) ++ [.query, .fail, .query, .answer])).any
        (fun sys => sys.printed.map AuditEvent.id == [1]) = true := by
    decide
  have hfits (sys : System Nat Unit) (event : Event Nat) (h : page_is_short sys event = true) : fits_a_page {} sys event :=
    fun _ _ => by simpa [page_is_short] using h
  obtain ⟨sys, hrun, hprinted⟩ := run_of_follow hfits hreached
  exact ⟨sys, by simpa using hprinted, follow_is_gapless migrated_is_startable (fun _ => record_audit_under_tip _ _ _ _) hrun⟩

/-- The first page was empty, and `n` clients have recorded an event since. -/
structure Recorded (n : Nat) (sys : System Nat Unit) : Prop where
  phase : sys.phase = .resting
  max_id : sys.max_id = some 0
  since : sys.since = some []
  quiet : sys.world.Quiet
  waiting : ∀ j, n ≤ j →
    sys.world.sessions j = .running (record_audit_on sample_crates "2026-05-01T00:00:00Z" sample_record)
  count : sys.audit_events.length = n
  payload : ∀ row ∈ sys.audit_events, sample_crates.from_str row.payload_json = .ok .null

private theorem run_of_reaches {start sys : System Nat Unit} {i : Nat} {world : World Nat Row ApiError Unit}
    (hrun : Run (System.step sample_crates {}) (fits_a_page {}) start sys) (h : sys.world.Reaches i world) :
    Run (System.step sample_crates {}) (fits_a_page {}) start { sys with world } := by
  unfold World.Reaches at h
  induction h with
  | refl => exact hrun
  | tail _ hstep ih =>
    refine ih.step (a := .client (.advance i)) (fun hevent => by cases hevent) ?_
    simp only [System.step, hstep, Option.map_some]

private theorem recorded_zero :
    ∃ sys, Run (System.step sample_crates {}) (fits_a_page {}) sample_start sys ∧ Recorded 0 sys := by
  have hrun : Run (System.step sample_crates {}) (fits_a_page {}) sample_start { sample_start with
      max_id := some 0, since := some [] } := by
    refine .step (a := .answer) (.step (a := .query) .start (fun hevent => by cases hevent) rfl) (fun _ hsome => ?_) rfl
    cases hsome
  refine ⟨_, hrun, rfl, rfl, rfl, fun t s hs => ?_, fun _ _ => rfl, rfl, fun row hrow => by cases hrow⟩
  obtain ⟨row, -, rfl⟩ := List.mem_map.mp hs
  rfl

private theorem recorded_succ {n : Nat} {sys : System Nat Unit}
    (hrun : Run (System.step sample_crates {}) (fits_a_page {}) sample_start sys) (h : Recorded n sys) :
    ∃ next, Run (System.step sample_crates {}) (fits_a_page {}) sample_start next ∧ Recorded (n + 1) next := by
  obtain ⟨world, hreaches, -, hquiet, hcommitted, -, hothers⟩ := exec_alone (h.waiting n (Nat.le_refl n)) h.quiet
  obtain ⟨prev_hash, id, after, hrecord, hevents, -⟩ := record_audit_on_spec sample_crates "2026-05-01T00:00:00Z" sample_record
    ⟨sys.world.committed, sys.world.seq⟩
  rw [exec_of_run_ok hrecord] at hcommitted
  have hrows : world.committed .audit_events =
      sys.audit_events ++ [audit_row sample_crates "2026-05-01T00:00:00Z" prev_hash sample_record id] := by
    rw [hcommitted, hevents]
    rfl
  refine ⟨{ sys with world }, run_of_reaches hrun hreaches, h.phase, h.max_id, h.since, hquiet, fun j hj => ?_, ?_, ?_⟩
  · rw [hothers j (by omega)]
    exact h.waiting j (by omega)
  · rw [System.audit_events, hrows, List.length_append, h.count]
    rfl
  · intro row hrow
    rw [System.audit_events, hrows] at hrow
    cases List.mem_append.mp hrow with
    | inl hold => exact h.payload row hold
    | inr hnew =>
      rw [List.mem_singleton.mp hnew]
      rfl

private theorem recorded (n : Nat) :
    ∃ sys, Run (System.step sample_crates {}) (fits_a_page {}) sample_start sys ∧ Recorded n sys := by
  induction n with
  | zero => exact recorded_zero
  | succ n ih =>
    obtain ⟨sys, hrun, hrecorded⟩ := ih
    exact recorded_succ hrun hrecorded

/-- The poll finds all of them. -/
private theorem selected_of_recorded {n : Nat} {sys : System Nat Unit} (hrecorded : Recorded n sys)
    (hkept : Kept sample_crates {} { sys with phase := .asked sys.audit_events }) :
    System.selected {} { sys with phase := .asked sys.audit_events } = n := by
  obtain ⟨shown, -, hordered, -⟩ := hkept.shown
  have hselects (row : AuditEventRow) (hrow : row ∈ sys.audit_events) :
      (CmdAudit.next_page {} sys.max_id).selects row = true := by
    have hpos := hordered.later [] hrecorded.since row hrow List.not_mem_nil
    rw [selects_next_page, hrecorded.max_id]
    simp [CmdAudit.wants, CmdAudit.build_url, AuditFilter.selects, hpos]
  simp only [System.selected, List.filter_eq_self.mpr hselects, hrecorded.count]

/-- After the first page a thousand and one events are recorded before the next
poll. It finds the newest thousand, and the oldest one is never printed. -/
theorem burst_is_not_followed : ∃ sys : System Nat Unit,
    Run (System.step sample_crates {}) (fun _ _ => True) sample_start sys ∧ ¬ Gapless sample_crates {} sys := by
  obtain ⟨sys, hrun, hrecorded⟩ := recorded 1001
  let asked : System Nat Unit := { sys with phase := .asked sys.audit_events }
  have hquery : sys.step sample_crates {} .query = some asked := by
    simp [System.step, hrecorded.phase, hrecorded.max_id, asked]
  have hasked := hrun.step (fun hevent => by cases hevent) hquery
  have hkept := kept_of_run migrated_is_startable (fun _ => record_audit_under_tip _ _ _ _) hasked
  obtain ⟨events, hlist⟩ : ∃ events, list_audit sample_crates (CmdAudit.next_page {} asked.max_id) sys.audit_events = .ok events :=
    list_audit_ok fun row hrow => ⟨_, hrecorded.payload row hrow⟩
  have hanswer : asked.step sample_crates {} .answer = some (asked.take events) := by
    simp only [System.step, asked, hlist]
  have hevery : Run (System.step sample_crates {}) (fun _ _ => True) sample_start asked :=
    hasked.invariant .start fun _ _ _ hrun _ hstep => hrun.step trivial hstep
  refine ⟨asked.take events, hevery.step trivial hanswer, hkept.gap_of_long_page rfl hrecorded.max_id ?_ hlist⟩
  rw [selected_of_recorded hrecorded hkept]
  decide

end Samples

end iac_cli.audit_follow
