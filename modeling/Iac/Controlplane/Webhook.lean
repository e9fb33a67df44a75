import Iac.Collections.Polling
import Iac.Controlplane.RateLimit
import Iac.Controlplane.Store.Audit
import Iac.Sql.ReadCommitted
import Mathlib.Data.List.Sort

open iac_controlplane.rate_limit iac_controlplane.store sql

namespace iac_controlplane.webhook

/-- What the filters read of an audit row, and its payload. -/
structure AuditEvent where
  id : Nat
  kind : String
  severity : String
  payload : serde_json.Value

/-- The event of a row; a payload that does not parse is null. -/
def audit_event (crates : Crates) (row : AuditEventRow) : AuditEvent where
  id := row.id
  kind := row.kind
  severity := row.severity
  payload :=
    match crates.from_str row.payload_json with
    | .ok payload => payload
    | .error _ => .null

/-- The fields of a webhook that decide what it is sent. -/
structure WebhookConfig where
  name : String
  min_severity : String := "warning"
  kinds : List String := []
  backfill : Bool := false

structure WebhooksConfig where
  webhooks : List WebhookConfig
  backfill_batch_size : UInt32 := 200

def default_backfill_batch_size : Nat := 200

def WebhooksConfig.batch_size (config : WebhooksConfig) : Nat :=
  if config.backfill_batch_size = 0 then default_backfill_batch_size else config.backfill_batch_size.toNat

def severity_rank (s : String) : Nat :=
  match s with
  | "info" => 0
  | "warning" => 1
  | "error" => 2
  | _ => 0

/-- The filter `matches` of a webhook. -/
def WebhookConfig.matches_event (webhook : WebhookConfig) (event : AuditEvent) : Bool :=
  if severity_rank event.severity < severity_rank webhook.min_severity then false
  else if !webhook.kinds.isEmpty && !webhook.kinds.any (· == event.kind) then false
  else true

def cursor_key (name : String) : String :=
  "audit:" ++ name

/-- The key of the cursor that the webhooks once shared. -/
def legacy_key : String := "audit"

/-- The tables of the dispatcher: `last_seen_id` by key, `deadline_unix` by webhook name. -/
structure WebhookTables where
  webhook_cursor : String → Option Nat
  webhook_backoff : String → Option Int

/-- The monotonic clock, in nanoseconds, and the seconds of the system clock. -/
structure Clock where
  instant : Nat
  unix : Int

def WebhookTables.persist_cursor (tables : WebhookTables) (key : String) (last : Nat) : WebhookTables :=
  { tables with webhook_cursor := Function.update tables.webhook_cursor key (some last) }

@[simp] theorem persist_cursor_self (tables : WebhookTables) (key : String) (last : Nat) :
    (tables.persist_cursor key last).webhook_cursor key = some last := by
  simp [WebhookTables.persist_cursor]

theorem persist_cursor_of_ne (tables : WebhookTables) {key key' : String} (h : key' ≠ key) (last : Nat) :
    (tables.persist_cursor key last).webhook_cursor key' = tables.webhook_cursor key' := by
  simp [WebhookTables.persist_cursor, h]

def WebhookTables.persist_backoff (tables : WebhookTables) (name : String) (deadline_unix : Int) : WebhookTables :=
  { tables with webhook_backoff := Function.update tables.webhook_backoff name (some deadline_unix) }

def max_backoff_secs : Nat := 60 * 60

/-- How a call of `fire` ended. -/
inductive Response where
  /-- The receiver answered with success. -/
  | success
  /-- It answered 429, with the seconds of its `Retry-After` if that parses. -/
  | too_many_requests (retry_after : Option Nat)
  /-- It answered with another status. -/
  | non_success
  /-- There was no answer. -/
  | failed
  /-- The guard against private addresses held the request back. -/
  | blocked

/-- What the polling loop is doing. -/
inductive Task where
  /-- `initialize`, after its first query. -/
  | initializing (max_id : Nat)
  /-- Between two webhooks of a tick, or two ticks when none is left. -/
  | idle (rest : List WebhookConfig)
  /-- Requests of a batch that reaches from `cursor` to `last`: those that have not
  been sent, those that await an answer, and all that were sent. -/
  | firing (webhook : WebhookConfig) (cursor last : Nat) (unsent in_flight sent : List AuditEvent)
      (rest : List WebhookConfig)
  /-- The new cursor is in memory and about to be stored. -/
  | persisting (webhook : WebhookConfig) (last : Nat) (sent : List AuditEvent) (rest : List WebhookConfig)

/-- A dispatcher that runs: its maps in memory, and its task. -/
structure Process where
  cursors : String → Option Nat
  backoff_until : String → Option Nat
  task : Task

/-- A request for an event to a webhook. -/
structure Attempt where
  receiver : String
  event : AuditEvent

/-- What happened so far: the requests in order, those of them that were sent
when the dispatcher crashed before it stored the cursor, the audit rows that
each webhook found when it was first initialised, and the ticks that each
webhook completed. -/
structure History where
  attempts : List Attempt
  interrupted : List Attempt
  initialized : String → Option (List AuditEventRow)
  completed : String → Nat

/-- The database with its clients, and the dispatcher, if it runs. -/
structure System (ι α : Type) where
  world : World ι Row ApiError α
  tables : WebhookTables
  clock : Clock
  process : Option Process
  history : History

/-- What happens next. -/
inductive Event (ι : Type) where
  /-- A step of a client of the database. -/
  | client (action : Action ι ApiError)
  | pass (clock : Clock)
  | crash
  /-- A process starts and makes the first query of `initialize`. -/
  | boot
  | initialise
  | tick_once
  | poll
  /-- One of the requests of the batch is sent; they are made in parallel. -/
  | send (n : Nat)
  | answer (n : Nat) (response : Response)
  | finish
  | persist

variable {ι α : Type}

def System.audit_events (sys : System ι α) : List AuditEventRow :=
  sys.world.committed .audit_events

/-- `SELECT COALESCE(MAX(id), 0)`. -/
def max_id (rows : List AuditEventRow) : Nat :=
  polling.latest_id AuditEventRow.id rows

/-- `WHERE id > ? ORDER BY id LIMIT ?`. -/
def poll_rows (cursor limit : Nat) (rows : List AuditEventRow) : List AuditEventRow :=
  ((rows.filter fun row => cursor < row.id).insertionSort fun a b => a.id ≤ b.id).take limit

def initial_cursor (persisted legacy : Option Nat) (backfill : Bool) (max_id : Nat) : Nat :=
  match persisted, legacy, backfill with
  | some id, _, _ => id
  | none, some id, _ => id
  | none, none, true => 0
  | none, none, false => max_id

def initial_cursors (config : WebhooksConfig) (tables : WebhookTables) (max_id : Nat) : String → Option Nat :=
  config.webhooks.foldl (fun cursors webhook =>
    Function.update cursors (cursor_key webhook.name) (some (initial_cursor
      (tables.webhook_cursor (cursor_key webhook.name)) (tables.webhook_cursor legacy_key) webhook.backfill max_id)))
    fun _ => none

/-- Deletes the rows `audit:*` of webhooks that are not configured. -/
def prune_orphan_cursors (config : WebhooksConfig) (tables : WebhookTables) : WebhookTables where
  webhook_cursor key :=
    if (cursor_key "").toList <+: key.toList ∧ key ∉ config.webhooks.map (fun w => cursor_key w.name) then none
    else tables.webhook_cursor key
  webhook_backoff := tables.webhook_backoff

def from_secs (secs : Nat) : Nat :=
  secs * nanos_per_sec

def load_persisted_backoffs (tables : WebhookTables) (clock : Clock) (name : String) : Option Nat :=
  match tables.webhook_backoff name with
  | none => none
  | some deadline_unix =>
    if clock.unix < deadline_unix then
      some (clock.instant + from_secs (min (max (deadline_unix - clock.unix) 1).toNat max_backoff_secs))
    else none

/-- Whether the receiver asked for a pause that is not over. -/
def Process.backed_off (p : Process) (clock : Clock) (webhook : WebhookConfig) : Bool :=
  match p.backoff_until webhook.name with
  | some deadline => clock.instant < deadline
  | none => false

def Process.cursor (p : Process) (webhook : WebhookConfig) : Nat :=
  (p.cursors (cursor_key webhook.name)).getD 0

/-- The requests that a crash interrupts. -/
def Process.interrupts (p : Process) : List Attempt :=
  match p.task with
  | .firing webhook _ _ _ _ sent _ => sent.map (Attempt.mk webhook.name)
  | .persisting webhook _ sent _ => sent.map (Attempt.mk webhook.name)
  | _ => []

/-- The pause that the answer asks for, in seconds. -/
def Response.retry_secs : Response → Nat
  | .too_many_requests retry_after => (retry_after.map fun s => min s max_backoff_secs).getD 0
  | _ => 0

section Steps

variable (crates : Crates) (config : WebhooksConfig)

def System.set_task (sys : System ι α) (p : Process) (task : Task) : System ι α :=
  { sys with process := some { p with task } }

def History.complete (h : History) (webhook : WebhookConfig) : History :=
  { h with completed := Function.update h.completed webhook.name (h.completed webhook.name + 1) }

/-- The end of `initialize`. -/
def System.initialise (sys : System ι α) (max_id : Nat) : System ι α where
  world := sys.world
  tables := prune_orphan_cursors config sys.tables
  clock := sys.clock
  process := some {
    cursors := initial_cursors config sys.tables max_id
    backoff_until := load_persisted_backoffs sys.tables sys.clock
    task := .idle [] }
  history := { sys.history with
    initialized := fun name =>
      if name ∈ config.webhooks.map WebhookConfig.name then some ((sys.history.initialized name).getD sys.audit_events)
      else sys.history.initialized name }

/-- The start of `tick_one_webhook`, up to the requests. -/
def System.poll (sys : System ι α) (p : Process) (webhook : WebhookConfig) (rest : List WebhookConfig) : System ι α :=
  if p.backed_off sys.clock webhook then sys.set_task p (.idle rest)
  else
    let cursor := p.cursor webhook
    let rows := poll_rows cursor config.batch_size sys.audit_events
    let events := rows.map (audit_event crates)
    let last := (events.getLast?.map AuditEvent.id).getD cursor
    sys.set_task p (.firing webhook cursor last (events.filter webhook.matches_event) [] [] rest)

/-- The answer to a request, and the pause it may ask for. -/
def System.answer (sys : System ι α) (p : Process) (webhook : WebhookConfig) (response : Response) (task : Task) :
    System ι α :=
  if 0 < response.retry_secs then
    let deadline := sys.clock.instant + from_secs response.retry_secs
    { sys with
      tables := sys.tables.persist_backoff webhook.name (sys.clock.unix + response.retry_secs)
      process := some ⟨p.cursors, Function.update p.backoff_until webhook.name (some deadline), task⟩ }
  else sys.set_task p task

def System.step [DecidableEq ι] (sys : System ι α) : Event ι → Option (System ι α)
  | .client action => (sys.world.step action).map fun world => { sys with world }
  | .pass clock => if sys.clock.instant ≤ clock.instant then some { sys with clock } else none
  | .crash => sys.process.map fun p => { sys with
      process := none, history := { sys.history with interrupted := sys.history.interrupted ++ p.interrupts } }
  | .boot =>
    if sys.process.isSome then none
    else some { sys with process := some ⟨fun _ => none, fun _ => none, .initializing (max_id sys.audit_events)⟩ }
  | .initialise =>
    match sys.process with
    | some ⟨_, _, .initializing max_id⟩ => some (sys.initialise config max_id)
    | _ => none
  | .tick_once =>
    match sys.process with
    | some ⟨cursors, backoff_until, .idle []⟩ => some (sys.set_task ⟨cursors, backoff_until, .idle []⟩ (.idle config.webhooks))
    | _ => none
  | .poll =>
    match sys.process with
    | some ⟨cursors, backoff_until, .idle (webhook :: rest)⟩ =>
      some (sys.poll crates config ⟨cursors, backoff_until, .idle (webhook :: rest)⟩ webhook rest)
    | _ => none
  | .send n =>
    match sys.process with
    | some ⟨cursors, backoff_until, .firing webhook cursor last unsent in_flight sent rest⟩ =>
      (unsent[n]?).map fun event => { sys with
        process := some ⟨cursors, backoff_until,
          .firing webhook cursor last (unsent.eraseIdx n) (in_flight ++ [event]) (sent ++ [event]) rest⟩
        history := { sys.history with attempts := sys.history.attempts ++ [⟨webhook.name, event⟩] } }
    | _ => none
  | .answer n response =>
    match sys.process with
    | some ⟨cursors, backoff_until, .firing webhook cursor last unsent in_flight sent rest⟩ =>
      if n < in_flight.length then
        let task := .firing webhook cursor last unsent (in_flight.eraseIdx n) sent rest
        some (sys.answer ⟨cursors, backoff_until, task⟩ webhook response task)
      else none
    | _ => none
  | .finish =>
    match sys.process with
    | some ⟨cursors, backoff_until, .firing webhook cursor last [] [] sent rest⟩ =>
      if last = cursor then
        some { sys with process := some ⟨cursors, backoff_until, .idle rest⟩, history := sys.history.complete webhook }
      else
        let cursors := Function.update cursors (cursor_key webhook.name) (some last)
        some { sys with process := some ⟨cursors, backoff_until, .persisting webhook last sent rest⟩ }
    | _ => none
  | .persist =>
    match sys.process with
    | some ⟨cursors, backoff_until, .persisting webhook last _ rest⟩ => some { sys with
        tables := sys.tables.persist_cursor (cursor_key webhook.name) last
        process := some ⟨cursors, backoff_until, .idle rest⟩
        history := sys.history.complete webhook }
    | _ => none

end Steps

/-- Before the first start of the dispatcher. -/
def System.start (world : World ι Row ApiError α) (tables : WebhookTables) (clock : Clock) : System ι α where
  world
  tables
  clock
  process := none
  history := ⟨[], [], fun _ => none, fun _ => 0⟩

end iac_controlplane.webhook
