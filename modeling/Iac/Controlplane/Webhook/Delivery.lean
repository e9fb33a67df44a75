import Iac.Collections.Run
import Iac.Controlplane.Store.Audit.Order
import Iac.Controlplane.Webhook

open iac_controlplane.store polling sql transition

namespace iac_controlplane.webhook

variable {ι α : Type} {crates : Crates} {config : WebhooksConfig}

/-- Where the dispatcher is with respect to one webhook. -/
def Process.phase (p : Process) (webhook : WebhookConfig) : Phase :=
  match p.task with
  | .initializing max_id => .starting max_id
  | .idle _ => .ready (p.cursor webhook)
  | .firing w cursor last unsent _ sent _ =>
    if w.name = webhook.name then .firing cursor last (unsent.map AuditEvent.id) (sent.map AuditEvent.id)
    else .ready (p.cursor webhook)
  | .persisting w last sent _ =>
    if w.name = webhook.name then .persisting last (sent.map AuditEvent.id) else .ready (p.cursor webhook)

/-- The ids of the events that were sent to a webhook. -/
def ids_for (webhook : WebhookConfig) (attempts : List Attempt) : List Nat :=
  (attempts.filter fun a => a.receiver = webhook.name).map fun a => a.event.id

/-- The audit log and one webhook as a consumer of it. -/
def System.lane (sys : System ι α) (webhook : WebhookConfig) : Lane AuditEventRow where
  log := sys.audit_events
  floor := frontier sys.world
  stored := sys.tables.webhook_cursor (cursor_key webhook.name)
  phase := (sys.process.map fun p => p.phase webhook).getD .down
  since := sys.history.initialized webhook.name
  attempts := ids_for webhook sys.history.attempts
  interrupted := ids_for webhook sys.history.interrupted
  completed := sys.history.completed webhook.name

/-- Where a webhook without a stored cursor starts, if not at the end. -/
def fallback (legacy : Option Nat) (webhook : WebhookConfig) : Option Nat :=
  legacy.or (if webhook.backfill then some 0 else none)

def wanted (crates : Crates) (webhook : WebhookConfig) (row : AuditEventRow) : Bool :=
  webhook.matches_event (audit_event crates row)

/-- The task of a process agrees with its cursors. -/
def Process.Tidy (config : WebhooksConfig) (p : Process) : Prop :=
  match p.task with
  | .initializing _ => True
  | .idle rest => rest ⊆ config.webhooks
  | .firing w cursor _ _ _ _ rest => w ∈ config.webhooks ∧ rest ⊆ config.webhooks ∧ p.cursor w = cursor
  | .persisting w last _ rest => w ∈ config.webhooks ∧ rest ⊆ config.webhooks ∧ p.cursor w = last

structure Tidy (config : WebhooksConfig) (legacy : Option Nat) (sys : System ι α) : Prop where
  order : InOrder sys.world
  legacy : sys.tables.webhook_cursor legacy_key = legacy
  process : ∀ p, sys.process = some p → p.Tidy config

theorem batch_size_pos (config : WebhooksConfig) : 0 < config.batch_size := by
  unfold WebhooksConfig.batch_size
  split
  case isTrue => decide
  case isFalse hne =>
    refine Nat.pos_of_ne_zero fun hzero => hne ?_
    exact UInt32.toNat_inj.mp hzero

theorem cursor_key_inj {a b : String} (h : cursor_key a = cursor_key b) : a = b := by
  apply String.toList_inj.mp
  have htexts := congrArg String.toList h
  simpa [cursor_key] using htexts

theorem cursor_key_ne_legacy (name : String) : cursor_key name ≠ legacy_key := by
  intro h
  have hlength := congrArg (List.length ∘ String.toList) h
  simp [cursor_key, legacy_key] at hlength

/-- Of two webhooks of one name the configuration has only one. -/
theorem webhook_eq (hnames : (config.webhooks.map WebhookConfig.name).Nodup) {v w : WebhookConfig}
    (hv : v ∈ config.webhooks) (hw : w ∈ config.webhooks) (h : v.name = w.name) : v = w :=
  List.inj_on_of_nodup_map hnames hv hw h

/-- On ordered rows the query reads the next batch. -/
theorem poll_rows_eq {rows : List AuditEventRow} (hsorted : rows.Pairwise fun a b => a.id < b.id) (cursor limit : Nat) :
    poll_rows cursor limit rows = batch AuditEventRow.id limit cursor rows := by
  unfold poll_rows batch
  congr 1
  apply List.Pairwise.insertionSort_eq
  exact (hsorted.sublist List.filter_sublist).imp Nat.le_of_lt

section Initialize

private theorem foldl_update_of_not_mem {value : WebhookConfig → Option Nat} {webhooks : List WebhookConfig}
    {cursors : String → Option Nat} {name : String} (h : name ∉ webhooks.map WebhookConfig.name) :
    webhooks.foldl (fun cursors w => Function.update cursors (cursor_key w.name) (value w)) cursors (cursor_key name) =
      cursors (cursor_key name) := by
  induction webhooks generalizing cursors with
  | nil => rfl
  | cons w webhooks ih =>
    simp only [List.map_cons, List.mem_cons, not_or] at h
    rw [List.foldl_cons, ih h.2, Function.update_of_ne]
    exact fun heq => h.1 (cursor_key_inj heq)

private theorem foldl_update_of_mem {value : WebhookConfig → Option Nat} {webhooks : List WebhookConfig}
    {cursors : String → Option Nat} (hnames : (webhooks.map WebhookConfig.name).Nodup) {w : WebhookConfig} (hw : w ∈ webhooks) :
    webhooks.foldl (fun cursors w => Function.update cursors (cursor_key w.name) (value w)) cursors (cursor_key w.name) =
      value w := by
  induction webhooks generalizing cursors with
  | nil => cases hw
  | cons v webhooks ih =>
    rw [List.map_cons, List.nodup_cons] at hnames
    rw [List.foldl_cons]
    cases List.mem_cons.mp hw with
    | inl heq =>
      subst heq
      rw [foldl_update_of_not_mem hnames.1, Function.update_self]
    | inr hmem => exact ih hnames.2 hmem

theorem initial_cursor_eq (stored legacy : Option Nat) (webhook : WebhookConfig) (max_id : Nat) :
    initial_cursor stored legacy webhook.backfill max_id = stored.getD ((fallback legacy webhook).getD max_id) := by
  cases stored <;> cases legacy <;> cases hb : webhook.backfill <;> simp [initial_cursor, fallback, hb]

theorem initial_cursors_eq (hnames : (config.webhooks.map WebhookConfig.name).Nodup) {w : WebhookConfig}
    (hw : w ∈ config.webhooks) (tables : WebhookTables) (max_id : Nat) :
    initial_cursors config tables max_id (cursor_key w.name) =
      some ((tables.webhook_cursor (cursor_key w.name)).getD
        ((fallback (tables.webhook_cursor legacy_key) w).getD max_id)) := by
  rw [← initial_cursor_eq]
  exact foldl_update_of_mem hnames hw

theorem prune_keeps {w : WebhookConfig} (hw : w ∈ config.webhooks) (tables : WebhookTables) :
    (prune_orphan_cursors config tables).webhook_cursor (cursor_key w.name) = tables.webhook_cursor (cursor_key w.name) := by
  have hmem : cursor_key w.name ∈ config.webhooks.map fun w => cursor_key w.name := List.mem_map_of_mem hw
  simp only [prune_orphan_cursors]
  rw [if_neg fun h => h.2 hmem]

theorem prune_keeps_legacy (tables : WebhookTables) :
    (prune_orphan_cursors config tables).webhook_cursor legacy_key = tables.webhook_cursor legacy_key := by
  have hkey : ¬ (cursor_key "").toList <+: legacy_key.toList := by decide
  simp only [prune_orphan_cursors]
  rw [if_neg fun h => hkey h.1]

end Initialize

section Steps

variable [DecidableEq ι] {sys next : System ι α} {legacy : Option Nat}

/-- Rows that the webhook wants and that were not there when it was first initialised. -/
def Due (crates : Crates) (sys : System ι α) (webhook : WebhookConfig) (row : AuditEventRow) : Prop :=
  row ∈ sys.audit_events ∧ webhook.matches_event (audit_event crates row) = true ∧
    ∃ old, sys.history.initialized webhook.name = some old ∧ row ∉ old

/-- A request for the row to the webhook. -/
def Attempt.Is (webhook : WebhookConfig) (id : Nat) (a : Attempt) : Prop :=
  a.receiver = webhook.name ∧ a.event.id = id

instance (webhook : WebhookConfig) (id : Nat) : DecidablePred (Attempt.Is webhook id) :=
  fun _ => inferInstanceAs (Decidable (_ ∧ _))

def Attempted (sys : System ι α) (webhook : WebhookConfig) (row : AuditEventRow) : Prop :=
  ∃ a ∈ sys.history.attempts, a.Is webhook row.id

/-- A webhook that is initialised again and finds no stored cursor, its own or
the legacy one, and is not configured to backfill, has been sent the rows that
are due to it. -/
def keeps_its_place (crates : Crates) (config : WebhooksConfig) (sys : System ι α) (event : Event ι) : Prop :=
  event = .initialise → ∀ p max_id, sys.process = some p → p.task = .initializing max_id → ∀ w ∈ config.webhooks,
    sys.tables.webhook_cursor (cursor_key w.name) = none → sys.tables.webhook_cursor legacy_key = none →
    w.backfill = false → ∀ row, Due crates sys w row → row.id ≤ max_id → Attempted sys w row

omit [DecidableEq ι] in
theorem mem_ids_for {webhook : WebhookConfig} {attempts : List Attempt} {a : Attempt} (ha : a ∈ attempts)
    (hreceiver : a.receiver = webhook.name) : a.event.id ∈ ids_for webhook attempts :=
  List.mem_map.mpr ⟨a, List.mem_filter.mpr ⟨ha, by simpa using hreceiver⟩, rfl⟩

theorem ids_for_append {webhook : WebhookConfig} {attempts more : List Attempt} :
    ids_for webhook (attempts ++ more) = ids_for webhook attempts ++ ids_for webhook more := by
  simp [ids_for]

theorem ids_for_self {webhook : WebhookConfig} {events : List AuditEvent} {name : String} :
    ids_for webhook (events.map (Attempt.mk name)) = if name = webhook.name then events.map AuditEvent.id else [] := by
  split
  case isTrue heq => simp [ids_for, heq, List.filter_map, Function.comp_def]
  case isFalse hne => simp [ids_for, hne, List.filter_map, Function.comp_def]

/-- A crash interrupts what was sent since the cursor was stored. -/
theorem ids_for_interrupts (p : Process) (webhook : WebhookConfig) :
    ids_for webhook p.interrupts = (p.phase webhook).sent := by
  obtain ⟨cursors, backoff_until, task⟩ := p
  cases task with
  | initializing max_id | idle rest => rfl
  | firing w cursor last unsent in_flight sent rest | persisting w last sent rest =>
    refine ids_for_self.trans ?_
    by_cases hname : w.name = webhook.name <;> simp [Process.phase, hname, Phase.sent]

/-- The step of a client, seen from a webhook. -/
private theorem grow_of_client (h : Tidy config legacy sys) (webhook : WebhookConfig) {guard : Lane AuditEventRow → Nat → Prop}
    {base : Option Nat} {limit : Nat} {wanted : AuditEventRow → Bool} {world : World ι Row ApiError α}
    {action : Action ι ApiError} (hstep : sys.world.step action = some world) :
    InOrder world ∧ Step AuditEventRow.id wanted base limit guard (sys.lane webhook)
      (System.lane { sys with world } webhook) := by
  obtain ⟨horder, inserted, hcommitted, hsorted, hnew, hfloor⟩ := h.order.grows hstep
  refine ⟨horder, ?_⟩
  have hlane : System.lane { sys with world } webhook =
      { sys.lane webhook with log := (sys.lane webhook).log ++ inserted, floor := frontier world } := by
    simp only [System.lane, System.audit_events, hcommitted]
  rw [hlane]
  exact .grow inserted (frontier world) hsorted hnew hfloor

/-- A step of the system as a webhook sees it: it takes a step itself, or
nothing changes for it. -/
def Follows (crates : Crates) (config : WebhooksConfig) (legacy : Option Nat) (webhook : WebhookConfig)
    (guard : Lane AuditEventRow → Nat → Prop) (sys next : System ι α) : Prop :=
  next.lane webhook = sys.lane webhook ∨
    Step AuditEventRow.id (wanted crates webhook) (fallback legacy webhook) config.batch_size guard
      (sys.lane webhook) (next.lane webhook)

variable {webhook : WebhookConfig} {guard : Lane AuditEventRow → Nat → Prop} {p : Process}

omit [DecidableEq ι] in
private theorem lane_phase (webhook : WebhookConfig) (hp : sys.process = some p) : (sys.lane webhook).phase = p.phase webhook := by
  simp [System.lane, hp]

omit [DecidableEq ι] in
private theorem lane_eq (hworld : next.world = sys.world)
    (hstored : next.tables.webhook_cursor (cursor_key webhook.name) = sys.tables.webhook_cursor (cursor_key webhook.name))
    (hphase : (next.lane webhook).phase = (sys.lane webhook).phase)
    (hsince : next.history.initialized webhook.name = sys.history.initialized webhook.name)
    (hattempts : ids_for webhook next.history.attempts = ids_for webhook sys.history.attempts)
    (hinterrupted : ids_for webhook next.history.interrupted = ids_for webhook sys.history.interrupted)
    (hcompleted : next.history.completed webhook.name = sys.history.completed webhook.name) :
    next.lane webhook = sys.lane webhook := by
  simp only [System.lane, System.audit_events, Lane.mk.injEq, hworld, hstored, hsince, hattempts, hinterrupted, hcompleted,
    true_and, and_true]
  exact hphase

omit [DecidableEq ι] in
private theorem initialize_follows (hnames : (config.webhooks.map WebhookConfig.name).Nodup) (h : Tidy config legacy sys)
    (hw : webhook ∈ config.webhooks) {max_id : Nat} (hp : sys.process = some p) (htask : p.task = .initializing max_id)
    (hguard : guard (sys.lane webhook) max_id) :
    Tidy config legacy (sys.initialise config max_id) ∧
      Follows crates config legacy webhook guard sys (sys.initialise config max_id) := by
  refine ⟨⟨h.order, ?_, fun q hq => ?_⟩, .inr ?_⟩
  · exact (prune_keeps_legacy sys.tables).trans h.legacy
  · obtain rfl := Option.some.inj hq
    exact List.nil_subset _
  · have hphase : (sys.lane webhook).phase = .starting max_id := by
      rw [lane_phase webhook hp, Process.phase, htask]
    have hmem : webhook.name ∈ config.webhooks.map WebhookConfig.name := List.mem_map_of_mem hw
    have hlane : (sys.initialise config max_id).lane webhook = { sys.lane webhook with
        phase := .ready ((sys.lane webhook).stored.getD ((fallback legacy webhook).getD max_id)),
        since := some ((sys.lane webhook).since.getD (sys.lane webhook).log) } := by
      simp only [System.lane, System.initialise, prune_keeps hw, Option.map_some, Option.getD_some, Process.phase,
        Process.cursor, initial_cursors_eq hnames hw, h.legacy, if_pos hmem]
      rfl
    rw [hlane]
    exact .start max_id hphase hguard

omit [DecidableEq ι] in
private theorem poll_follows (hnames : (config.webhooks.map WebhookConfig.name).Nodup) (h : Tidy config legacy sys)
    (hw : webhook ∈ config.webhooks) {w : WebhookConfig} {rest : List WebhookConfig} (hp : sys.process = some p)
    (htask : p.task = .idle (w :: rest)) :
    Tidy config legacy (sys.poll crates config p w rest) ∧
      Follows crates config legacy webhook guard sys (sys.poll crates config p w rest) := by
  have hrest : w ∈ config.webhooks ∧ rest ⊆ config.webhooks := by
    have htidy := h.process p hp
    rw [Process.Tidy, htask] at htidy
    simpa using htidy
  have hphase : (sys.lane webhook).phase = .ready (p.cursor webhook) := by
    rw [lane_phase webhook hp, Process.phase, htask]
  have hsame {task : Task} (hready : Process.phase { p with task } webhook = .ready (p.cursor webhook)) :
      (sys.set_task p task).lane webhook = sys.lane webhook := by
    have hunfold : sys.lane webhook = { sys.lane webhook with phase := .ready (p.cursor webhook) } := by rw [← hphase]
    rw [hunfold]
    simp only [System.lane, System.set_task, Option.map_some, Option.getD_some, hready]
    rfl
  unfold System.poll
  split
  · refine ⟨⟨h.order, h.legacy, fun q hq => ?_⟩, .inl (hsame rfl)⟩
    obtain rfl := Option.some.inj hq
    exact hrest.2
  · refine ⟨⟨h.order, h.legacy, fun q hq => ?_⟩, ?_⟩
    · obtain rfl := Option.some.inj hq
      exact ⟨hrest.1, hrest.2, rfl⟩
    · by_cases hname : w.name = webhook.name
      · obtain rfl := webhook_eq hnames hrest.1 hw hname
        refine .inr ?_
        have hlane : (sys.set_task p (.firing w (p.cursor w)
            (((poll_rows (p.cursor w) config.batch_size sys.audit_events).map (audit_event crates)).getLast?.map
              AuditEvent.id |>.getD (p.cursor w))
            (((poll_rows (p.cursor w) config.batch_size sys.audit_events).map (audit_event crates)).filter w.matches_event)
            [] [] rest)).lane w = { sys.lane w with
              phase := .firing (p.cursor w)
                (polling.last_id AuditEventRow.id (p.cursor w) (batch AuditEventRow.id config.batch_size (p.cursor w) (sys.lane w).log))
                (((batch AuditEventRow.id config.batch_size (p.cursor w) (sys.lane w).log).filter (wanted crates w)).map
                  AuditEventRow.id) [] } := by
          simp only [System.lane, System.set_task, Option.map_some, Option.getD_some, Process.phase, if_true,
            poll_rows_eq h.order.committed_ids, System.audit_events, List.getLast?_map, Option.map_map, List.filter_map,
            List.map_map, polling.last_id, List.map_nil]
          rfl
        exact hlane ▸ .poll (p.cursor w) hphase
      · exact .inl (hsame (by simp [Process.phase, hname]; rfl))

omit [DecidableEq ι] in
private theorem send_follows (h : Tidy config legacy sys) {w : WebhookConfig} {cursor last n : Nat}
    {unsent in_flight sent : List AuditEvent} {rest : List WebhookConfig} {event : AuditEvent}
    (hp : sys.process = some p) (htask : p.task = .firing w cursor last unsent in_flight sent rest) (hn : unsent[n]? = some event)
    (hnext : next = { sys with
      process := some ⟨p.cursors, p.backoff_until,
        .firing w cursor last (unsent.eraseIdx n) (in_flight ++ [event]) (sent ++ [event]) rest⟩
      history := { sys.history with attempts := sys.history.attempts ++ [⟨w.name, event⟩] } }) :
    Tidy config legacy next ∧ Follows crates config legacy webhook guard sys next := by
  have htidy := h.process p hp
  rw [Process.Tidy, htask] at htidy
  refine ⟨⟨by rw [hnext]; exact h.order, by rw [hnext]; exact h.legacy, fun q hq => ?_⟩, ?_⟩
  · rw [hnext] at hq
    obtain rfl := Option.some.inj hq
    exact htidy
  · have hphase := lane_phase webhook hp
    have hone : ids_for webhook ([event].map (Attempt.mk w.name)) = if w.name = webhook.name then [event.id] else [] := ids_for_self
    have hattempts : ids_for webhook (sys.history.attempts ++ [⟨w.name, event⟩]) =
        ids_for webhook sys.history.attempts ++ if w.name = webhook.name then [event.id] else [] := by
      rw [ids_for_append]
      exact congrArg _ hone
    rw [Process.phase, htask] at hphase
    by_cases hname : w.name = webhook.name
    · refine .inr ?_
      rw [if_pos hname] at hattempts
      obtain ⟨hlt, rfl⟩ := List.getElem?_eq_some_iff.mp hn
      have hids : unsent.map AuditEvent.id =
          (unsent.take n).map AuditEvent.id ++ unsent[n].id :: (unsent.drop (n + 1)).map AuditEvent.id := by
        rw [← List.map_cons, ← List.map_append, ← List.drop_eq_getElem_cons hlt, List.take_append_drop]
      simp only [if_pos hname] at hphase
      rw [hids] at hphase
      have hlane : next.lane webhook = { sys.lane webhook with
          phase := .firing cursor last ((unsent.take n).map AuditEvent.id ++ (unsent.drop (n + 1)).map AuditEvent.id)
            (sent.map AuditEvent.id ++ [unsent[n].id])
          attempts := (sys.lane webhook).attempts ++ [unsent[n].id] } := by
        rw [hnext]
        simp only [System.lane, hattempts, Option.map_some, Option.getD_some, Process.phase, if_pos hname,
          List.eraseIdx_eq_take_drop_succ, List.map_append, List.map_cons, List.map_nil]
        rfl
      exact hlane ▸ .send cursor last unsent[n].id _ _ _ hphase
    · refine .inl ?_
      rw [if_neg hname, List.append_nil] at hattempts
      have hsame : (next.lane webhook).phase = (sys.lane webhook).phase := by
        rw [hphase, hnext]
        simp [System.lane, Process.phase, hname, Process.cursor]
      exact lane_eq (by rw [hnext]) (by rw [hnext]) hsame (by rw [hnext]) (by rw [hnext]; exact hattempts) (by rw [hnext])
        (by rw [hnext])

omit [DecidableEq ι] in
private theorem answer_follows (h : Tidy config legacy sys) {w : WebhookConfig} {cursor last n : Nat}
    {unsent in_flight sent : List AuditEvent} {rest : List WebhookConfig} {response : Response}
    (hp : sys.process = some p) (htask : p.task = .firing w cursor last unsent in_flight sent rest)
    {task : Task} (htask' : task = .firing w cursor last unsent (in_flight.eraseIdx n) sent rest)
    (hnext : next = sys.answer ⟨p.cursors, p.backoff_until, task⟩ w response task) :
    Tidy config legacy next ∧ Follows crates config legacy webhook guard sys next := by
  have htidy := h.process p hp
  rw [Process.Tidy, htask] at htidy
  -- The answer changes at most the pause of the webhook.
  obtain ⟨q, hq, hcursors, hqtask⟩ : ∃ q, next.process = some q ∧ q.cursors = p.cursors ∧ q.task = task := by
    rw [hnext, System.answer]
    split
    · exact ⟨_, rfl, rfl, rfl⟩
    · exact ⟨_, rfl, rfl, rfl⟩
  have hworld : next.world = sys.world ∧ next.history = sys.history ∧
      next.tables.webhook_cursor = sys.tables.webhook_cursor := by
    rw [hnext, System.answer]
    split <;> exact ⟨rfl, rfl, rfl⟩
  obtain ⟨hworld, hhistory, hcursor⟩ := hworld
  refine ⟨⟨hworld ▸ h.order, hcursor ▸ h.legacy, fun q' hq' => ?_⟩, .inl ?_⟩
  · obtain rfl := Option.some.inj (hq'.symm.trans hq)
    rw [Process.Tidy, hqtask, htask']
    simpa [Process.cursor, hcursors] using htidy
  · refine lane_eq hworld (by rw [hcursor]) ?_ (by rw [hhistory]) (by rw [hhistory]) (by rw [hhistory]) (by rw [hhistory])
    rw [lane_phase webhook hp, lane_phase webhook hq, Process.phase, Process.phase, hqtask, htask', htask]
    simp only [Process.cursor, hcursors]

omit [DecidableEq ι] in
private theorem completed_of_ne (history : History) {w : WebhookConfig} (hname : w.name ≠ webhook.name) :
    (history.complete w).completed webhook.name = history.completed webhook.name :=
  Function.update_of_ne hname.symm _ _

omit [DecidableEq ι] in
private theorem finish_follows (hnames : (config.webhooks.map WebhookConfig.name).Nodup) (h : Tidy config legacy sys)
    (hw : webhook ∈ config.webhooks) {w : WebhookConfig} {cursor last : Nat} {sent : List AuditEvent}
    {rest : List WebhookConfig} (hp : sys.process = some p) (htask : p.task = .firing w cursor last [] [] sent rest)
    (hnext : next = if last = cursor then
        { sys with process := some ⟨p.cursors, p.backoff_until, .idle rest⟩, history := sys.history.complete w }
      else { sys with process := some ⟨Function.update p.cursors (cursor_key w.name) (some last), p.backoff_until,
        .persisting w last sent rest⟩ }) :
    Tidy config legacy next ∧ Follows crates config legacy webhook guard sys next := by
  have htidy := h.process p hp
  rw [Process.Tidy, htask] at htidy
  obtain ⟨hmem, hrest, hcursor⟩ := htidy
  have hphase := lane_phase webhook hp
  rw [Process.phase, htask] at hphase
  have hkey (hname : w.name ≠ webhook.name) : cursor_key webhook.name ≠ cursor_key w.name := fun heq => hname (cursor_key_inj heq).symm
  split_ifs at hnext with hlast
  · subst hlast
    refine ⟨⟨by rw [hnext]; exact h.order, by rw [hnext]; exact h.legacy, fun q hq => ?_⟩, ?_⟩
    · rw [hnext] at hq
      obtain rfl := Option.some.inj hq
      exact hrest
    · by_cases hname : w.name = webhook.name
      · obtain rfl := webhook_eq hnames hmem hw hname
        simp only [if_true] at hphase
        refine .inr ?_
        have hlane : next.lane w = { sys.lane w with
            phase := .ready last, completed := (sys.lane w).completed + 1 } := by
          rw [hnext]
          simp only [System.lane, Option.map_some, Option.getD_some, Process.phase, History.complete, Function.update_self]
          rw [show Process.cursor ⟨p.cursors, p.backoff_until, .idle rest⟩ w = last from hcursor]
          rfl
        exact hlane ▸ .rest last _ hphase
      · refine .inl (lane_eq (by rw [hnext]) (by rw [hnext]) ?_ (by rw [hnext]; rfl) (by rw [hnext]; rfl) (by rw [hnext]; rfl) ?_)
        · rw [hphase, hnext]
          simp [System.lane, Process.phase, hname, Process.cursor]
        · rw [hnext]
          exact completed_of_ne _ hname
  · refine ⟨⟨by rw [hnext]; exact h.order, by rw [hnext]; exact h.legacy, fun q hq => ?_⟩, ?_⟩
    · rw [hnext] at hq
      obtain rfl := Option.some.inj hq
      exact ⟨hmem, hrest, by simp [Process.cursor]⟩
    · by_cases hname : w.name = webhook.name
      · simp only [if_pos hname] at hphase
        refine .inr ?_
        have hlane : next.lane webhook = { sys.lane webhook with phase := .persisting last (sent.map AuditEvent.id) } := by
          rw [hnext]
          simp only [System.lane, Option.map_some, Option.getD_some, Process.phase, if_pos hname]
          rfl
        exact hlane ▸ .finish cursor last _ hphase hlast
      · refine .inl (lane_eq (by rw [hnext]) (by rw [hnext]) ?_ (by rw [hnext]) (by rw [hnext]) (by rw [hnext]) (by rw [hnext]))
        rw [hphase, hnext]
        simp [System.lane, Process.phase, hname, Process.cursor, Function.update_of_ne (hkey hname)]

omit [DecidableEq ι] in
private theorem persist_follows (hnames : (config.webhooks.map WebhookConfig.name).Nodup) (h : Tidy config legacy sys)
    (hw : webhook ∈ config.webhooks) {w : WebhookConfig} {last : Nat} {sent : List AuditEvent}
    {rest : List WebhookConfig} (hp : sys.process = some p) (htask : p.task = .persisting w last sent rest)
    (hnext : next = { sys with
      tables := sys.tables.persist_cursor (cursor_key w.name) last
      process := some ⟨p.cursors, p.backoff_until, .idle rest⟩
      history := sys.history.complete w }) :
    Tidy config legacy next ∧ Follows crates config legacy webhook guard sys next := by
  have htidy := h.process p hp
  rw [Process.Tidy, htask] at htidy
  obtain ⟨hmem, hrest, hcursor⟩ := htidy
  have hphase := lane_phase webhook hp
  rw [Process.phase, htask] at hphase
  have hkey (hname : w.name ≠ webhook.name) : cursor_key webhook.name ≠ cursor_key w.name := fun heq => hname (cursor_key_inj heq).symm
  refine ⟨⟨by rw [hnext]; exact h.order, ?_, fun q hq => ?_⟩, ?_⟩
  · rw [hnext]
    exact (persist_cursor_of_ne _ (cursor_key_ne_legacy w.name).symm _).trans h.legacy
  · rw [hnext] at hq
    obtain rfl := Option.some.inj hq
    exact hrest
  · by_cases hname : w.name = webhook.name
    · obtain rfl := webhook_eq hnames hmem hw hname
      simp only [if_true] at hphase
      refine .inr ?_
      have hlane : next.lane w = { sys.lane w with
          phase := .ready last, stored := some last, completed := (sys.lane w).completed + 1 } := by
        rw [hnext]
        simp only [System.lane, Option.map_some, Option.getD_some, Process.phase, History.complete, Function.update_self,
          persist_cursor_self]
        rw [show Process.cursor ⟨p.cursors, p.backoff_until, .idle rest⟩ w = last from hcursor]
        rfl
      exact hlane ▸ .persist last _ hphase
    · refine .inl (lane_eq (by rw [hnext]) ?_ ?_ (by rw [hnext]; rfl) (by rw [hnext]; rfl) (by rw [hnext]; rfl) ?_)
      · rw [hnext]
        exact persist_cursor_of_ne _ (hkey hname) _
      · rw [hphase, hnext]
        simp [System.lane, Process.phase, hname, Process.cursor]
      · rw [hnext]
        exact completed_of_ne _ hname

/-- What a webhook sees of a step of the system. -/
theorem step_follows (guard : Lane AuditEventRow → Nat → Prop) (hnames : (config.webhooks.map WebhookConfig.name).Nodup)
    (h : Tidy config legacy sys) (hw : webhook ∈ config.webhooks) {event : Event ι} (hstep : sys.step crates config event = some next)
    (hguard : ∀ p max_id, event = .initialise → sys.process = some p → p.task = .initializing max_id →
      guard (sys.lane webhook) max_id) :
    Tidy config legacy next ∧ Follows crates config legacy webhook guard sys next := by
  cases event with
  | client action =>
    obtain ⟨world, hworld, rfl⟩ := Option.map_eq_some_iff.mp hstep
    obtain ⟨horder, hgrow⟩ := grow_of_client h webhook hworld
    exact ⟨⟨horder, h.legacy, h.process⟩, .inr hgrow⟩
  | pass clock =>
    simp only [System.step, Option.ite_none_right_eq_some, Option.some.injEq] at hstep
    obtain ⟨-, rfl⟩ := hstep
    exact ⟨⟨h.order, h.legacy, h.process⟩, .inl rfl⟩
  | crash =>
    obtain ⟨p, hp, rfl⟩ := Option.map_eq_some_iff.mp hstep
    refine ⟨⟨h.order, h.legacy, by simp⟩, .inr ?_⟩
    have hlane : System.lane { sys with
          process := none, history := { sys.history with interrupted := sys.history.interrupted ++ p.interrupts } } webhook =
        { sys.lane webhook with
          phase := .down, interrupted := (sys.lane webhook).interrupted ++ (sys.lane webhook).phase.sent } := by
      rw [lane_phase webhook hp, ← ids_for_interrupts]
      simp only [System.lane, ids_for_append]
      rfl
    exact hlane ▸ .crash
  | boot =>
    simp only [System.step] at hstep
    split_ifs at hstep with hdown
    obtain rfl := Option.some.inj hstep
    refine ⟨⟨h.order, h.legacy, fun p hp => Option.some.inj hp ▸ trivial⟩, .inr (.boot ?_)⟩
    have hnone : sys.process = none := by simpa using hdown
    simp [System.lane, hnone]
  | initialise =>
    simp only [System.step] at hstep
    split at hstep
    case h_1 max_id hp =>
      obtain rfl := Option.some.inj hstep
      exact initialize_follows hnames h hw hp rfl (hguard _ _ rfl hp rfl)
    case h_2 => cases hstep
  | tick_once =>
    simp only [System.step] at hstep
    split at hstep
    case h_1 cursors backoff_until hp =>
      obtain rfl := Option.some.inj hstep
      refine ⟨⟨h.order, h.legacy, fun p hp => Option.some.inj hp ▸ List.Subset.refl _⟩, .inl ?_⟩
      refine lane_eq rfl rfl ?_ rfl rfl rfl rfl
      rw [lane_phase webhook hp]
      rfl
    case h_2 => cases hstep
  | poll =>
    simp only [System.step] at hstep
    split at hstep
    case h_1 hp =>
      obtain rfl := Option.some.inj hstep
      exact poll_follows hnames h hw hp rfl
    case h_2 => cases hstep
  | send n =>
    simp only [System.step] at hstep
    split at hstep
    case h_1 hp =>
      obtain ⟨event, hn, rfl⟩ := Option.map_eq_some_iff.mp hstep
      exact send_follows h hp rfl hn rfl
    case h_2 => cases hstep
  | answer n response =>
    simp only [System.step] at hstep
    split at hstep
    case h_1 hp =>
      split_ifs at hstep with hn
      exact answer_follows h hp rfl rfl (Option.some.inj hstep).symm
    case h_2 => cases hstep
  | finish =>
    simp only [System.step] at hstep
    split at hstep
    case h_1 hp =>
      rw [← apply_ite some] at hstep
      exact finish_follows hnames h hw hp rfl (Option.some.inj hstep).symm
    case h_2 => cases hstep
  | persist =>
    simp only [System.step] at hstep
    split at hstep
    case h_1 hp => exact persist_follows hnames h hw hp rfl (Option.some.inj hstep).symm
    case h_2 => cases hstep

end Steps

section Delivery

variable [DecidableEq ι] {sys later : System ι α} {legacy : Option Nat} {webhook : WebhookConfig}

/-- The cursor in memory, once the webhooks are initialised. -/
def System.memory (sys : System ι α) (webhook : WebhookConfig) : Option Nat :=
  match sys.process with
  | some p =>
    match p.task with
    | .initializing _ => none
    | _ => some (p.cursor webhook)
  | none => none

/-- What holds between a state and every later one: a row that is due is
attempted as ticks complete, every attempt but one was interrupted by a crash,
no cursor decreases, and none has passed a row that becomes visible. -/
structure Delivers (crates : Crates) (config : WebhooksConfig) (sys later : System ι α) : Prop where
  attempted : ∀ w ∈ config.webhooks, ∀ row, Due crates sys w row →
    sys.history.completed w.name + (sys.audit_events.filter fun r => r.id ≤ row.id).length + 1 ≤
      later.history.completed w.name → Attempted later w row
  once : ∀ w ∈ config.webhooks, ∀ id,
    later.history.attempts.countP (Attempt.Is w id) ≤ later.history.interrupted.countP (Attempt.Is w id) + 1
  stored_mono : ∀ w ∈ config.webhooks, ∀ c, sys.tables.webhook_cursor (cursor_key w.name) = some c →
    ∃ c', later.tables.webhook_cursor (cursor_key w.name) = some c' ∧ c ≤ c'
  memory_mono : ∀ w ∈ config.webhooks, ∀ event next, later.step crates config event = some next →
    ∀ c c', later.memory w = some c → next.memory w = some c' → c ≤ c'
  not_passed : ∀ w ∈ config.webhooks, ∀ c, sys.tables.webhook_cursor (cursor_key w.name) = some c ∨ sys.memory w = some c →
    ∀ row ∈ later.audit_events, row ∉ sys.audit_events → c < row.id

omit [DecidableEq ι] in
private theorem countP_is (attempts : List Attempt) (id : Nat) :
    attempts.countP (Attempt.Is webhook id) = (ids_for webhook attempts).count id := by
  unfold ids_for
  rw [List.count, List.countP_map, List.countP_filter]
  refine List.countP_congr fun a _ => ?_
  simp [Attempt.Is, and_comm]

omit [DecidableEq ι] in
private theorem attempted_iff {row : AuditEventRow} :
    Attempted sys webhook row ↔ row.id ∈ (sys.lane webhook).attempts := by
  constructor
  · intro h
    obtain ⟨a, ha, hreceiver, hid⟩ := h
    exact hid ▸ mem_ids_for ha hreceiver
  · intro h
    obtain ⟨a, ha, hid⟩ := List.mem_map.mp h
    obtain ⟨ha, hreceiver⟩ := List.mem_filter.mp ha
    exact ⟨a, ha, by simpa using hreceiver, hid⟩

omit [DecidableEq ι] in
private theorem memory_eq (h : Tidy config legacy sys) (hnames : (config.webhooks.map WebhookConfig.name).Nodup)
    (hw : webhook ∈ config.webhooks) : sys.memory webhook = (sys.lane webhook).phase.cursor := by
  cases hp : sys.process with
  | none => simp [System.memory, System.lane, hp, Phase.cursor]
  | some p =>
    have htidy := h.process p hp
    obtain ⟨cursors, backoff_until, task⟩ := p
    rw [lane_phase webhook hp]
    cases task with
    | initializing max_id | idle rest => simp [System.memory, hp, Process.phase, Phase.cursor]
    | firing w cursor last unsent in_flight sent rest | persisting w last sent rest =>
      by_cases hname : w.name = webhook.name
      · obtain rfl := webhook_eq hnames htidy.1 hw hname
        have hcursor := htidy.2.2
        simp [System.memory, hp, Process.phase, Phase.cursor, hcursor]
      · simp [System.memory, hp, Process.phase, Phase.cursor, hname]

/-- All that is known of a reachable state and a webhook. -/
structure Kept (crates : Crates) (config : WebhooksConfig) (legacy : Option Nat) (webhook : WebhookConfig)
    (sys : System ι α) : Prop where
  tidy : Tidy config legacy sys
  covering : Covering AuditEventRow.id (wanted crates webhook) (fallback legacy webhook) (sys.lane webhook)
  sparing : Sparing AuditEventRow.id (fallback legacy webhook) (sys.lane webhook)
  reading : Reading AuditEventRow.id (fallback legacy webhook) (sys.lane webhook)

omit [DecidableEq ι] in
/-- The condition on the restart of a system is the one on the restart of its webhooks. -/
private theorem keeps_place (h : Tidy config legacy sys) {event : Event ι} (hkeeps : keeps_its_place crates config sys event)
    (hw : webhook ∈ config.webhooks) (p : Process) (max_id : Nat) (hevent : event = .initialise) (hp : sys.process = some p)
    (htask : p.task = .initializing max_id) :
    Lane.KeepsPlace AuditEventRow.id (wanted crates webhook) (fallback legacy webhook) (sys.lane webhook) max_id := by
  intro hstored hbase row hdue hle
  obtain ⟨hlegacy, hbackfill⟩ := Option.or_eq_none_iff.mp hbase
  have hnone : webhook.backfill = false := by
    cases hb : webhook.backfill with
    | false => rfl
    | true => simp [hb] at hbackfill
  exact attempted_iff.mp (hkeeps hevent p max_id hp htask webhook hw hstored (h.legacy.trans hlegacy) hnone row hdue hle)

private theorem Kept.step (hnames : (config.webhooks.map WebhookConfig.name).Nodup) (hw : webhook ∈ config.webhooks)
    (h : Kept crates config legacy webhook sys) {event : Event ι} (hkeeps : keeps_its_place crates config sys event)
    (hstep : sys.step crates config event = some later) : Kept crates config legacy webhook later ∧
      Follows crates config legacy webhook (Lane.KeepsPlace AuditEventRow.id (wanted crates webhook) (fallback legacy webhook))
        sys later := by
  obtain ⟨htidy, hfollows⟩ := step_follows _ hnames h.tidy hw hstep (keeps_place h.tidy hkeeps hw)
  refine ⟨?_, hfollows⟩
  cases hfollows with
  | inl hsame => exact ⟨htidy, hsame ▸ h.covering, hsame ▸ h.sparing, hsame ▸ h.reading⟩
  | inr hstep => exact ⟨htidy, h.covering.step hstep, h.sparing.step hstep, h.reading.step hstep⟩

/-- The store and the tables that a dispatcher may start from. -/
structure Startable (db : Store) (tables : WebhookTables) : Prop where
  tip : ∃ tip, db.rows .audit_chain_tip = [tip] ∧ is_tip tip = true
  ids : (db.rows .audit_events).Pairwise fun a b => a.id < b.id
  below : ∀ row ∈ db.rows .audit_events, row.id < db.seq .audit_events
  positive : 0 < db.seq .audit_events
  cursors : ∀ key c, tables.webhook_cursor key = some c → c < db.seq .audit_events

omit [DecidableEq ι] in
private theorem kept_start (crates : Crates) (config : WebhooksConfig) {db : Store} {tables : WebhookTables}
    (hdb : Startable db tables) {progs : ι → Tx α} (hprogs : ∀ i, UnderTip false (progs i)) (clock : Clock) (webhook : WebhookConfig) :
    Kept crates config (tables.webhook_cursor legacy_key) webhook (System.start (World.start db progs) tables clock) := by
  have horder := in_order_start hprogs hdb.tip hdb.ids hdb.below
  have hordered : Ordered AuditEventRow.id (fallback (tables.webhook_cursor legacy_key) webhook)
      ((System.start (World.start db progs) tables clock).lane webhook) := by
    have hfloor : frontier (World.start db progs) = db.seq .audit_events := frontier_start
    refine ⟨horder.committed_ids, fun r hr => horder.committed_lt_frontier hr, ?_, fun b hb => ?_,
      fun c hc => ?_, by simp [System.lane, System.start], by simp [System.lane, System.start],
      by simp [System.lane, System.start, Phase.cursor]⟩
    · change 0 < frontier (World.start db progs)
      exact hfloor ▸ hdb.positive
    · change b < frontier (World.start db progs)
      rw [hfloor]
      cases Option.or_eq_some_iff.mp hb with
      | inl hlegacy => exact hdb.cursors _ _ hlegacy
      | inr hbackfill =>
        have hzero : b = 0 := by
          cases hwb : webhook.backfill <;> simp [hwb] at hbackfill
          exact hbackfill.2.symm
        exact hzero ▸ hdb.positive
    · change c < frontier (World.start db progs)
      rw [hfloor]
      cases hc with
      | inl hc => exact hdb.cursors _ _ hc
      | inr hc => cases hc
  have hdue (row : AuditEventRow) : ¬ Lane.Due (wanted crates webhook)
      ((System.start (World.start db progs) tables clock).lane webhook) row := by
    intro hdue
    obtain ⟨-, -, old, hold, -⟩ := hdue
    cases hold
  refine ⟨⟨horder, rfl, by simp [System.start]⟩, ?_, ?_, ?_⟩
  · refine ⟨hordered, by simp [System.lane, System.start], fun b _ row hrow => absurd hrow (hdue row),
      fun c _ row hrow => absurd hrow (hdue row), by simp [System.lane, System.start]⟩
  · refine ⟨hordered, fun n => ?_, fun n _ => ?_, by simp [System.lane, System.start], by simp [System.lane, System.start]⟩
    · exact Nat.zero_le _
    · exact Nat.zero_le _
  · exact ⟨hordered, by simp [System.lane, System.start], by simp [System.lane, System.start]⟩

private theorem Kept.run (hnames : (config.webhooks.map WebhookConfig.name).Nodup) (hw : webhook ∈ config.webhooks)
    (h : Kept crates config legacy webhook sys)
    (hrun : Run (System.step crates config) (keeps_its_place crates config) sys later) : Kept crates config legacy webhook later :=
  hrun.invariant h fun _ _ _ hkept hkeeps hstep => (hkept.step hnames hw hkeeps hstep).1

private theorem not_passed_of_run (hnames : (config.webhooks.map WebhookConfig.name).Nodup) (hw : webhook ∈ config.webhooks)
    (h : Kept crates config legacy webhook sys) {c : Nat} (hc : (sys.lane webhook).Cursor c)
    (hrun : Run (System.step crates config) (keeps_its_place crates config) sys later) :
    c < (later.lane webhook).floor ∧ ∀ row ∈ later.audit_events, row ∉ sys.audit_events → c < row.id := by
  induction hrun with
  | start => exact ⟨h.sparing.ordered.cursor_below c hc, fun row hrow hnew => absurd hrow hnew⟩
  | @step t u event hrun hkeeps hstep ih =>
    obtain ⟨hfloor, hpassed⟩ := ih
    have hkept := h.run hnames hw hrun
    cases (hkept.step hnames hw hkeeps hstep).2 with
    | inl hsame =>
      have hlog : u.audit_events = t.audit_events := congrArg Lane.log hsame
      rw [hsame, hlog]
      exact ⟨hfloor, hpassed⟩
    | inr hlane =>
      refine ⟨Nat.lt_of_lt_of_le hfloor (floor_mono hlane), fun row hrow hnew => ?_⟩
      by_cases hold : row ∈ t.audit_events
      · exact hpassed row hold hnew
      · exact Nat.lt_of_lt_of_le hfloor (floor_le_of_new hlane hrow hold)

private theorem stored_mono_of_run (hnames : (config.webhooks.map WebhookConfig.name).Nodup) (hw : webhook ∈ config.webhooks)
    (h : Kept crates config legacy webhook sys) {c : Nat} (hc : (sys.lane webhook).stored = some c)
    (hrun : Run (System.step crates config) (keeps_its_place crates config) sys later) :
    ∃ c', (later.lane webhook).stored = some c' ∧ c ≤ c' := by
  induction hrun with
  | start => exact ⟨c, hc, Nat.le_refl _⟩
  | step hrun hkeeps hstep ih =>
    obtain ⟨c', hc', hle⟩ := ih
    have hkept := h.run hnames hw hrun
    cases (hkept.step hnames hw hkeeps hstep).2 with
    | inl hsame => exact ⟨c', hsame ▸ hc', hle⟩
    | inr hlane =>
      obtain ⟨c'', hc'', hle'⟩ := hkept.sparing.ordered.stored_mono hlane hc'
      exact ⟨c'', hc'', Nat.le_trans hle hle'⟩

private theorem advancing_of_run (hnames : (config.webhooks.map WebhookConfig.name).Nodup) (hw : webhook ∈ config.webhooks)
    (h : Kept crates config legacy webhook sys) {row : AuditEventRow} (hdue : Due crates sys webhook row)
    (hrun : Run (System.step crates config) (keeps_its_place crates config) sys later) :
    Advancing AuditEventRow.id (wanted crates webhook) (fallback legacy webhook) row
      ((sys.lane webhook).rank AuditEventRow.id row.id) (sys.lane webhook).completed (later.lane webhook) := by
  induction hrun with
  | start => exact .of_due h.covering h.reading hdue
  | step hrun hkeeps hstep ih =>
    have hkept := h.run hnames hw hrun
    cases (hkept.step hnames hw hkeeps hstep).2 with
    | inl hsame => exact hsame ▸ ih
    | inr hlane => exact ih.step (batch_size_pos config) hlane

/-- For any clients that take their audit ids under the tip, any answers and
any crashes: the webhooks are delivered to, as long as none of them is
initialised again without a stored cursor while rows are due to it. -/
theorem webhooks_deliver {db : Store} {tables : WebhookTables} {clock : Clock} {progs : ι → Tx α}
    (hnames : (config.webhooks.map WebhookConfig.name).Nodup) (hdb : Startable db tables)
    (hprogs : ∀ i, UnderTip false (progs i))
    (hrun : Run (System.step crates config) (keeps_its_place crates config)
      (System.start (World.start db progs) tables clock) sys)
    (hlater : Run (System.step crates config) (keeps_its_place crates config) sys later) :
    Delivers crates config sys later := by
  have hkept (w : WebhookConfig) (hw : w ∈ config.webhooks) := (kept_start crates config hdb hprogs clock w).run hnames hw hrun
  refine ⟨fun w hw row hdue hcompleted => ?_, fun w hw id => ?_, fun w hw c hc => ?_,
    fun w hw event next hstep c c' hc hc' => ?_, fun w hw c hc row hrow hnew => ?_⟩
  · exact attempted_iff.mpr ((advancing_of_run hnames hw (hkept w hw) hdue hlater).sent hcompleted)
  · rw [countP_is, countP_is]
    exact ((hkept w hw).run hnames hw hlater).sparing.once id
  · exact stored_mono_of_run hnames hw (hkept w hw) hc hlater
  · have hnow := (hkept w hw).run hnames hw hlater
    obtain ⟨htidy, hfollows⟩ := step_follows (fun _ _ => True) hnames hnow.tidy hw hstep fun _ _ _ _ _ => trivial
    rw [memory_eq hnow.tidy hnames hw] at hc
    rw [memory_eq htidy hnames hw] at hc'
    cases hfollows with
    | inl hsame => exact Nat.le_of_eq (Option.some.inj (hc.symm.trans (hsame ▸ hc')))
    | inr hlane => exact hnow.sparing.ordered.cursor_mono hlane hc hc'
  · refine (not_passed_of_run hnames hw (hkept w hw) (hc.imp_right fun hm => ?_) hlater).2 row hrow hnew
    rw [← memory_eq (hkept w hw).tidy hnames hw]
    exact hm

end Delivery

section Samples

def sample_crates : Crates := .on [.null]

/-- One webhook that wants errors. -/
def pager : WebhookConfig := { name := "pager", min_severity := "error" }

def sample_config : WebhooksConfig := { webhooks := [pager] }

def sample_record : AuditRecord := { actor := "user:alice", kind := "operation.rejected", severity := "error" }

/-- A dispatcher that has never run, beside a client that is about to record an error. -/
def sample_start : System Unit Unit :=
  System.start (World.start migrated fun _ => record_audit_on sample_crates "2026-05-01T00:00:00Z" sample_record)
    ⟨fun _ => none, fun _ => none⟩ ⟨0, 0⟩

/-- The webhook is initialised for the first time, and then the error is recorded. -/
def first_events : List (Event Unit) :=
  [.boot, .initialise] ++ List.replicate 6 (.client (.advance ()))

/-- Steps at which no webhook is initialised again. -/
def initialises_once (sys : System Unit Unit) : Event Unit → Bool
  | .initialise => (sys.history.initialized pager.name).isNone
  | _ => true

private theorem keeps_of_initialises_once (sys : System Unit Unit) (event : Event Unit) (h : initialises_once sys event = true) :
    keeps_its_place sample_crates sample_config sys event := by
  rintro rfl p max_id hp htask w hw hstored hlegacy hbackfill row hdue hle
  obtain rfl : w = pager := List.mem_singleton.mp hw
  obtain ⟨-, -, old, hold, -⟩ := hdue
  simp [initialises_once, hold] at h

theorem migrated_is_startable : Startable migrated ⟨fun _ => none, fun _ => none⟩ where
  tip := ⟨_, rfl, rfl⟩
  ids := .nil
  below := fun row hrow => by cases hrow
  positive := Nat.one_pos
  cursors := fun _ _ hc => by cases hc

theorem tick_delivers : ∃ later : System Unit Unit,
    (later.history.attempts.map fun a => a.event.id) = [1] ∧ Delivers sample_crates sample_config sample_start later := by
  have hreached : (follow (System.step sample_crates sample_config) initialises_once sample_start
      (first_events ++ [.tick_once, .poll, .send 0, .answer 0 .success, .finish, .persist])).any
        (fun sys => (sys.history.attempts.map fun a => a.event.id) == [1]) = true := by
    decide
  obtain ⟨later, hrun, hattempts⟩ := run_of_follow keeps_of_initialises_once hreached
  refine ⟨later, by simpa using hattempts, ?_⟩
  exact webhooks_deliver (by decide) migrated_is_startable (fun _ => record_audit_under_tip _ _ _ _) .start hrun

private theorem sample_follows {sys next : System Unit Unit} {event : Event Unit} (htidy : Tidy sample_config none sys)
    (hstep : sys.step sample_crates sample_config event = some next) : Tidy sample_config none next ∧
      Follows sample_crates sample_config none pager (fun _ _ => True) sys next :=
  step_follows _ (by decide) htidy (List.mem_singleton_self pager) hstep fun _ _ _ _ _ => trivial

private theorem sample_tidy {sys : System Unit Unit}
    (hrun : Run (System.step sample_crates sample_config) (fun _ _ => True) sample_start sys) : Tidy sample_config none sys :=
  have hstart := (kept_start sample_crates sample_config migrated_is_startable
    (fun _ => record_audit_under_tip _ _ _ _) ⟨0, 0⟩ pager).tidy
  hrun.invariant hstart fun _ _ _ htidy _ hstep => (sample_follows htidy hstep).1

/-- A row that no cursor is before will never be sent. -/
private theorem never_attempted {sys later : System Unit Unit} {row : AuditEventRow} (htidy : Tidy sample_config none sys)
    (hlost : Lost AuditEventRow.id row (sys.lane pager))
    (hrun : Run (System.step sample_crates sample_config) (fun _ _ => True) sys later) : ¬ Attempted later pager row := by
  suffices h : Tidy sample_config none later ∧ Lost AuditEventRow.id row (later.lane pager) from
    fun hattempted => h.2.unsent (attempted_iff.mp hattempted)
  induction hrun with
  | start => exact ⟨htidy, hlost⟩
  | step hrun _ hstep ih =>
    obtain ⟨htidy, hlost⟩ := ih
    obtain ⟨htidy, hfollows⟩ := sample_follows htidy hstep
    refine ⟨htidy, ?_⟩
    cases hfollows with
    | inl hsame => exact hsame ▸ hlost
    | inr hlane => exact hlost.step rfl hlane

/-- The dispatcher is initialised again before a tick of the webhook stored a
cursor, and goes to the end of the log. -/
def passes_over (sys : System Unit Unit) : Bool :=
  (sys.audit_events.map AuditEventRow.id == [1]) && sys.audit_events.all (wanted sample_crates pager) &&
    sys.history.attempts.isEmpty && (sys.history.initialized pager.name).any List.isEmpty &&
    (sys.tables.webhook_cursor (cursor_key pager.name)).isNone &&
    match sys.process with
    | some ⟨cursors, _, .idle []⟩ => cursors (cursor_key pager.name) == some 1
    | _ => false

private theorem lost_of_passes_over {sys : System Unit Unit} (h : passes_over sys = true) :
    ∃ row, Due sample_crates sys pager row ∧ Lost AuditEventRow.id row (sys.lane pager) := by
  simp only [passes_over, Bool.and_eq_true, beq_iff_eq, List.isEmpty_iff, Option.isNone_iff_eq_none, List.all_eq_true] at h
  obtain ⟨⟨⟨⟨⟨hids, hwanted⟩, hattempts⟩, hsince⟩, hstored⟩, hprocess⟩ := h
  obtain ⟨row, hrows, hid⟩ := List.map_eq_singleton_iff.mp hids
  obtain ⟨old, hold, hempty⟩ := (Option.any_eq_true _ _).mp hsince
  have hmem : row ∈ sys.audit_events := by simp [hrows]
  have hphase : (sys.lane pager).phase = .ready 1 := by
    split at hprocess
    case h_1 cursors backoff_until hp =>
      rw [lane_phase pager hp]
      simp [Process.phase, Process.cursor, beq_iff_eq.mp hprocess]
    case h_2 => cases hprocess
  refine ⟨row, ⟨hmem, hwanted row hmem, old, hold, by simp [List.isEmpty_iff.mp hempty]⟩, hmem, ?_, fun c hc => ?_, ?_, ?_⟩
  · simp [System.lane, hattempts, ids_for]
  · cases hc with
    | inl hc => cases hstored.symm.trans hc
    | inr hc =>
      rw [hphase] at hc
      exact Nat.le_of_eq (hid.trans (Option.some.inj hc))
  · simp [hphase]
  · simp [hphase]

/-- A row that was committed after the webhook was initialised for the first
time is never sent to it. -/
theorem restart_loses_row : ∃ sys : System Unit Unit,
    Run (System.step sample_crates sample_config) (fun _ _ => True) sample_start sys ∧
      ∃ row, Due sample_crates sys pager row ∧ ∀ later,
        Run (System.step sample_crates sample_config) (fun _ _ => True) sys later → ¬ Attempted later pager row := by
  have hreached : (follow (System.step sample_crates sample_config) (fun _ _ => true) sample_start
      (first_events ++ [.crash, .boot, .initialise])).any passes_over = true := by
    decide
  obtain ⟨sys, hrun, hpasses⟩ := run_of_follow (fun _ _ _ => trivial) hreached
  obtain ⟨row, hdue, hlost⟩ := lost_of_passes_over hpasses
  exact ⟨sys, hrun, row, hdue, fun later hlater => never_attempted (sample_tidy hrun) hlost hlater⟩

end Samples

end iac_controlplane.webhook
