import Iac.Controlplane.Identity
import Iac.Controlplane.Store.Agents
import Iac.Controlplane.Store.ApproveOperation
import Iac.Controlplane.Store.Drift.Reconcile

open iac_controlplane.identity iac_controlplane.store iac_core sql

namespace iac_controlplane.api

/-- A push of an agent, with the verdict of the rate limiter and the times that the handler reads. -/
structure DriftPush where
  agent_id : String
  token : String
  items : List iac_agent.DriftItem
  limited : Except ApiError Unit
  now : jiff.Timestamp
  recorded_at : jiff.Timestamp
  closed_at : jiff.Timestamp

def cross_env_drift (item : iac_agent.DriftItem) (environment : String) : ApiError :=
  .BadRequest ("drift resource_id env " ++ str.debug item.resource_id.environment ++ " does not match agent env " ++
    str.debug environment ++ "; refusing cross-env drift report")

def check_drift_env (environment : String) (items : List iac_agent.DriftItem) : Except ApiError Unit :=
  match items.find? fun item => item.resource_id.environment != environment with
  | some item => .error (cross_env_drift item environment)
  | none => .ok ()

/-- The two steps of a push, each a transaction of its own. -/
def reconcile (crates : Crates) (req : DriftPush) (db : DriftStore) : Except ApiError Nat × DriftStore :=
  match (record_drift crates req.agent_id req.items req.recorded_at).exec db with
  | (.error e, db) => (.error e, db)
  | (.ok n, db) =>
    let current := req.items.map fun item => item.resource_id.to_string
    match (close_drift_not_in req.agent_id current req.closed_at).exec db with
    | (.error e, db) => (.error e, db)
    | (.ok _, db) => (.ok n, db)

def drift (crates : Crates) (parse : String → Option jiff.Timestamp) (req : DriftPush) (db : DriftStore) :
    Except ApiError Nat × DriftStore :=
  match ((in_store (authenticate crates parse req.now req.agent_id req.token)).exec db).1 with
  | .error e => (.error e, db)
  | .ok record =>
    match req.limited with
    | .error e => (.error e, db)
    | .ok () =>
      match check_drift_env record.environment req.items with
      | .error e => (.error e, db)
      | .ok () => reconcile crates req db

def accept_drift (crates : Crates) (identity : Identity) (drift_id : Int) (reason : String) (now audit_now : jiff.Timestamp) :
    DriftTx Unit := do
  let identity ← Prog.ofExcept (require_role identity .Operator)
  if reason.toList.all str.is_whitespace then
    Prog.throw (.BadRequest "reason must not be empty")
  else
    store.accept_drift crates drift_id identity.audit_actor reason now audit_now

def ignore_drift (crates : Crates) (parse : String → Except String jiff.Timestamp) (identity : Identity) (drift_id : Int)
    (until_text : String) (audit_now : jiff.Timestamp) : DriftTx Unit := do
  let identity ← Prog.ofExcept (require_role identity .Operator)
  store.ignore_drift crates parse drift_id identity.audit_actor until_text audit_now

def accept_drift_bulk (crates : Crates) (identity : Identity) (filter : DriftBulkFilter) (reason : String)
    (now audit_now : jiff.Timestamp) : DriftTx Nat := do
  let identity ← Prog.ofExcept (require_role identity .Operator)
  if reason.toList.all str.is_whitespace then
    Prog.throw (.BadRequest "reason must not be empty")
  else if filter.is_empty then
    Prog.throw (.BadRequest
      "filter must specify at least one of agent_id, kind, or severity (refusing to wipe entire drift history)")
  else
    store.accept_drift_bulk crates filter identity.audit_actor reason now audit_now

/-- `parsed` is the time that the TTL stands for now, or why it stands for none. -/
def ignore_drift_bulk (crates : Crates) (parse : String → Except String jiff.Timestamp) (identity : Identity)
    (filter : DriftBulkFilter) (ttl : String) (parsed : Except String String) (audit_now : jiff.Timestamp) :
    DriftTx Nat := do
  let identity ← Prog.ofExcept (require_role identity .Operator)
  if filter.is_empty then
    Prog.throw (.BadRequest "filter must specify at least one of agent_id, kind, or severity")
  else
    match parsed with
    | .error e => Prog.throw (.BadRequest ("invalid ttl " ++ str.debug ttl ++ ": " ++ e))
    | .ok until_text => store.ignore_drift_bulk crates parse filter identity.audit_actor until_text audit_now

end iac_controlplane.api

namespace iac_controlplane.store

/-- The migrated store, without drift events. -/
def drift_migrated : DriftStore where
  rows
    | .drift_events => []
    | .of_store t => migrated.rows t
  seq
    | .drift_events => 1
    | .of_store t => migrated.seq t

end iac_controlplane.store

namespace iac_controlplane.api

/-- The functions outside the repository that the requests call. -/
structure DriftCrates extends Crates where
  parse : String → Option jiff.Timestamp
  parse_until : String → Except String jiff.Timestamp

/-- One request of a serial run, or a transaction on the other tables. -/
inductive DriftStep (crates : DriftCrates) (db : DriftStore) : DriftStore → Prop
  | push (req : DriftPush) : DriftStep crates db (drift crates.toCrates crates.parse req db).2
  | accept (identity : Identity) (drift_id : Int) (reason : String) (now audit_now : jiff.Timestamp) :
      DriftStep crates db ((accept_drift crates.toCrates identity drift_id reason now audit_now).exec db).2
  | ignore (identity : Identity) (drift_id : Int) (until_text : String) (audit_now : jiff.Timestamp) :
      DriftStep crates db ((ignore_drift crates.toCrates crates.parse_until identity drift_id until_text audit_now).exec db).2
  | accept_bulk (identity : Identity) (filter : DriftBulkFilter) (reason : String) (now audit_now : jiff.Timestamp) :
      DriftStep crates db ((accept_drift_bulk crates.toCrates identity filter reason now audit_now).exec db).2
  | ignore_bulk (identity : Identity) (filter : DriftBulkFilter) (ttl : String) (parsed : Except String String)
      (audit_now : jiff.Timestamp) :
      DriftStep crates db
        ((ignore_drift_bulk crates.toCrates crates.parse_until identity filter ttl parsed audit_now).exec db).2
  | of_store {α : Type} (p : Tx α) : DriftStep crates db ((in_store p).exec db).2

/-- A state of a serial run from the migrated store. -/
abbrev DriftReachable (crates : DriftCrates) (db : DriftStore) : Prop :=
  Relation.ReflTransGen (DriftStep crates) drift_migrated db

section Steps

variable {crates : DriftCrates} {db : DriftStore}

/-- The drift events are tracked. -/
def Tracks (db : DriftStore) : Prop := DriftTracked (db.seq .drift_events) (db.rows .drift_events)

private theorem in_store_leaves {α : Type} (p : Tx α) : (in_store p).leaves .drift_events :=
  @leaves_along Table DriftTable DriftTable.Row ApiError α .of_store .drift_events (by simp) p

private theorem Tracks.of_rows {after : DriftStore} (h : Tracks db)
    (hrows : after.rows .drift_events = db.rows .drift_events) (hseq : db.seq .drift_events ≤ after.seq .drift_events) :
    Tracks after := by
  rw [Tracks, hrows]
  exact h.mono hseq

/-- A transaction is rolled back unless it leaves the drift events tracked. -/
private theorem tracks_exec {α : Type} {p : DriftTx α} (h : Tracks db) (hrun : Tracks (p.run db).2) :
    Tracks (p.exec db).2 := by
  obtain ⟨e, -, hrows⟩ | ⟨a, after, hok, hexec⟩ := exec_cases p db
  · exact h.of_rows (congrFun hrows _) (seq_le_exec p db _)
  · rw [hexec]
    rwa [hok] at hrun

private theorem tracks_leaves {α : Type} {p : DriftTx α} (h : Tracks db) (hleaves : p.leaves .drift_events) :
    Tracks (p.run db).2 :=
  h.of_rows (rows_of_leaves hleaves db) (seq_le_run p db _)

private theorem tracks_update {α : Type} {which : DriftEventRow → Bool} {change : DriftEventRow → DriftEventRow}
    {next : List DriftEventRow → DriftTx α} (h : Tracks db) (hid : ∀ row, (change row).id = row.id)
    (hkey : ∀ row, (change row).key = row.key) (hopen : ∀ row, (change row).unresolved = true → row.unresolved = true)
    (hnext : ∀ out, (next out).leaves .drift_events) :
    Tracks ((do let out ← drift_update which change; next out).run db).2 := by
  rw [run_bind_ok (run_update_where _ _ _ _)]
  refine tracks_leaves ?_ (hnext _)
  rw [Tracks, Db.set_rows_self]
  exact h.change hid hkey hopen

private theorem tracks_throw {α : Type} (h : Tracks db) (e : ApiError) : Tracks ((Prog.throw e : DriftTx α).run db).2 := h

/-- A decision keeps the columns under the constraint and opens nothing. -/
structure Decides (change : DriftEventRow → DriftEventRow) : Prop where
  id : ∀ row, (change row).id = row.id
  key : ∀ row, (change row).key = row.key
  opens : ∀ row, (change row).unresolved = true → row.unresolved = true

private theorem decides_accept (now resolution : String) : Decides (DriftEventRow.accept now resolution) :=
  ⟨fun _ => rfl, fun _ => rfl, fun row h => by simp [DriftEventRow.accept, DriftEventRow.unresolved] at h⟩

private theorem decides_ignore (until_text : String) : Decides (DriftEventRow.ignore until_text) :=
  ⟨fun _ => rfl, fun _ => rfl, fun _ h => h⟩

private theorem tracks_decide {change : DriftEventRow → DriftEventRow} {drift_id : Int} {rec : AuditRecord}
    {audit_now : jiff.Timestamp} (h : Tracks db) (hdecides : Decides change) :
    Tracks ((decide_drift crates.toCrates drift_id change rec audit_now).run db).2 := by
  apply tracks_update h hdecides.id hdecides.key hdecides.opens
  intro out
  split
  · exact leaves_throw _
  · exact in_store_leaves _

private theorem tracks_decide_bulk {change : DriftEventRow → DriftEventRow} {filter : DriftBulkFilter}
    {rec : Nat → AuditRecord} {audit_now : jiff.Timestamp} (h : Tracks db) (hdecides : Decides change) :
    Tracks ((decide_drift_bulk crates.toCrates filter change rec audit_now).run db).2 := by
  apply tracks_update h hdecides.id hdecides.key hdecides.opens
  intro out
  split
  · exact leaves_bind (in_store_leaves _) fun _ => leaves_pure _
  · exact leaves_pure _

private theorem tracks_role {α : Type} {identity : Identity} {next : Identity → DriftTx α} (h : Tracks db)
    (hnext : ∀ identity, Tracks ((next identity).run db).2) :
    Tracks ((do let identity ← Prog.ofExcept (require_role identity .Operator); next identity).run db).2 := by
  rw [run_bind, run_ofExcept]
  cases require_role identity .Operator with
  | error e => exact h
  | ok identity => exact hnext identity

variable {req : DriftPush}

/-- The items whose `detected_at` a resolved row has. -/
def Refused (req : DriftPush) (db : DriftStore) : Prop :=
  ∃ item ∈ req.items, Clashes req.agent_id item (db.rows .drift_events)

private theorem record_drift_run (h : Tracks db) (hfree : ¬ Refused req db) :
    ∃ mid : DriftStore, (record_drift crates.toCrates req.agent_id req.items req.recorded_at).exec db =
        (.ok req.items.length, mid) ∧
      DriftRecorded crates.toCrates req.agent_id req.items (db.rows .drift_events) (mid.rows .drift_events) ∧ Tracks mid := by
  rw [record_drift]
  split
  · next hempty =>
    rw [List.isEmpty_iff.mp hempty]
    exact ⟨db, rfl, DriftRecorded.nil _, h⟩
  · obtain ⟨mid, hrun, hrecorded, hmid⟩ :=
      @record_items_run crates.toCrates req.agent_id req.recorded_at.to_string req.items [] _ db 0 h (DriftRecorded.nil _)
        fun item hitem hclash => hfree ⟨item, hitem, hclash⟩
    rw [Nat.zero_add] at hrun
    exact ⟨mid, exec_of_run_ok hrun, hrecorded, hmid⟩

private theorem record_drift_refused (h : Tracks db) (hrefused : Refused req db) :
    ∃ after : DriftStore, (record_drift crates.toCrates req.agent_id req.items req.recorded_at).exec db =
      (.error unique_violation, after) ∧ Tracks after := by
  have hsome : req.items.isEmpty = false := by
    obtain ⟨item, hitem, -⟩ := hrefused
    exact List.isEmpty_eq_false_iff_exists_mem.mpr ⟨item, hitem⟩
  rw [record_drift, hsome]
  obtain ⟨after, hrun⟩ :=
    @record_items_refused crates.toCrates req.agent_id req.recorded_at.to_string req.items [] _ db 0 h (DriftRecorded.nil _)
      hrefused
  have hexec := exec_of_run_error hrun
  refine ⟨{ db with seq := after.seq }, hexec, h.of_rows rfl ?_⟩
  have hseq := seq_le_run (record_items crates.toCrates req.agent_id req.recorded_at.to_string req.items 0) db .drift_events
  rwa [hrun] at hseq

/-- The record and close steps reconcile the drift events unless an item is refused. -/
theorem reconcile_run (h : Tracks db) (hfree : ¬ Refused req db) :
    ∃ after : DriftStore, reconcile crates.toCrates req db = (.ok req.items.length, after) ∧
      Reconciled crates.toCrates req.agent_id req.items (db.rows .drift_events) (after.rows .drift_events) ∧
      Tracks after := by
  obtain ⟨mid, hrecord, hrecorded, hmid⟩ := @record_drift_run crates db req h hfree
  obtain ⟨n, hclose⟩ :=
    @run_close_drift_not_in req.agent_id (req.items.map fun item => item.resource_id.to_string) req.closed_at mid
  have hrun : reconcile crates.toCrates req db = (.ok req.items.length, mid.set_rows .drift_events
      ((mid.rows .drift_events).map (updated (unreported req.agent_id (req.items.map fun item => item.resource_id.to_string))
        (DriftEventRow.stop req.closed_at.to_string)))) := by
    rw [reconcile, hrecord]
    simp only [exec_of_run_ok hclose]
  refine ⟨_, hrun, ?_, ?_⟩
  · rw [Db.set_rows_self]
    exact hrecorded.close hmid _
  · rw [Tracks, Db.set_rows_self]
    exact hmid.stop _ _

theorem reconcile_refused (h : Tracks db) (hrefused : Refused req db) :
    ∃ after : DriftStore, reconcile crates.toCrates req db = (.error unique_violation, after) ∧ Tracks after := by
  obtain ⟨after, hrecord, hafter⟩ := @record_drift_refused crates db req h hrefused
  exact ⟨after, by rw [reconcile, hrecord], hafter⟩

private theorem tracks_push (h : Tracks db) (req : DriftPush) : Tracks (drift crates.toCrates crates.parse req db).2 := by
  rw [drift]
  split
  · exact h
  · split
    · exact h
    · split
      · exact h
      · by_cases hrefused : Refused req db
        · obtain ⟨after, hrun, hafter⟩ := @reconcile_refused crates db req h hrefused
          rw [hrun]
          exact hafter
        · obtain ⟨after, hrun, -, hafter⟩ := @reconcile_run crates db req h hrefused
          rw [hrun]
          exact hafter

/-- What one request keeps. -/
theorem tracks_step {after : DriftStore} (h : Tracks db) (hstep : DriftStep crates db after) : Tracks after := by
  cases hstep with
  | push req => exact tracks_push h req
  | accept identity drift_id reason now audit_now =>
    refine tracks_exec h (tracks_role h fun identity => ?_)
    split
    · exact tracks_throw h _
    · exact tracks_decide h (decides_accept _ _)
  | ignore identity drift_id until_text audit_now =>
    refine tracks_exec h (tracks_role h fun identity => ?_)
    rw [store.ignore_drift]
    split
    · exact tracks_throw h _
    · exact tracks_decide h (decides_ignore _)
  | accept_bulk identity filter reason now audit_now =>
    refine tracks_exec h (tracks_role h fun identity => ?_)
    split
    · exact tracks_throw h _
    · split
      · exact tracks_throw h _
      · exact tracks_decide_bulk h (decides_accept _ _)
  | ignore_bulk identity filter ttl parsed audit_now =>
    refine tracks_exec h (tracks_role h fun identity => ?_)
    split
    · exact tracks_throw h _
    · split
      · exact tracks_throw h _
      · rw [store.ignore_drift_bulk]
        split
        · exact tracks_throw h _
        · exact tracks_decide_bulk h (decides_ignore _)
  | of_store p => exact tracks_exec h (tracks_leaves h (in_store_leaves p))

/-- What holds in every state of a run. -/
theorem tracks_reachable (h : DriftReachable crates db) : Tracks db := by
  induction h with
  | refl => exact DriftTracked.nil
  | tail _ hstep ih => exact tracks_step ih hstep

end Steps

/-- At most one open row for each agent and resource. -/
def OneOpen (rows : List DriftEventRow) : Prop :=
  ((rows.filter DriftEventRow.unresolved).map fun row => (row.agent_id, row.resource_id)).Nodup

private theorem Tracks.one_open {db : DriftStore} (h : Tracks db) : OneOpen (db.rows .drift_events) := by
  apply List.Nodup.map_on
  · intro a ha b hb hkey
    obtain ⟨ha, hopen_a⟩ := List.mem_filter.mp ha
    obtain ⟨hb, hopen_b⟩ := List.mem_filter.mp hb
    obtain ⟨hagent, hresource⟩ := Prod.mk.inj hkey
    exact DriftTracked.one_open h a ha b hb hopen_a hopen_b hagent hresource
  · exact h.ids.of_map.filter _

/-- The push is accepted and reconciles the drift events. -/
def Reconciles (crates : DriftCrates) (req : DriftPush) (db : DriftStore) : Prop :=
  (drift crates.toCrates crates.parse req db).1 = .ok req.items.length ∧
    Reconciled crates.toCrates req.agent_id req.items (db.rows .drift_events)
      ((drift crates.toCrates crates.parse req db).2.rows .drift_events)

private theorem check_drift_env_of_own {environment : String} {items : List iac_agent.DriftItem}
    (h : ∀ item ∈ items, item.resource_id.environment = environment) : check_drift_env environment items = .ok () := by
  have hnone : (items.find? fun item => item.resource_id.environment != environment) = none :=
    List.find?_eq_none.mpr fun item hitem => by simp [h item hitem]
  rw [check_drift_env, hnone]

/-- In every state of a run there is one open row for each agent and resource at
most. A push of an authenticated agent that reports resources of its environment
reconciles them exactly when the rate limiter lets it through and no item has the
`detected_at` of a resolved row of its resource. -/
theorem drift_push_reconciles_iff {crates : DriftCrates} {db : DriftStore} {req : DriftPush} {record : AgentRow}
    (hdb : DriftReachable crates db)
    (hauth : ((in_store (authenticate crates.toCrates crates.parse req.now req.agent_id req.token)).exec db).1 = .ok record)
    (hown : ∀ item ∈ req.items, item.resource_id.environment = record.environment) :
    OneOpen (db.rows .drift_events) ∧
      (Reconciles crates req db ↔ req.limited = .ok () ∧
        ∀ item ∈ req.items, ∀ row ∈ db.rows .drift_events, row.agent_id = req.agent_id →
          row.resource_id = item.resource_id.to_string → row.detected_at = item.detected_at → row.resolved_at = none) := by
  have htracks := tracks_reachable hdb
  refine ⟨htracks.one_open, ?_⟩
  have hrefused : ¬ Refused req db ↔ ∀ item ∈ req.items, ∀ row ∈ db.rows .drift_events, row.agent_id = req.agent_id →
      row.resource_id = item.resource_id.to_string → row.detected_at = item.detected_at → row.resolved_at = none := by
    constructor
    · intro hfree item hitem row hrow hagent hresource hdetected
      by_contra hresolved
      exact hfree ⟨item, hitem, row, hrow, hagent, hresource, hdetected,
        by simpa [DriftEventRow.unresolved, Option.isSome_iff_ne_none] using hresolved⟩
    · rintro hopen ⟨item, hitem, row, hrow, hagent, hresource, hdetected, hresolved⟩
      simp [DriftEventRow.unresolved, hopen item hitem row hrow hagent hresource hdetected] at hresolved
  rw [← hrefused, Reconciles, drift, hauth]
  cases hlimited : req.limited with
  | error e => simp
  | ok u =>
    simp only [check_drift_env_of_own hown, true_and]
    constructor
    · rintro ⟨haccepted, -⟩ hclash
      obtain ⟨after, hrun, -⟩ := @reconcile_refused crates db req htracks hclash
      rw [hrun] at haccepted
      cases haccepted
    · intro hfree
      obtain ⟨after, hrun, hreconciled, -⟩ := @reconcile_run crates db req htracks hfree
      rw [hrun]
      exact ⟨rfl, hreconciled⟩

section Samples

def sample_drift_crates : DriftCrates where
  toCrates := .on []
  parse _ := none
  parse_until _ := .error "premature end of input"

def sample_drift_time : jiff.Timestamp := ⟨63944812800000000000, by decide⟩

/-- The agent reports a drift of its resource, as of midnight. -/
def sample_drift_push : DriftPush where
  agent_id := "a"
  token := ""
  items := [⟨⟨"file", "prod", "motd"⟩, "warning", "2026-05-01T00:00:00Z", .no_change⟩]
  limited := .ok ()
  now := sample_drift_time
  recorded_at := sample_drift_time
  closed_at := sample_drift_time

/-- An operator accepts the drift that the agent `a` has reported. -/
def sample_drift_accepted : DriftStore :=
  let registration : RegisterRequest := { id := "a", name := "a", environment := "prod", audit_now := sample_drift_time }
  let registered := ((in_store (register_agent sample_drift_crates.toCrates registration)).exec drift_migrated).2
  let reported := (drift sample_drift_crates.toCrates sample_drift_crates.parse sample_drift_push registered).2
  ((accept_drift sample_drift_crates.toCrates .LegacyAdmin 1 "known" sample_drift_time sample_drift_time).exec reported).2

private theorem sample_drift_reachable : DriftReachable sample_drift_crates sample_drift_accepted :=
  ((Relation.ReflTransGen.single (.of_store _)).tail (.push sample_drift_push)).tail (.accept .LegacyAdmin 1 "known" _ _)

private theorem exists_of_environment {result : Except ApiError AgentRow} {environment : String}
    (h : result.toOption.map AgentRow.environment = some environment) :
    ∃ record, record.environment = environment ∧ result = .ok record := by
  cases result with
  | error e => cases h
  | ok record => exact ⟨record, Option.some.inj h, rfl⟩

private theorem sample_drift_authentic : ∃ record, record.environment = "prod" ∧
    ((in_store (authenticate sample_drift_crates.toCrates sample_drift_crates.parse sample_drift_push.now
      sample_drift_push.agent_id sample_drift_push.token)).exec sample_drift_accepted).1 = .ok record :=
  exists_of_environment (by decide)

theorem accepted_drift_decides : ∃ record,
    ((in_store (authenticate sample_drift_crates.toCrates sample_drift_crates.parse sample_drift_push.now
      sample_drift_push.agent_id sample_drift_push.token)).exec sample_drift_accepted).1 = .ok record ∧
    OneOpen (sample_drift_accepted.rows .drift_events) ∧
      (Reconciles sample_drift_crates sample_drift_push sample_drift_accepted ↔ sample_drift_push.limited = .ok () ∧
        ∀ item ∈ sample_drift_push.items, ∀ row ∈ sample_drift_accepted.rows .drift_events,
          row.agent_id = sample_drift_push.agent_id → row.resource_id = item.resource_id.to_string →
            row.detected_at = item.detected_at → row.resolved_at = none) := by
  obtain ⟨record, henvironment, hauth⟩ := sample_drift_authentic
  refine ⟨record, hauth, drift_push_reconciles_iff sample_drift_reachable hauth ?_⟩
  rw [henvironment]
  decide

/-- The agent reports the drift again that the operator has accepted. -/
theorem accepted_drift_refuses_push : ¬ ∀ (crates : DriftCrates) (db : DriftStore) (req : DriftPush) (record : AgentRow),
    DriftReachable crates db →
    ((in_store (authenticate crates.toCrates crates.parse req.now req.agent_id req.token)).exec db).1 = .ok record →
    (∀ item ∈ req.items, item.resource_id.environment = record.environment) → req.limited = .ok () →
      Reconciles crates req db := by
  intro hall
  have hrefused : (drift sample_drift_crates.toCrates sample_drift_crates.parse sample_drift_push
      sample_drift_accepted).1.toOption = none := by decide
  obtain ⟨record, henvironment, hauth⟩ := sample_drift_authentic
  obtain ⟨haccepted, -⟩ := hall sample_drift_crates sample_drift_accepted sample_drift_push record sample_drift_reachable
    hauth (by rw [henvironment]; decide) rfl
  rw [haccepted] at hrefused
  cases hrefused

end Samples

end iac_controlplane.api
