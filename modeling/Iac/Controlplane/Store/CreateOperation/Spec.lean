import Iac.Controlplane.Store.Audit
import Iac.Controlplane.Store.CreateOperation
import Iac.Controlplane.Store.Routing
import Iac.Sql.Query
import Iac.Sql.Program

open serde_json iac_core.protocol sql

namespace iac_controlplane.store

variable {α : Type}

theorem run_sql_insert_ok {t : Table} {values : Nat → Row t} {row : Row t} {db after : Store}
    (h : (sql_insert t values).run db = (.ok row, after)) :
    row = values (db.seq t) ∧ (∀ other ∈ db.rows t, clash t row other = false) ∧
      after.rows t = db.rows t ++ [row] ∧ SameOutside [t] db.rows after.rows := by
  rw [run_insert_into] at h
  split at h
  · cases h
  · rename_i hfresh
    obtain ⟨hrow, rfl⟩ := Prod.mk.inj h
    obtain rfl := Except.ok.inj hrow
    refine ⟨rfl, ?_, by simp, fun u hu => Db.set_rows_of_ne _ _ (by simpa using hu)⟩
    simpa using hfresh

theorem run_sql_insert_fresh {t : Table} {values : Nat → Row t} {db : Store}
    (hfresh : ∀ other ∈ db.rows t, clash t (values (db.seq t)) other = false) :
    (sql_insert t values).run db = (.ok (values (db.seq t)),
      (db.next_id t).set_rows t (db.rows t ++ [values (db.seq t)])) := by
  rw [run_insert_into, if_neg]
  rw [Bool.not_eq_true, List.any_eq_false]
  exact fun other hother => by simp [hfresh other hother]

/-- `row` is the assignment made for `bucket`: to its agent in its layer, with
its items as payload, in the batch given and in the status that follows. -/
def AssignmentOf (crates : Crates) (op_id now : String) (values : List α → Except ApiError (List Value))
    (batch : String → Int → Option Int) (bucket : (String ×ₗ Int) × List α) (row : AssignmentRow) : Prop :=
  ∃ id resources, values bucket.2 = .ok resources ∧
    row = { id, agent_id := (ofLex bucket.1).1, operation_id := op_id,
            payload_json := payload_json crates resources, created_at := now,
            status := initial_assignment_status (ofLex bucket.1).2 (batch (ofLex bucket.1).1 (ofLex bucket.1).2),
            kind := "apply", layer := (ofLex bucket.1).2,
            batch := batch (ofLex bucket.1).1 (ofLex bucket.1).2 }

/-- What `insert_assignments` does to the tables: a row for each bucket. -/
structure AssignmentsInserted (crates : Crates) (values : List α → Except ApiError (List Value))
    (make : Nat → String → Int → String → AssignmentRow) (buckets : Buckets α) (rows after : sql.Rows Row)
    (created : List AssignmentRow) : Prop where
  appended : after .assignments = rows .assignments ++ created
  made : List.Forall₂ (fun bucket row => ∃ i resources, values bucket.2 = .ok resources ∧
    row = make i (ofLex bucket.1).1 (ofLex bucket.1).2 (payload_json crates resources)) buckets created
  ids : ((rows .assignments).map AssignmentRow.id).Nodup → ((after .assignments).map AssignmentRow.id).Nodup
  frame : SameOutside [.assignments] rows after

theorem wp_insert_assignments {crates : Crates} {values : List α → Except ApiError (List Value)}
    {make : Nat → String → Int → String → AssignmentRow} {buckets : Buckets α} {count : Nat} {rows : sql.Rows Row} :
    (insert_assignments crates values make buckets count).wp rows fun count' after =>
      ∃ created, count' = count + created.length ∧
        AssignmentsInserted crates values make buckets rows after created := by
  induction buckets generalizing count rows with
  | nil => exact ⟨[], rfl, by simp, .nil, id, SameOutside.refl _ _⟩
  | cons bucket buckets ih =>
    obtain ⟨key, items⟩ := bucket
    rw [insert_assignments, wp_bind, wp_ofExcept]
    intro resources hresources
    rw [wp_bind, wp_insert_into]
    intro id hfresh
    refine wp_mono ?_ ih
    rintro count' after ⟨created, hcount, hinserted⟩
    refine ⟨_ :: created, ?_, ?_, .cons ⟨count, resources, hresources, rfl⟩ hinserted.made, ?_,
      (SameOutside.update _ _ _).trans hinserted.frame⟩
    · rw [hcount, List.length_cons, Nat.add_assoc, Nat.add_comm 1]
    · rw [hinserted.appended, Function.update_self, List.append_assoc, List.singleton_append]
    · intro hnodup
      refine hinserted.ids ?_
      rw [Function.update_self]
      refine nodup_keys_append hnodup fun other hother heq => ?_
      have hclash := List.any_eq_false.mp hfresh other hother
      simp [clash, heq] at hclash

/-- The assignments of the buckets are inserted, one for each. -/
theorem insert_assignments_spec {crates : Crates} {values : List α → Except ApiError (List Value)}
    {make : Nat → String → Int → String → AssignmentRow} {buckets : Buckets α} {count count' : Nat} {db after : Store}
    (h : (insert_assignments crates values make buckets count).run db = (.ok count', after)) :
    ∃ created, count' = count + created.length ∧
      AssignmentsInserted crates values make buckets db.rows after.rows created :=
  run_of_wp wp_insert_assignments h

/-- The assignments of readable buckets are inserted under ids that no other has. -/
theorem run_insert_assignments {crates : Crates} {values : List α → Except ApiError (List Value)}
    {make : Nat → String → Int → String → AssignmentRow} {ulid : Nat → String}
    (hmake : ∀ n agent_id layer text, (make n agent_id layer text).id = ulid n) (hulid : Function.Injective ulid)
    {buckets : Buckets α} (hvalues : ∀ bucket ∈ buckets, ∃ resources, values bucket.2 = .ok resources) {count : Nat}
    {db : Store} (hfresh : ∀ n, count ≤ n → ∀ a ∈ db.rows .assignments, a.id ≠ ulid n) :
    ∃ after, (insert_assignments crates values make buckets count).run db = (.ok (count + buckets.length), after) := by
  induction buckets generalizing count db with
  | nil => exact ⟨db, rfl⟩
  | cons bucket buckets ih =>
    obtain ⟨key, items⟩ := bucket
    obtain ⟨⟨resources, hresources⟩, hrest⟩ := List.forall_mem_cons.mp hvalues
    let row := make count (ofLex key).1 (ofLex key).2 (payload_json crates resources)
    have hid : row.id = ulid count := hmake _ _ _ _
    have hinsert := @run_sql_insert_fresh .assignments (fun _ => row) db fun other hother => by
      have hne := (hfresh count (Nat.le_refl count) other hother).symm
      simpa [clash, hid] using hne
    have hfresh' : ∀ n, count + 1 ≤ n → ∀ a ∈ db.rows .assignments ++ [row], a.id ≠ ulid n := by
      intro n hn a ha
      obtain hold | hnew := List.mem_append.mp ha
      · exact hfresh n (by omega) a hold
      · rw [List.mem_singleton.mp hnew, hid]
        intro heq
        have hcount := hulid heq
        omega
    obtain ⟨after, hafter⟩ := @ih hrest (count + 1) ((db.next_id .assignments).set_rows .assignments
      (db.rows .assignments ++ [row])) (by simpa using hfresh')
    refine ⟨after, ?_⟩
    rw [insert_assignments, hresources, run_bind_ok (run_ofExcept _ _), run_bind_ok hinsert, hafter, List.length_cons]
    congr 2
    omega

theorem leaves_insert_assignments (crates : Crates) (values : List α → Except ApiError (List Value))
    (make : Nat → String → Int → String → AssignmentRow) {t₀ : Table} (hassignments : .assignments ≠ t₀)
    (buckets : Buckets α) (count : Nat) : (insert_assignments crates values make buckets count).leaves t₀ := by
  induction buckets generalizing count with
  | nil => exact leaves_pure _
  | cons bucket buckets ih =>
    exact leaves_bind (leaves_ofExcept _) fun _ =>
      leaves_bind (leaves_insert_into hassignments _ _) fun _ => ih _

/-- The reasons why the resources that no agent takes stay behind. -/
def unrouted_of (environment : String) (agents : List AgentEntry) (layered : List (ResourceForRouting × Int)) :
    List (String × String) :=
  layered.filterMap fun entry =>
    match route_resource entry.1 environment agents with
    | .ok _ => none
    | .error reason => some (entry.1.resource_id, reason)

theorem store_resources_spec {op_id environment : String} {agents : List AgentEntry}
    {layered : List (ResourceForRouting × Int)} {buckets buckets' : Buckets ResourceForRouting}
    {unrouted unrouted' : List (String × String)} {db after : Store}
    (h : (store_resources op_id environment agents layered buckets unrouted).run db =
      (.ok (buckets', unrouted'), after)) :
    buckets' = push_all buckets (routes environment agents layered) ∧
      unrouted' = unrouted ++ unrouted_of environment agents layered ∧
      SameOutside [.desired_states] db.rows after.rows ∧
      ∃ stored, after.rows .desired_states = db.rows .desired_states ++ stored ∧
        List.Forall₂ (fun entry row => ∃ id, row = desired_state_row op_id entry.1 id) layered stored := by
  induction layered generalizing buckets unrouted db with
  | nil =>
    obtain ⟨hresult, rfl⟩ := Prod.mk.inj h
    obtain ⟨rfl, rfl⟩ := Prod.mk.inj (Except.ok.inj hresult)
    exact ⟨rfl, by simp [unrouted_of], SameOutside.refl _ _, [], by simp, .nil⟩
  | cons entry layered ih =>
    obtain ⟨r, layer⟩ := entry
    rw [store_resources] at h
    obtain ⟨row, mid, hinsert, h⟩ := run_bind_eq_ok_iff.mp h
    obtain ⟨hrow, -, hrows, hframe⟩ := run_sql_insert_ok hinsert
    cases hroute : route_resource r environment agents with
    | ok agent_id | error reason =>
      rw [hroute] at h
      obtain ⟨hbuckets, hunrouted, hsame, stored, hstored, hall⟩ := ih h
      refine ⟨?_, ?_, hframe.trans hsame, row :: stored, ?_, .cons ⟨_, hrow⟩ hall⟩
      · simpa [routes, hroute, push_all] using hbuckets
      · simpa [unrouted_of, hroute] using hunrouted
      · rw [hstored, hrows, List.append_assoc, List.singleton_append]

/-- The operation row that `create_operation` leaves beside `assignment_count` assignments. -/
def created_operation (crates : Crates) (req : CreateRequest) (assignment_count : Nat) : OperationRow :=
  if req.requires_approval = false ∧ assignment_count = 0 then
    { operation_row crates req with
      status := .succeeded, started_at := some req.now.to_string, finished_at := some req.now.to_string }
  else operation_row crates req

/-- What a successful `create_operation` does: a new operation, its desired
states and, unless it must be approved first, an assignment for each bucket. -/
structure CreateEffect (crates : Crates) (req : CreateRequest) (db : Store) (out : CreateOperationOutcome)
    (after : Store) (layers : List Int) (created : List AssignmentRow) : Prop where
  layered : depsort.compute_resource_layers crates req.resources = .ok layers
  fresh : ∀ op ∈ db.rows .operations, op.id ≠ req.op_id
  operations : after.rows .operations = db.rows .operations ++ [created_operation crates req created.length]
  assignments : after.rows .assignments = db.rows .assignments ++ created
  deferred : req.requires_approval = true → created = []
  dispatched : req.requires_approval = false →
    let buckets := push_all [] (routes req.environment (agent_entries db.rows) (req.resources.zip layers))
    List.Forall₂ (AssignmentOf crates req.op_id req.now.to_string (dispatched_values crates)
      (batch_of buckets req.canary)) buckets created
  ids : ((db.rows .assignments).map AssignmentRow.id).Nodup → ((after.rows .assignments).map AssignmentRow.id).Nodup
  desired_states : ∃ stored, after.rows .desired_states = db.rows .desired_states ++ stored ∧
    List.Forall₂ (fun entry row => ∃ id, row = desired_state_row req.op_id entry.1 id) (req.resources.zip layers) stored
  unrouted : out.unrouted = unrouted_of req.environment (agent_entries db.rows) (req.resources.zip layers)
  frame : SameOutside [.operations, .desired_states, .assignments, .audit_events, .audit_chain_tip] db.rows after.rows

private theorem dispatch_new_spec {crates : Crates} {req : CreateRequest} {buckets : Buckets ResourceForRouting}
    {count : Nat} {operations : List OperationRow} {db after : Store}
    (hfresh : ∀ op ∈ operations, op.id ≠ req.op_id)
    (hoperations : db.rows .operations = operations ++ [operation_row crates req])
    (happroval : req.requires_approval = false)
    (h : (dispatch_new crates req buckets).run db = (.ok count, after)) :
    ∃ created, count = created.length ∧ after.rows .assignments = db.rows .assignments ++ created ∧
      after.rows .operations = operations ++ [created_operation crates req created.length] ∧
      List.Forall₂ (AssignmentOf crates req.op_id req.now.to_string (dispatched_values crates)
        (batch_of buckets req.canary)) buckets created ∧
      (((db.rows .assignments).map AssignmentRow.id).Nodup → ((after.rows .assignments).map AssignmentRow.id).Nodup) ∧
      SameOutside [.operations, .assignments] db.rows after.rows := by
  rw [dispatch_new] at h
  obtain ⟨inserted, mid, hassignments, h⟩ := run_bind_eq_ok_iff.mp h
  obtain ⟨created, hcount, hcreated, hmade, hids, hsame⟩ := insert_assignments_spec hassignments
  have hall : List.Forall₂ (AssignmentOf crates req.op_id req.now.to_string (dispatched_values crates)
      (batch_of buckets req.canary)) buckets created :=
    hmade.imp fun _ _ ⟨i, resources, hvalues, hrow⟩ => ⟨_, resources, hvalues, hrow⟩
  rw [Nat.zero_add] at hcount
  split at h
  · rename_i hzero
    rw [run_bind_ok (run_update_where _ _ _ _)] at h
    obtain ⟨hresult, rfl⟩ := Prod.mk.inj h
    refine ⟨created, (Except.ok.inj hresult).symm.trans hcount, by simpa using hcreated, ?_, hall, by simpa using hids,
      (hsame.mono (by simp)).trans ((SameOutside.set_rows _ _ _).mono (by simp))⟩
    rw [Db.set_rows_self, hsame _ (by decide), hoperations, List.map_append,
      map_updated_eq_self fun op hop => by simpa using hfresh op hop]
    simp [updated, created_operation, operation_row, happroval, ← hcount, hzero]
  · rename_i hpos
    obtain ⟨hresult, rfl⟩ := Prod.mk.inj h
    refine ⟨created, (Except.ok.inj hresult).symm.trans hcount, hcreated, ?_, hall, hids, hsame.mono (by simp)⟩
    rw [hsame _ (by decide), hoperations, created_operation, if_neg]
    exact fun hzero => hpos (hcount.trans hzero.2)

private theorem create_operation_effect {crates : Crates} {req : CreateRequest} {out : CreateOperationOutcome}
    {db after : Store} (h : (create_operation crates req).run db = (.ok out, after)) :
    ∃ layers created, CreateEffect crates req db out after layers created ∧ out.assignment_count = created.length := by
  rw [create_operation, run_bind_ok (run_query _ _)] at h
  obtain ⟨row, db₁, hinsert, h⟩ := run_bind_eq_ok_iff.mp h
  obtain ⟨hrow, hfresh, hoperations, hframe₁⟩ := run_sql_insert_ok hinsert
  have hnew : ∀ op ∈ db.rows .operations, op.id ≠ req.op_id := by
    intro op hop heq
    have hclash := hfresh op hop
    simp [clash, hrow, operation_row, heq] at hclash
  rw [hrow] at hoperations
  obtain ⟨layers, db₂, hlayered, h⟩ := run_bind_eq_ok_iff.mp h
  obtain ⟨hlayers, rfl⟩ := Prod.mk.inj hlayered
  obtain ⟨⟨buckets, unrouted⟩, db₂, hstore, h⟩ := run_bind_eq_ok_iff.mp h
  obtain ⟨rfl, rfl, hframe₂, stored, hstored, hall⟩ := store_resources_spec hstore
  obtain ⟨count, db₃, hdispatch, h⟩ := run_bind_eq_ok_iff.mp h
  obtain ⟨prev_hash, event_id, db₄, haudit, -, hframe₄⟩ :=
    record_audit_on_spec crates req.audit_now.to_string (create_audit req count _) db₃
  rw [run_bind_ok haudit] at h
  obtain ⟨hout, rfl⟩ := Prod.mk.inj h
  obtain rfl := Except.ok.inj hout
  have hoperations₂ : db₂.rows .operations = db.rows .operations ++ [operation_row crates req] :=
    (hframe₂ _ (by decide)).trans hoperations
  have hassignments₂ : db₂.rows .assignments = db.rows .assignments :=
    (hframe₂ _ (by decide)).trans (hframe₁ _ (by decide))
  have hstored₂ : db₂.rows .desired_states = db.rows .desired_states ++ stored := by
    rw [hstored, hframe₁ _ (by decide)]
  have hframe₀₂ : SameOutside [.operations, .desired_states] db.rows db₂.rows :=
    (hframe₁.mono (by simp)).trans (hframe₂.mono (by simp))
  cases happroval : req.requires_approval with
  | true =>
    simp only [initial_assignments, happroval] at hdispatch
    obtain ⟨hcount, rfl⟩ := Prod.mk.inj hdispatch
    refine ⟨layers, [], ⟨hlayers, hnew, ?_, ?_, fun _ => rfl, by simp [happroval], ?_, ⟨stored, ?_, hall⟩, rfl, ?_⟩,
      (Except.ok.inj hcount).symm⟩
    · rw [hframe₄ _ (by decide), hoperations₂, created_operation, if_neg (by simp [happroval])]
    · rw [hframe₄ _ (by decide), hassignments₂, List.append_nil]
    · rw [hframe₄ _ (by decide), hassignments₂]
      exact id
    · rw [hframe₄ _ (by decide), hstored₂]
    · exact (hframe₀₂.mono (by simp)).trans (hframe₄.mono (by simp))
  | false =>
    simp only [initial_assignments, happroval] at hdispatch
    obtain ⟨created, hcount, hassignments₃, hoperations₃, hcreated, hids, hframe₃⟩ :=
      dispatch_new_spec hnew hoperations₂ happroval hdispatch
    refine ⟨layers, created, ⟨hlayers, hnew, ?_, ?_, by simp [happroval], fun _ => hcreated, ?_, ⟨stored, ?_, hall⟩, rfl, ?_⟩,
      hcount⟩
    · rw [hframe₄ _ (by decide), hoperations₃]
    · rw [hframe₄ _ (by decide), hassignments₃, hassignments₂]
    · rw [hframe₄ _ (by decide), ← hassignments₂]
      exact hids
    · rw [hframe₄ _ (by decide), hframe₃ _ (by decide), hstored₂]
    · exact (hframe₀₂.mono (by simp)).trans ((hframe₃.mono (by simp)).trans (hframe₄.mono (by simp)))

/-- A successful `create_operation` has the effect of one. -/
theorem create_operation_spec {crates : Crates} {req : CreateRequest} {out : CreateOperationOutcome} {db after : Store}
    (h : (create_operation crates req).run db = (.ok out, after)) :
    ∃ layers created, CreateEffect crates req db out after layers created := by
  obtain ⟨layers, created, heffect, -⟩ := create_operation_effect h
  exact ⟨layers, created, heffect⟩

/-- The outcome counts the assignments made. -/
theorem create_operation_count {crates : Crates} {req : CreateRequest} {out : CreateOperationOutcome} {db after : Store}
    (h : (create_operation crates req).run db = (.ok out, after)) :
    (after.rows .assignments).length = (db.rows .assignments).length + out.assignment_count := by
  obtain ⟨layers, created, heffect, hcount⟩ := create_operation_effect h
  rw [heffect.assignments, List.length_append, hcount]

end iac_controlplane.store
