import Iac.Controlplane.Store.Provenance
import Iac.Controlplane.Store.Routing.Conservation
import Iac.Core.Timestamp.Order

open iac_core.protocol sql

namespace iac_controlplane.store

/-- The rows that a submission stores, with ids that count up from `start`. -/
def numbered (op_id : String) (start : Nat) (resources : List ResourceForRouting) : List DesiredStateRow :=
  (resources.zipIdx start).map fun entry => desired_state_row op_id entry.1 entry.2

theorem mem_numbered {op_id : String} {start : Nat} {resources : List ResourceForRouting} {d : DesiredStateRow} :
    d ∈ numbered op_id start resources ↔
      ∃ i r, resources[i]? = some r ∧ d = desired_state_row op_id r (start + i) := by
  rw [numbered, List.mem_map]
  constructor
  · rintro ⟨⟨r, id⟩, hentry, rfl⟩
    obtain ⟨hle, hget⟩ := List.mk_mem_zipIdx_iff_le_and_getElem?_sub.mp hentry
    refine ⟨id - start, r, hget, ?_⟩
    rw [Nat.add_sub_cancel' hle]
  · rintro ⟨i, r, hget, rfl⟩
    refine ⟨(r, start + i), List.mk_mem_zipIdx_iff_le_and_getElem?_sub.mpr ⟨Nat.le_add_right _ _, ?_⟩, rfl⟩
    rwa [Nat.add_sub_cancel_left]

theorem numbered_keys (op_id : String) (start : Nat) (resources : List ResourceForRouting) :
    ((numbered op_id start resources).map fun d => (d.operation_id, d.resource_id)) =
      resources.map fun r => (op_id, r.resource_id) := by
  induction resources generalizing start with
  | nil => rfl
  | cons r resources ih =>
    rw [List.map_cons, ← ih (start + 1)]
    rfl

section Numbers

variable {db after : Store}

private theorem run_sql_insert_seq {t : Table} {values : Nat → Row t} {row : Row t}
    (h : (sql_insert t values).run db = (.ok row, after)) : after.seq = Function.update db.seq t (db.seq t + 1) := by
  rw [run_insert_into] at h
  split at h
  · cases h
  · obtain ⟨-, rfl⟩ := Prod.mk.inj h
    rfl

private theorem store_resources_numbers {op_id environment : String} {agents : List AgentEntry}
    {layered : List (ResourceForRouting × Int)} {buckets buckets' : Buckets ResourceForRouting}
    {unrouted unrouted' : List (String × String)}
    (h : (store_resources op_id environment agents layered buckets unrouted).run db =
      (.ok (buckets', unrouted'), after)) :
    after.rows .desired_states =
        db.rows .desired_states ++ numbered op_id (db.seq .desired_states) (layered.map Prod.fst) ∧
      after.seq .desired_states = db.seq .desired_states + layered.length := by
  induction layered generalizing buckets unrouted db with
  | nil =>
    obtain ⟨-, rfl⟩ := Prod.mk.inj h
    exact ⟨(List.append_nil _).symm, rfl⟩
  | cons entry layered ih =>
    obtain ⟨r, layer⟩ := entry
    rw [store_resources] at h
    obtain ⟨row, mid, hinsert, hnext⟩ := run_bind_eq_ok_iff.mp h
    obtain ⟨hrow, -, hrows, -⟩ := run_sql_insert_ok hinsert
    have hseq : mid.seq .desired_states = db.seq .desired_states + 1 := by
      rw [run_sql_insert_seq hinsert, Function.update_self]
    have hrest : after.rows .desired_states =
          mid.rows .desired_states ++ numbered op_id (mid.seq .desired_states) (layered.map Prod.fst) ∧
        after.seq .desired_states = mid.seq .desired_states + layered.length := by
      cases hroute : route_resource r environment agents with
      | ok agent_id | error reason =>
        rw [hroute] at hnext
        exact ih hnext
    rw [hseq, hrows, hrow] at hrest
    refine ⟨?_, ?_⟩
    · rw [hrest.1, List.append_assoc]
      rfl
    · rw [hrest.2, List.length_cons]
      omega

private theorem leaves_initial_assignments (crates : Crates) (req : CreateRequest) (buckets : Buckets ResourceForRouting) :
    (initial_assignments crates req buckets).leaves .desired_states := by
  rw [initial_assignments]
  split
  · exact leaves_pure _
  · refine leaves_bind (leaves_insert_assignments _ _ _ (by decide) _ _) fun count => ?_
    split
    · exact leaves_bind (leaves_update_where (by decide) _ _) fun _ => leaves_pure _
    · exact leaves_pure _

/-- What a successful `create_operation` stores of its resources. -/
theorem create_operation_numbers {crates : Crates} {req : CreateRequest} {out : CreateOperationOutcome}
    (h : (create_operation crates req).run db = (.ok out, after)) :
    after.rows .desired_states =
        db.rows .desired_states ++ numbered req.op_id (db.seq .desired_states) req.resources ∧
      db.seq .desired_states + req.resources.length ≤ after.seq .desired_states := by
  rw [create_operation, run_bind_ok (run_query _ _)] at h
  obtain ⟨row, db₁, hinsert, h⟩ := run_bind_eq_ok_iff.mp h
  obtain ⟨-, -, -, hframe⟩ := run_sql_insert_ok hinsert
  have hseq₁ : db₁.seq .desired_states = db.seq .desired_states := by
    rw [run_sql_insert_seq hinsert, Function.update_of_ne (by decide)]
  obtain ⟨layers, db₂, hlayered, h⟩ := run_bind_eq_ok_iff.mp h
  obtain ⟨hlayers, rfl⟩ := Prod.mk.inj hlayered
  obtain ⟨⟨buckets, unrouted⟩, db₂, hstore, h⟩ := run_bind_eq_ok_iff.mp h
  obtain ⟨hstored, hseq₂⟩ := store_resources_numbers hstore
  have hlength := depsort.compute_resource_layers_length hlayers
  rw [List.map_fst_zip (Nat.le_of_eq hlength.symm), hseq₁, hframe _ (by decide)] at hstored
  rw [hseq₁, List.length_zip, hlength, Nat.min_self] at hseq₂
  -- the assignments and the audit event go to other tables
  have hrest := seq_le_run _ db₂ .desired_states |>.trans_eq (congrArg (fun run => run.2.seq .desired_states) h)
  have hleft : after.rows .desired_states = db₂.rows .desired_states := by
    rw [← rows_of_leaves (leaves_bind (leaves_initial_assignments crates req buckets) fun count =>
      leaves_bind (leaves_record_audit_on crates _ _ (by decide) (by decide)) fun _ => leaves_pure _) db₂, h]
  exact ⟨hleft.trans hstored, hseq₂ ▸ hrest⟩

end Numbers

/-- What the desired states of every history have in common: each belongs to an
operation with a time, the ids of an operation follow each other, and a resource
names only resources that its operation stored before it. -/
structure Historic (crates : Crates) (db : Store) : Prop where
  stamped : ∀ o ∈ db.rows .operations, ∃ t : jiff.Timestamp, o.created_at = t.to_string
  owned : ∀ d ∈ db.rows .desired_states, ∃ o ∈ db.rows .operations, o.id = d.operation_id
  below : ∀ d ∈ db.rows .desired_states, d.id < db.seq .desired_states
  ids : ∀ d ∈ db.rows .desired_states, ∀ e ∈ db.rows .desired_states, d.id = e.id → d = e
  resources : ((db.rows .desired_states).map fun d => (d.operation_id, d.resource_id)).Nodup
  together : ∀ d ∈ db.rows .desired_states, ∀ e ∈ db.rows .desired_states, ∀ f ∈ db.rows .desired_states,
    d.operation_id = f.operation_id → d.id ≤ e.id → e.id ≤ f.id → e.operation_id = d.operation_id
  closed : ∀ d ∈ db.rows .desired_states, ∃ deps, depsort.read_depends_on crates d.spec_json = .ok deps ∧
    ∀ dep_id ∈ deps, ∃ e ∈ db.rows .desired_states,
      e.operation_id = d.operation_id ∧ e.resource_id = dep_id ∧ e.id < d.id

theorem historic_migrated (crates : Crates) : Historic crates migrated := by
  constructor <;> simp [migrated]

section Steps

variable {crates : Crates} {db : Store}

/-- Only `create_operation` adds operations. -/
theorem operations_decided (h : Consistent db) (call : Call) (hcall : ∀ req, call ≠ .create_operation req) :
    Decides (db.rows .operations) ((call.after crates db).rows .operations) := by
  have hexec {α : Type} {p : Tx α} (hok : ∀ a after, p.run db = (.ok a, after) →
      Decides (db.rows .operations) (after.rows .operations)) :
      Decides (db.rows .operations) ((p.exec db).2.rows .operations) := by
    obtain ⟨e, -, hrows⟩ | ⟨a, after, hrun, hexec⟩ := exec_cases p db
    · exact congrFun hrows _ ▸ Decides.refl _
    · rw [hexec]
      exact hok a after hrun
  cases call with
  | register_agent req => exact hexec fun _ _ hrun => register_agent_frame hrun .operations (by decide) ▸ Decides.refl _
  | upsert_ssh_target id name environment =>
    exact hexec fun _ _ hrun => upsert_ssh_target_frame hrun .operations (by decide) ▸ Decides.refl _
  | create_operation req => exact absurd rfl (hcall req)
  | approve_operation req =>
    refine hexec fun _ _ hrun => ?_
    obtain ⟨op, routing_list, layers, created, heffect⟩ := approve_operation_spec hrun
    exact heffect.operations ▸ approve_decides req _ _
  | reject_operation req =>
    exact hexec fun _ _ hrun => (reject_operation_spec hrun).operations ▸ reject_decides req _
  | fetch_pending_assignments lease now agent_id =>
    refine hexec fun _ _ hrun => ?_
    obtain ⟨cutoff, -, -, -, hstarted, -⟩ := fetch_pending_assignments_spec hrun
    exact hstarted.decides
  | claim_ssh_pending lease now scan target_ids =>
    refine hexec fun _ _ hrun => ?_
    obtain ⟨-, hrows⟩ | ⟨cutoff, -, a, -, -, -, -, -, hstarted, -⟩ := claim_ssh_pending_spec h.assignment_ids hrun
    · exact congrFun hrows Table.operations ▸ Decides.refl _
    · exact hstarted.decides
  | revert_assignment_claims ids =>
    refine hexec fun _ _ hrun => ?_
    obtain ⟨-, rfl⟩ := Prod.mk.inj ((run_revert_assignment_claims ids db).symm.trans hrun)
    rw [Db.set_rows_of_ne _ _ (by decide)]
    exact Decides.refl _
  | complete_assignment rep =>
    refine hexec fun _ _ hrun => ?_
    obtain ⟨hrefused, -⟩ | ⟨a, -, -, hrecord⟩ := complete_assignment_cases crates rep db
    · cases hrefused.symm.trans hrun
    · obtain ⟨after, prev_hash, id, extra, hrecorded, -, hoperations, -, -, -⟩ :=
        record_result_spec crates rep a.operation_id db
      obtain ⟨-, rfl⟩ := Prod.mk.inj (hrecorded.symm.trans (hrecord.symm.trans hrun))
      exact hoperations ▸ rolled_up_decides _ _ _ _

theorem Call.seq_le (call : Call) (t : Table) : db.seq t ≤ (call.after crates db).seq t := by
  cases call <;> exact seq_le_exec _ _ _

/-- Deciding operations leaves the history as it is. -/
theorem Historic.decide {after : Store} (h : Historic crates db)
    (hoperations : Decides (db.rows .operations) (after.rows .operations))
    (hstates : after.rows .desired_states = db.rows .desired_states)
    (hseq : db.seq .desired_states ≤ after.seq .desired_states) : Historic crates after := by
  obtain ⟨g, hg, hsame⟩ := hoperations
  refine ⟨?_, ?_, ?_, hstates ▸ h.ids, hstates ▸ h.resources, hstates ▸ h.together, hstates ▸ h.closed⟩
  · intro o ho
    rw [hg] at ho
    obtain ⟨before, hbefore, rfl⟩ := List.mem_map.mp ho
    rw [(hsame before hbefore).1.created_at]
    exact h.stamped before hbefore
  · intro d hd
    rw [hstates] at hd
    obtain ⟨o, ho, hid⟩ := h.owned d hd
    exact ⟨g o, hg ▸ List.mem_map_of_mem ho, (hsame o ho).1.id.trans hid⟩
  · intro d hd
    rw [hstates] at hd
    exact (h.below d hd).trans_le hseq

/-- A submission adds its resources to the history. -/
theorem Historic.create {req : CreateRequest} {out : CreateOperationOutcome} {after : Store} (h : Historic crates db)
    (hrun : (create_operation crates req).run db = (.ok out, after)) : Historic crates after := by
  obtain ⟨layers, created, heffect⟩ := create_operation_spec hrun
  obtain ⟨hstates, hseq⟩ := create_operation_numbers hrun
  have hids := create_operation_distinct hrun
  have hnew : ∀ d ∈ db.rows .desired_states, d.operation_id ≠ req.op_id := by
    intro d hd heq
    obtain ⟨o, ho, hid⟩ := h.owned d hd
    exact heffect.fresh o ho (hid.trans heq)
  have hmem {d : DesiredStateRow} (hd : d ∈ after.rows .desired_states) : d ∈ db.rows .desired_states ∨
      ∃ i r, req.resources[i]? = some r ∧ d = desired_state_row req.op_id r (db.seq .desired_states + i) := by
    rw [hstates, List.mem_append, mem_numbered] at hd
    exact hd
  have hold {d : DesiredStateRow} (hd : d ∈ db.rows .desired_states) : d ∈ after.rows .desired_states :=
    hstates ▸ List.mem_append_left _ hd
  have hid : (created_operation crates req created.length).id = req.op_id := by
    rw [created_operation]
    split <;> rfl
  constructor
  case stamped =>
    intro o ho
    rw [heffect.operations] at ho
    obtain ho | ho := List.mem_append.mp ho
    · exact h.stamped o ho
    · obtain rfl := List.mem_singleton.mp ho
      refine ⟨req.now, ?_⟩
      rw [created_operation]
      split <;> rfl
  case owned =>
    intro d hd
    rw [heffect.operations]
    obtain hd | ⟨i, r, -, rfl⟩ := hmem hd
    · obtain ⟨o, ho, howner⟩ := h.owned d hd
      exact ⟨o, List.mem_append_left _ ho, howner⟩
    · exact ⟨_, List.mem_append_right _ (List.mem_singleton_self _), hid⟩
  case below =>
    intro d hd
    obtain hd | ⟨i, r, hi, rfl⟩ := hmem hd
    · have hlt := h.below d hd
      omega
    · obtain ⟨hlt, -⟩ := List.getElem?_eq_some_iff.mp hi
      simp only [desired_state_row]
      omega
  case ids =>
    intro d hd e he heq
    rcases hmem hd with hd | ⟨i, r, hi, rfl⟩ <;> rcases hmem he with he | ⟨j, r', hj, rfl⟩
    · exact h.ids d hd e he heq
    · have hlt := h.below d hd
      simp only [desired_state_row] at heq
      omega
    · have hlt := h.below e he
      simp only [desired_state_row] at heq
      omega
    · simp only [desired_state_row, Nat.add_left_cancel_iff] at heq
      subst heq
      obtain rfl := Option.some.inj (hi.symm.trans hj)
      rfl
  case resources =>
    rw [hstates, List.map_append, numbered_keys]
    refine List.nodup_append.mpr ⟨h.resources, ?_, ?_⟩
    · have hpair : Function.Injective fun id : String => (req.op_id, id) := fun _ _ heq => (Prod.mk.inj heq).2
      have hmapped := hids.map hpair
      rwa [List.map_map] at hmapped
    · rintro ⟨op_id, resource_id⟩ hkey other hother rfl
      obtain ⟨d, hd, hkey⟩ := List.mem_map.mp hkey
      obtain ⟨r, -, hother⟩ := List.mem_map.mp hother
      exact hnew d hd ((Prod.mk.inj hkey).1.trans (Prod.mk.inj hother).1.symm)
  case together =>
    intro d hd e he f hf hsame hde hef
    obtain hd | ⟨i, r, -, rfl⟩ := hmem hd
    · obtain hf | ⟨j, r, -, rfl⟩ := hmem hf
      · have hlt := h.below f hf
        obtain he | ⟨k, r', -, rfl⟩ := hmem he
        · exact h.together d hd e he f hf hsame hde hef
        · simp only [desired_state_row] at hef
          omega
      · exact absurd hsame (hnew d hd)
    · obtain he | ⟨k, r', -, rfl⟩ := hmem he
      · have hlt := h.below e he
        simp only [desired_state_row] at hde
        omega
      · rfl
  case closed =>
    intro d hd
    obtain hd | ⟨i, r, hi, rfl⟩ := hmem hd
    · obtain ⟨deps, hdeps, hnames⟩ := h.closed d hd
      refine ⟨deps, hdeps, fun dep_id hdep => ?_⟩
      obtain ⟨e, he, hnamed⟩ := hnames dep_id hdep
      exact ⟨e, hold he, hnamed⟩
    · obtain ⟨deps, hdeps, hnames⟩ := depsort.compute_resource_layers_names hids heffect.layered hi
      refine ⟨deps, hdeps, fun dep_id hdep => ?_⟩
      obtain ⟨j, r', hlt, hj, hname⟩ := hnames dep_id hdep
      refine ⟨desired_state_row req.op_id r' (db.seq .desired_states + j), ?_, rfl, hname, ?_⟩
      · rw [hstates, List.mem_append, mem_numbered]
        exact .inr ⟨j, r', hj, rfl⟩
      · exact Nat.add_lt_add_left hlt _

theorem Historic.after (h : Historic crates db) (hconsistent : Consistent db) (call : Call) :
    Historic crates (call.after crates db) := by
  by_cases hcall : ∃ req, call = .create_operation req
  · obtain ⟨req, rfl⟩ := hcall
    obtain ⟨e, -, hrows⟩ | ⟨out, after, hrun, hexec⟩ := exec_cases (create_operation crates req) db
    · refine h.decide (congrFun hrows _ ▸ Decides.refl _) (congrFun hrows _) (Call.seq_le (.create_operation req) _)
    · rw [Call.after, hexec]
      exact h.create hrun
  · have hnot := not_exists.mp hcall
    exact h.decide (operations_decided hconsistent call hnot) (desired_states_kept crates hconsistent call hnot)
      (call.seq_le _)

/-- The desired states of every reachable store are a history. -/
theorem reachable_historic {allowed : Store → Call → Prop} (hreach : Reachable crates allowed db) :
    Historic crates db := by
  suffices Consistent db ∧ Historic crates db from this.2
  induction hreach with
  | refl => exact ⟨consistent_migrated, historic_migrated crates⟩
  | tail _ hstep ih =>
    obtain ⟨call, -, rfl⟩ := hstep
    exact ⟨ih.1.after call, ih.2.after ih.1 call⟩

end Steps

end iac_controlplane.store
