import Iac.Controlplane.Retention
import Iac.Controlplane.Store.Preview

open sql iac_controlplane.retention

namespace iac_controlplane.store

/-- What changes the desired states and what they are dispatched from: a call, or one
DELETE of a retention sweep. -/
inductive Act where
  | call (call : Call)
  | prune_chunk (CHUNK_SIZE : ℕ+) (scan : Scan DesiredStateRow) (max_per_resource : ℕ+)

/-- The store, and a record of the submissions that it accepted. -/
structure Ledger where
  db : Store
  accepted : List CreateRequest := []

def Call.accepted (crates : Crates) (db : Store) : Call → List CreateRequest
  | .create_operation req =>
    match ((store.create_operation crates req).exec db).1 with
    | .ok _ => [req]
    | .error _ => []
  | _ => []

/-- The desired states that one chunk of a sweep leaves. -/
def pruned (CHUNK_SIZE : ℕ+) (scan : Scan DesiredStateRow) (max_per_resource : ℕ+) (rows : List DesiredStateRow) :
    List DesiredStateRow :=
  (delete_chunk desired_states_window (·.id) CHUNK_SIZE scan max_per_resource rows).1

def Act.after (crates : Crates) (act : Act) (s : Ledger) : Ledger :=
  match act with
  | .call c => { db := c.after crates s.db, accepted := s.accepted ++ c.accepted crates s.db }
  | .prune_chunk CHUNK_SIZE scan max_per_resource =>
    { s with db := s.db.set_rows .desired_states (pruned CHUNK_SIZE scan max_per_resource (s.db.rows .desired_states)) }

/-- A state of a serial run from the migrated store. -/
abbrev LedgerRun (crates : Crates) (allowed : Ledger → Act → Prop) (s : Ledger) : Prop :=
  Relation.ReflTransGen (fun s s' => ∃ act, allowed s act ∧ s' = act.after crates s) { db := migrated } s

/-- The ULID that a call mints for an agent. -/
def Call.agent_id : Call → Option String
  | .register_agent req => some req.id
  | .upsert_ssh_target id _ _ => some id
  | _ => none

/-- No agent gets the empty text for its ULID. -/
def Act.minted : Act → Prop
  | .call c => c.agent_id ≠ some ""
  | .prune_chunk .. => True

/-- No chunk deletes a desired state of an operation that still awaits its approval, and the
specs of such an operation are read back from their texts as they were. -/
def spares_pending (crates : Crates) (s : Ledger) : Act → Prop
  | .call (.create_operation req) => req.requires_approval = true → ∀ r ∈ req.resources, ReadsBack crates r
  | .call _ => True
  | .prune_chunk CHUNK_SIZE scan max_per_resource =>
    ∀ op ∈ s.db.rows .operations, op.status = .pending_approval → ∀ d ∈ s.db.rows .desired_states,
      d.operation_id = op.id → d ∈ pruned CHUNK_SIZE scan max_per_resource (s.db.rows .desired_states)

/-- The invariant of these runs: an operation that awaits its approval was accepted, and
its resources are still stored. -/
structure Held (crates : Crates) (s : Ledger) : Prop where
  consistent : Consistent s.db
  agents : ∀ a ∈ s.db.rows .agents, a.id ≠ ""
  owned : ∀ d ∈ s.db.rows .desired_states, ∃ op ∈ s.db.rows .operations, op.id = d.operation_id
  stored : ∀ op ∈ s.db.rows .operations, op.status = .pending_approval →
    ∃ sub ∈ s.accepted, sub.op_id = op.id ∧ Stored crates s.db op.id sub.resources

section Agents

variable {crates : Crates} {db : Store}

private theorem wp_register_agent (crates : Crates) (req : RegisterRequest) (rows : sql.Rows Row) :
    (register_agent crates req).wp rows fun _ after => after .agents = rows .agents ++ [agent_row crates req] := by
  rw [register_agent]
  split
  · trivial
  · rw [wp_bind, wp_insert_into]
    intro id _
    rw [wp_bind]
    refine wp_mono ?_ (wp_record_audit_on _ _ _ _)
    rintro - after ⟨-, hframe⟩
    rw [wp_pure, hframe _ (by decide), Function.update_self]

private theorem wp_upsert_ssh_target (id name environment : String) (rows : sql.Rows Row) :
    (upsert_ssh_target id name environment).wp rows fun _ after =>
      after .agents = rows .agents ∨ after .agents = rows .agents ++ [{ id, name, environment, kind := "ssh" }] := by
  rw [upsert_ssh_target, wp_bind, wp_query]
  split
  · exact .inl rfl
  · rw [wp_bind, wp_insert_into]
    intro seq _
    exact .inr (Function.update_self _ _ _)

/-- An agent after a call was registered before it or gets the ULID that the call mints. -/
theorem agents_after (h : Consistent db) (call : Call) {a : AgentRow} (ha : a ∈ (call.after crates db).rows .agents) :
    a ∈ db.rows .agents ∨ call.agent_id = some a.id := by
  have hkept (hrows : (call.after crates db).rows .agents = db.rows .agents) : a ∈ db.rows .agents := hrows ▸ ha
  have hframe := call_frame crates h call .agents
  cases call with
  | register_agent req =>
    obtain ⟨e, -, hrows⟩ | ⟨out, after, hrun, hexec⟩ := exec_cases (register_agent crates req) db
    · exact .inl (hkept (congrFun hrows _))
    · rw [Call.after, hexec, run_of_wp (wp_register_agent crates req db.rows) hrun] at ha
      obtain hold | hnew := List.mem_append.mp ha
      · exact .inl hold
      · rw [List.mem_singleton.mp hnew]
        exact .inr rfl
  | upsert_ssh_target id name environment =>
    obtain ⟨e, -, hrows⟩ | ⟨out, after, hrun, hexec⟩ := exec_cases (upsert_ssh_target id name environment) db
    · exact .inl (hkept (congrFun hrows _))
    · rw [Call.after, hexec] at ha
      obtain hsame | hadded := run_of_wp (wp_upsert_ssh_target id name environment db.rows) hrun
      · exact .inl (hsame ▸ ha)
      · obtain hold | hnew := List.mem_append.mp (hadded ▸ ha)
        · exact .inl hold
        · rw [List.mem_singleton.mp hnew]
          exact .inr rfl
  | _ => exact .inl (hkept (hframe (by simp [Call.tables])))

end Agents

section Steps

variable {crates : Crates} {db after : Store} {op_id : String} {resources : List ResourceForRouting}

theorem Stored.of_rows (h : Stored crates db op_id resources)
    (hrows : (after.rows .desired_states).filter (fun d => d.operation_id == op_id) =
      (db.rows .desired_states).filter fun d => d.operation_id == op_id) : Stored crates after op_id resources := by
  refine ⟨?_, h.distinct, h.layered, h.read_back⟩
  rw [hrows]
  exact h.rows

private theorem mem_of_updated {which : OperationRow → Bool} {change : OperationRow → OperationRow}
    {operations : List OperationRow} (hchange : ∀ op, (change op).status ≠ .pending_approval) {op : OperationRow}
    (hop : op ∈ operations.map (updated which change)) (hpending : op.status = .pending_approval) : op ∈ operations := by
  obtain ⟨before, hbefore, rfl⟩ := List.mem_map.mp hop
  cases hwhich : which before with
  | false => rwa [updated_of_false hwhich]
  | true =>
    rw [updated_of_true hwhich] at hpending
    exact absurd hpending (hchange before)

/-- An operation that awaits its approval after a call was there before it, or the call submitted it. -/
theorem pending_kept (h : Consistent db) (call : Call) (hcall : ∀ req, call ≠ .create_operation req)
    {op : OperationRow} (hop : op ∈ (call.after crates db).rows .operations) (hpending : op.status = .pending_approval) :
    op ∈ db.rows .operations := by
  have hlength : ((call.after crates db).rows .operations).length = (db.rows .operations).length := by
    obtain ⟨g, hg, -⟩ := operations_decided h call hcall
    rw [hg, List.length_map]
  cases call_effect crates call h.assignment_ids with
  | unchanged hoperations _ => exact hoperations ▸ hop
  | deferred new _ _ hoperations _ | created new _ _ _ _ hoperations _ _ =>
    rw [hoperations, List.length_append, List.length_singleton] at hlength
    omega
  | approved other req new _ _ _ hoperations _ _ =>
    refine mem_of_updated (fun before => ?_) (hoperations ▸ hop) hpending
    simp only [OperationRow.approve]
    split <;> decide
  | rejected req hoperations _ =>
    exact mem_of_updated (fun _ => by simp [OperationRow.reject]) (hoperations ▸ hop) hpending
  | dispatched now g _ _ hoperations _ =>
    obtain ⟨chosen, hstarted⟩ := hoperations
    exact mem_of_updated (fun _ => by simp [OperationRow.start]) (hstarted ▸ hop) hpending
  | completed rep a _ _ hoperations _ =>
    rw [rolled_up] at hoperations
    split at hoperations
    · exact hoperations ▸ hop
    · refine mem_of_updated (fun before => ?_) (hoperations ▸ hop) hpending
      have hdecided := final_status_decided (operation_counts a.operation_id ((call.after crates db).rows .assignments))
      intro hstatus
      simp only [OperationRow.settle] at hstatus
      rw [hstatus] at hdecided
      cases hdecided

/-- What a submission stores is all there is for its operation. -/
private theorem stored_of_create {req : CreateRequest} {out : CreateOperationOutcome}
    (howned : ∀ d ∈ db.rows .desired_states, ∃ op ∈ db.rows .operations, op.id = d.operation_id)
    (hread : ∀ r ∈ req.resources, ReadsBack crates r)
    (hrun : (create_operation crates req).run db = (.ok out, after)) : Stored crates after req.op_id req.resources := by
  obtain ⟨layers, created, heffect⟩ := create_operation_spec hrun
  refine ⟨⟨db.seq .desired_states, numbered_of_create hrun fun d hd => ?_⟩, create_operation_distinct hrun,
    ⟨layers, heffect.layered⟩, hread⟩
  obtain ⟨op, hop, hid⟩ := howned d hd
  exact hid ▸ heffect.fresh op hop

/-- A submission leaves what is stored for other operations. -/
private theorem Stored.of_create {req : CreateRequest} {out : CreateOperationOutcome}
    (h : Stored crates db op_id resources) (hne : op_id ≠ req.op_id)
    (hrun : (create_operation crates req).run db = (.ok out, after)) : Stored crates after op_id resources := by
  apply h.of_rows
  have hnone : (numbered req.op_id (db.seq .desired_states) req.resources).filter
      (fun d => d.operation_id == op_id) = [] := by
    refine List.filter_eq_nil_iff.mpr fun d hd => ?_
    obtain ⟨i, r, -, rfl⟩ := mem_numbered.mp hd
    simpa [desired_state_row] using hne.symm
  rw [(create_operation_numbers hrun).1, List.filter_append, hnone, List.append_nil]

theorem pruned_subset (CHUNK_SIZE : ℕ+) (scan : Scan DesiredStateRow) (max_per_resource : ℕ+)
    (rows : List DesiredStateRow) : pruned CHUNK_SIZE scan max_per_resource rows ⊆ rows :=
  List.filter_subset_self rows

/-- A chunk that spares the rows of an operation leaves them as they are. -/
private theorem filter_pruned {CHUNK_SIZE : ℕ+} {scan : Scan DesiredStateRow} {max_per_resource : ℕ+}
    {rows : List DesiredStateRow}
    (h : ∀ d ∈ rows, d.operation_id = op_id → d ∈ pruned CHUNK_SIZE scan max_per_resource rows) :
    (pruned CHUNK_SIZE scan max_per_resource rows).filter (fun d => d.operation_id == op_id) =
      rows.filter fun d => d.operation_id == op_id := by
  have hpruned := h
  rw [pruned, delete_chunk, delete_ids] at hpruned ⊢
  rw [List.filter_filter]
  refine List.filter_congr fun d hd => ?_
  cases hid : d.operation_id == op_id with
  | false => simp
  | true => simpa using (List.mem_filter.mp (hpruned d hd (by simpa using hid))).2

end Steps

section Invariant

variable {crates : Crates} {s : Ledger}

theorem held_migrated (crates : Crates) : Held crates { db := migrated } :=
  ⟨consistent_migrated, by simp [migrated], by simp [migrated], by simp [migrated]⟩

private theorem agents_minted (h : Held crates s) {call : Call} (hminted : call.agent_id ≠ some "") :
    ∀ a ∈ (call.after crates s.db).rows .agents, a.id ≠ "" := by
  intro a ha heq
  obtain hold | hnew := agents_after h.consistent call ha
  · exact h.agents a hold heq
  · exact hminted (hnew.trans (congrArg some heq))

/-- A call other than a submission only decides operations. -/
private theorem Held.decide (h : Held crates s) {call : Call} (hminted : call.agent_id ≠ some "")
    (hcall : ∀ req, call ≠ .create_operation req) (more : List CreateRequest) :
    Held crates { db := call.after crates s.db, accepted := s.accepted ++ more } := by
  have hstates := desired_states_kept crates h.consistent call hcall
  refine ⟨h.consistent.after call, agents_minted h hminted, ?_, ?_⟩
  · intro d hd
    rw [hstates] at hd
    obtain ⟨op, hop, hid⟩ := h.owned d hd
    obtain ⟨g, hg, hsame⟩ := operations_decided h.consistent call hcall
    exact ⟨g op, hg ▸ List.mem_map_of_mem hop, (hsame op hop).1.id.trans hid⟩
  · intro op hop hpending
    obtain ⟨sub, hsub, hid, hstored⟩ := h.stored op (pending_kept h.consistent call hcall hop hpending) hpending
    exact ⟨sub, List.mem_append_left _ hsub, hid, hstored.of_rows (congrArg _ hstates)⟩

private theorem Held.create (h : Held crates s) {req : CreateRequest} {out : CreateOperationOutcome} {after : Store}
    (hread : req.requires_approval = true → ∀ r ∈ req.resources, ReadsBack crates r)
    (hexec : (create_operation crates req).exec s.db = (.ok out, after))
    (hrun : (create_operation crates req).run s.db = (.ok out, after)) :
    Held crates { db := after, accepted := s.accepted ++ [req] } := by
  obtain ⟨layers, created, heffect⟩ := create_operation_spec hrun
  have hafter : (Call.create_operation req).after crates s.db = after := congrArg Prod.snd hexec
  have hid : (created_operation crates req created.length).id = req.op_id := by
    rw [created_operation]
    split <;> rfl
  have hconsistent := @Consistent.after crates s.db h.consistent (.create_operation req)
  rw [hafter] at hconsistent
  refine ⟨hconsistent, ?_, ?_, ?_⟩
  · have hkept := agents_minted h (show (Call.create_operation req).agent_id ≠ some "" by simp [Call.agent_id])
    rwa [hafter] at hkept
  · intro d hd
    rw [(create_operation_numbers hrun).1] at hd
    rw [heffect.operations]
    obtain hold | hnew := List.mem_append.mp hd
    · obtain ⟨op, hop, howner⟩ := h.owned d hold
      exact ⟨op, List.mem_append_left _ hop, howner⟩
    · obtain ⟨i, r, -, rfl⟩ := mem_numbered.mp hnew
      exact ⟨_, List.mem_append_right _ (List.mem_singleton_self _), hid⟩
  · intro op hop hpending
    rw [heffect.operations] at hop
    obtain hold | hnew := List.mem_append.mp hop
    · obtain ⟨sub, hsub, hsub_id, hstored⟩ := h.stored op hold hpending
      exact ⟨sub, List.mem_append_left _ hsub, hsub_id, hstored.of_create (heffect.fresh op hold) hrun⟩
    · obtain rfl := List.mem_singleton.mp hnew
      refine ⟨req, List.mem_append_right _ (List.mem_singleton_self _), hid.symm, ?_⟩
      rw [hid]
      refine stored_of_create h.owned (hread ?_) hrun
      cases happroval : req.requires_approval with
      | true => rfl
      | false =>
        rw [created_operation] at hpending
        split at hpending
        · cases hpending
        · simp [operation_row, initial_operation_status, happroval] at hpending

/-- Each step that meets the condition keeps the invariant. -/
theorem Held.after (h : Held crates s) {act : Act} (hminted : act.minted) (hspares : spares_pending crates s act) :
    Held crates (act.after crates s) := by
  cases act with
  | call c =>
    by_cases hcall : ∃ req, c = .create_operation req
    · obtain ⟨req, rfl⟩ := hcall
      obtain ⟨e, hfailed, hrows⟩ | ⟨out, after, hrun, hexec⟩ := exec_cases (create_operation crates req) s.db
      · have hsame {t : Table} : ((Call.create_operation req).after crates s.db).rows t = s.db.rows t := congrFun hrows t
        have hconsistent := @Consistent.after crates s.db h.consistent (.create_operation req)
        refine ⟨hconsistent, ?_, ?_, ?_⟩
        · simpa [Act.after, hsame] using h.agents
        · simpa [Act.after, hsame] using h.owned
        · intro op hop hpending
          obtain ⟨sub, hsub, hid, hstored⟩ := h.stored op (hsame ▸ hop) hpending
          exact ⟨sub, List.mem_append_left _ hsub, hid, hstored.of_rows (congrArg _ hsame)⟩
      · have hheld := h.create hspares hexec hrun
        simpa [Act.after, Call.after, Call.accepted, hexec] using hheld
    · exact h.decide hminted (not_exists.mp hcall) _
  | prune_chunk CHUNK_SIZE scan max_per_resource =>
    have hsame {t : Table} (ht : t ≠ .desired_states) :
        (s.db.set_rows .desired_states (pruned CHUNK_SIZE scan max_per_resource (s.db.rows .desired_states))).rows t =
          s.db.rows t := Db.set_rows_of_ne _ _ ht
    refine ⟨?_, ?_, ?_, ?_⟩
    · exact consistent_of_rows h.consistent (hsame (by decide)) (hsame (by decide))
    · simpa [Act.after] using h.agents
    · intro d hd
      rw [Act.after, Db.set_rows_self] at hd
      rw [Act.after, hsame (by decide)]
      exact h.owned d (pruned_subset _ _ _ _ hd)
    · intro op hop hpending
      rw [Act.after, hsame (by decide)] at hop
      obtain ⟨sub, hsub, hid, hstored⟩ := h.stored op hop hpending
      refine ⟨sub, hsub, hid, hstored.of_rows ?_⟩
      rw [Act.after, Db.set_rows_self]
      exact filter_pruned (hspares op hop hpending)

theorem held_recorded (h : LedgerRun crates (fun s act => act.minted ∧ spares_pending crates s act) s) : Held crates s := by
  induction h with
  | refl => exact held_migrated crates
  | tail _ hstep ih =>
    obtain ⟨act, ⟨hminted, hspares⟩, rfl⟩ := hstep
    exact ih.after hminted hspares

end Invariant

/-- In every run whose steps meet the condition, the preview of every operation that
awaits its approval shows what was submitted, and an approval dispatches what it shows. -/
theorem preview_is_dispatched {crates : Crates} {s : Ledger}
    (hrun : LedgerRun crates (fun s act => act.minted ∧ spares_pending crates s act) s) {op : OperationRow}
    (hop : op ∈ s.db.rows .operations) (hpending : op.status = .pending_approval) :
    ∃ sub ∈ s.accepted, sub.op_id = op.id ∧ ShownAsDispatched crates s.db op.id sub.resources := by
  have hheld := held_recorded hrun
  obtain ⟨sub, hsub, hid, hstored⟩ := hheld.stored op hop hpending
  refine ⟨sub, hsub, hid, hstored.shown_as_dispatched hheld.consistent.operation_ids hop ?_ hheld.agents⟩
  simp [awaits_approval, hpending]

/-- The ledger after a list of steps. -/
def act_all (crates : Crates) (acts : List Act) (s : Ledger) : Ledger :=
  acts.foldl (fun s act => act.after crates s) s

/-- A file for the agent, submitted under the given id. -/
def file_submission (op_id : String) (requires_approval : Bool) : CreateRequest :=
  { submission [resource "r0" "a" []] none with op_id, requires_approval }

def file_crates : Crates := crates_on [manifest "a" []]

/-- An agent, and a submission that awaits its approval. -/
def file_awaiting : Ledger :=
  act_all file_crates [.call (.register_agent (registration "a")), .call (.create_operation (file_submission "op" true))]
    { db := migrated }

def file_approval : ApproveRequest where
  op_id := "op"
  approver_display := "bob"
  actor := "user:bob"
  reason := none
  now := midnight
  audit_now := midnight
  ulid n := String.ofList (List.replicate n 'a')
  scan := Scan.insertion

theorem file_awaiting_reached :
    LedgerRun file_crates (fun s act => act.minted ∧ spares_pending file_crates s act) file_awaiting := by
  have hread : ReadsBack file_crates (resource "r0" "a" []) := by
    intro value hvalue
    have hsent : dispatched_value file_crates (resource "r0" "a" []).resource_json =
        .ok (strip_routing_hints (manifest "a" [])) := by decide +kernel
    obtain rfl := Except.ok.inj (hsent.symm.trans hvalue)
    decide +kernel
  refine .tail (.single ⟨.call (.register_agent (registration "a")), ⟨?_, trivial⟩, rfl⟩)
    ⟨.call (.create_operation (file_submission "op" true)), ⟨?_, ?_⟩, rfl⟩
  · simp [Act.minted, Call.agent_id, registration]
  · simp [Act.minted, Call.agent_id]
  · simpa [spares_pending, file_submission, submission] using hread

theorem file_approval_ulid : Function.Injective file_approval.ulid := by
  intro m n heq
  have hlist := String.ofList_injective heq
  simpa using congrArg List.length hlist

theorem awaiting_is_dispatched : ∃ items count after created,
    (list_desired_state_for_operation file_crates "op").run file_awaiting.db = (.ok items, file_awaiting.db) ∧
      items.map (fun item => (item.resource_id, item.agent_id)) = [("r0", "a")] ∧
      (approve_operation file_crates file_approval).run file_awaiting.db = (.ok count, after) ∧
      after.rows .assignments = file_awaiting.db.rows .assignments ++ created ∧ Carried file_crates items created := by
  have hids : (file_awaiting.db.rows .operations).map (fun op => (op.id, op.status)) = [("op", .pending_approval)] := by decide
  have hnone : (file_awaiting.db.rows .assignments).length = 0 := by decide
  have hshown : ((list_desired_state_for_operation file_crates "op").run file_awaiting.db).1.toOption.map
      (List.map fun item => (item.resource_id, item.agent_id)) = some [("r0", "a")] := by decide
  obtain ⟨op, hop, hkey⟩ := List.mem_map.mp (hids ▸ List.mem_singleton_self ("op", OperationStatus.pending_approval))
  obtain ⟨hid, hpending⟩ := Prod.mk.inj hkey
  obtain ⟨sub, -, -, items, hitems, -, -, hdispatch⟩ := preview_is_dispatched file_awaiting_reached hop hpending
  obtain ⟨count, after, created, happroved, hcreated, -, hcarried⟩ := hdispatch file_approval hid.symm file_approval_ulid (by
    rw [List.length_eq_zero_iff.mp hnone]
    simp)
  rw [hid] at hitems
  rw [hitems] at hshown
  exact ⟨items, count, after, created, hitems, Option.some.inj hshown, happroved, hcreated, hcarried⟩

/-- The same file submitted once more, and a sweep that keeps one desired state of each resource. -/
def file_swept : Ledger :=
  act_all file_crates [.call (.create_operation (file_submission "later" false)), .prune_chunk 5000 Scan.insertion 1]
    file_awaiting

/-- The sweep takes the file from the operation that awaits its approval: the preview is empty. -/
theorem swept_is_not_shown : ¬ ∀ (crates : Crates) (s : Ledger), LedgerRun crates (fun _ act => act.minted) s →
    ∀ op ∈ s.db.rows .operations, op.status = .pending_approval →
      ∃ sub ∈ s.accepted, sub.op_id = op.id ∧ ShownAsDispatched crates s.db op.id sub.resources := by
  intro h
  have hrun : LedgerRun file_crates (fun _ act => act.minted) file_swept := by
    refine .tail (.tail (.tail (.single ⟨.call (.register_agent (registration "a")), ?_, rfl⟩)
      ⟨.call (.create_operation (file_submission "op" true)), ?_, rfl⟩)
      ⟨.call (.create_operation (file_submission "later" false)), ?_, rfl⟩)
      ⟨.prune_chunk 5000 Scan.insertion 1, trivial, rfl⟩
    · simp [Act.minted, Call.agent_id, registration]
    · simp [Act.minted, Call.agent_id]
    · simp [Act.minted, Call.agent_id]
  have hids : (file_swept.db.rows .operations).map (fun op => (op.id, op.status)) =
      [("op", .pending_approval), ("later", .pending)] := by decide
  have haccepted : file_swept.accepted.map (fun sub => sub.resources.length) = [1, 1] := by decide
  have hempty : ((list_desired_state_for_operation file_crates "op").run file_swept.db).1.toOption.map List.length = some 0 := by
    decide
  have hfirst : ("op", OperationStatus.pending_approval) ∈
      (file_swept.db.rows .operations).map fun op => (op.id, op.status) := by
    rw [hids]
    exact List.mem_cons_self
  obtain ⟨op, hop, hkey⟩ := List.mem_map.mp hfirst
  obtain ⟨hid, hpending⟩ := Prod.mk.inj hkey
  obtain ⟨sub, hsub, -, items, hitems, hshown, -⟩ := h file_crates file_swept hrun op hop hpending
  have hlength : sub.resources.length ∈ [1, 1] := haccepted ▸ List.mem_map_of_mem hsub
  rw [hid] at hitems
  rw [hitems] at hempty
  have hnone : items.length = 0 := Option.some.inj hempty
  have hsame := hshown.length_eq
  rw [hsame, hnone] at hlength
  simp at hlength

end iac_controlplane.store
