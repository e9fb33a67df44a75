import Iac.Controlplane.Api.Reversal
import Iac.Controlplane.Store.Provenance

open iac_controlplane.identity iac_controlplane.policy iac_controlplane.store serde_json sql

namespace iac_controlplane.api

/-- The calls behind the requests of agents and behind the SSH executor. -/
def of_agent : Call → Bool
  | .create_operation _ | .approve_operation _ | .reject_operation _ => false
  | _ => true

/-- A request to the server, with everything it draws from the outside. -/
inductive Request where
  | agent (call : Call) (hcall : of_agent call = true)
  | submit (identity : Identity) (sub : Submission)
  | approve_op (identity : Identity) (req : ApproveRequest)
  | reject_op (identity : Identity) (req : RejectRequest)
  | rollback_op (identity : Identity) (req : RollbackRequest)
  | revert_drift (identity : Identity) (drift : Option DriftSummary) (req : RevertRequest)

/-- The store after a request that no other request overlaps. -/
def Request.after (crates : Crates) (policies : List Policy) (request : Request) (db : Store) : Store :=
  match request with
  | .agent call _ => call.after crates db
  | .submit identity sub => ((api.submit crates policies identity sub).exec db).2
  | .approve_op identity req => ((api.approve_op crates policies identity req).exec db).2
  | .reject_op identity req => ((api.reject_op crates identity req).exec db).2
  | .rollback_op identity req => ((api.rollback_op crates policies identity req).exec db).2
  | .revert_drift identity drift req => ((api.revert_drift crates identity drift req).exec db).2

/-- The submission that a request brings in. -/
def Request.accepted (crates : Crates) (policies : List Policy) (request : Request) (db : Store) : List Submission :=
  match request with
  | .submit identity sub => if ((api.submit crates policies identity sub).exec db).1.isOk then [sub] else []
  | _ => []

theorem eq_of_mem_accepted {crates : Crates} {policies : List Policy} {identity : Identity} {sub other : Submission}
    {db : Store} (h : other ∈ (Request.submit identity sub).accepted crates policies db) : other = sub := by
  rw [Request.accepted] at h
  split at h
  · exact List.mem_singleton.mp h
  · cases h

/-- The stores of a serial run of requests from the migrated store, each with
the submissions accepted so far; `allowed` admits the requests. -/
inductive Serving (crates : Crates) (policies : List Policy) (allowed : Store → List Submission → Request → Prop) :
    Store → List Submission → Prop
  | start : Serving crates policies allowed migrated []
  | request {db : Store} {subs : List Submission} (h : Serving crates policies allowed db subs) (request : Request)
      (hallowed : allowed db subs request) :
      Serving crates policies allowed (request.after crates policies db) (subs ++ request.accepted crates policies db)

/-- The store and the submissions accepted after a list of requests. -/
def serve_all (crates : Crates) (policies : List Policy) (requests : List Request) : Store × List Submission :=
  requests.foldl (fun state request => (request.after crates policies state.1,
    state.2 ++ request.accepted crates policies state.1)) (migrated, [])

/-- Apart from the audit log, the tables went from `db` to `after` by one call. -/
def Acts (crates : Crates) (call : Call) (db after : Store) : Prop :=
  ∃ before : Store, before.rows = db.rows ∧
    SameOutside [.audit_events, .audit_chain_tip] (call.after crates before).rows after.rows

section Acts

variable {crates : Crates} {call : Call} {db after : Store}

theorem acts_call : Acts crates call db (call.after crates db) := ⟨db, rfl, SameOutside.refl _ _⟩

theorem backed_of_rows {db after : Store} (h : Backed crates db)
    (hstates : after.rows .desired_states = db.rows .desired_states)
    (hassignments : after.rows .assignments = db.rows .assignments) : Backed crates after := by
  rw [Backed, hstates, hassignments]
  exact h

theorem Acts.consistent (h : Acts crates call db after) (hdb : Consistent db) : Consistent after := by
  obtain ⟨before, hrows, hsame⟩ := h
  have hbefore : Consistent before := consistent_of_rows hdb (congrFun hrows _) (congrFun hrows _)
  exact consistent_of_rows (hbefore.after call) (hsame _ (by decide)) (hsame _ (by decide))

theorem Acts.backed (h : Acts crates call db after) (hdb : Consistent db) (hbacked : Backed crates db) :
    Backed crates after := by
  obtain ⟨before, hrows, hsame⟩ := h
  have hbefore : Consistent before := consistent_of_rows hdb (congrFun hrows _) (congrFun hrows _)
  have hback : Backed crates before := backed_of_rows hbacked (congrFun hrows _) (congrFun hrows _)
  exact backed_of_rows (hback.after hbefore call) (hsame _ (by decide)) (hsame _ (by decide))

theorem Acts.approvals (h : Acts crates call db after) (hdb : Consistent db) {op : OperationRow}
    (hop : op ∈ db.rows .operations) : ∃ op' ∈ after.rows .operations, KeepsApproval op op' := by
  obtain ⟨before, hrows, hsame⟩ := h
  have hbefore : Consistent before := consistent_of_rows hdb (congrFun hrows _) (congrFun hrows _)
  have hmem : op ∈ before.rows .operations := by rw [hrows]; exact hop
  obtain ⟨op', hop', hkeeps⟩ := approvals_after crates hbefore call hmem
  exact ⟨op', by rw [hsame _ (by decide)]; exact hop', hkeeps⟩

theorem Acts.desired_states_kept (h : Acts crates call db after) (hdb : Consistent db)
    (hcall : ∀ req, call ≠ .create_operation req) : after.rows .desired_states = db.rows .desired_states := by
  obtain ⟨before, hrows, hsame⟩ := h
  have hbefore : Consistent before := consistent_of_rows hdb (congrFun hrows _) (congrFun hrows _)
  rw [hsame _ (by decide), store.desired_states_kept crates hbefore call hcall, hrows]

end Acts

/-- A new operation with the resources of the request as desired states, and
its assignments unless it needs an approval. -/
structure Creates (crates : Crates) (req : CreateRequest) (db after : Store) : Prop where
  acts : Acts crates (.create_operation req) db after
  operation : ∃ op ∈ after.rows .operations, op.id = req.op_id ∧
    (req.requires_approval = true → undecided op.status = true)
  desired_states : ∃ stored, after.rows .desired_states = db.rows .desired_states ++ stored ∧
    ∀ d ∈ stored, ∃ r ∈ req.resources, ∃ id, d = desired_state_row req.op_id r id

theorem creates_of_run {crates : Crates} {req : CreateRequest} {out : CreateOperationOutcome} {db before mid after : Store}
    (hrows : before.rows = db.rows) (hrun : (create_operation crates req).run before = (.ok out, mid))
    (hsame : SameOutside [.audit_events, .audit_chain_tip] mid.rows after.rows) : Creates crates req db after := by
  obtain ⟨layers, created, heffect⟩ := create_operation_spec hrun
  obtain ⟨stored, hstored, hall⟩ := heffect.desired_states
  refine ⟨⟨before, hrows, ?_⟩, ⟨created_operation crates req created.length, ?_, ?_, ?_⟩, stored, ?_, ?_⟩
  · rw [Call.after, exec_of_run_ok hrun]
    exact hsame
  · rw [hsame _ (by decide), heffect.operations]
    exact List.mem_append_right _ (List.mem_singleton_self _)
  · rw [created_operation]
    split <;> rfl
  · intro happroval
    simp [created_operation, operation_row, initial_operation_status, happroval, undecided]
  · rw [hsame _ (by decide), hstored, hrows]
  · intro d hd
    obtain ⟨entry, hentry, id, hrow⟩ := fallible.exists_left hall hd
    exact ⟨entry.1, (List.of_mem_zip hentry).1, id, hrow⟩

/-- What a request can do to the operations, their resources and assignments. -/
inductive RequestEffect (crates : Crates) (policies : List Policy) (request : Request) (db after : Store)
    (accepted : List Submission) : Prop where
  | refused (hrows : after.rows = db.rows) (haccepted : accepted = [])
  | called (call : Call) (hcall : ∀ req, call ≠ .create_operation req) (hacts : Acts crates call db after)
      (haccepted : accepted = [])
  | submitted (identity : Identity) (sub : Submission) (routing : List ResourceForRouting)
      (hrouting : sub.routing crates = .ok routing)
      (hcreates : Creates crates (create_request policies identity sub routing) db after) (haccepted : accepted = [sub])
  | rolled_back (req : CreateRequest) (hcreates : Creates crates req db after)
      (hreturnable : ∀ r ∈ req.resources, Returnable crates db.rows r) (haccepted : accepted = [])
  | reverted (identity : Identity) (event : DriftSummary) (req : RevertRequest) (d : DesiredStateRow) (raw : Value)
      (routed : ResourceForRouting) (hrequest : request = .revert_drift identity (some event) req)
      (hoperator : identity.has_role .Operator = true) (hopen : event.resolved_at = none)
      (hlatest : latest_state db.rows event.resource_id = some d) (hread : crates.from_str d.spec_json = .ok raw)
      (hrouted : extract_routing crates d.environment raw = .ok routed)
      (hcreates : Creates crates (revert_create identity req event d.environment routed) db after)
      (haccepted : accepted = [])

private theorem wp_get_operation {crates : Crates} {op_id : String} {rows : sql.Rows Row} :
    (get_operation crates op_id).wp rows fun _ after => after = rows := by
  rw [get_operation, wp_bind, wp_query]
  cases (rows .operations).find? fun op => op.id == op_id with
  | none => trivial
  | some op => rfl

/-- What an accepted approval did: one call of `approve_operation`. -/
theorem approve_op_spec {crates : Crates} {policies : List Policy} {identity : Identity}
    {req : ApproveRequest} {count : Nat} {db after : Store}
    (h : (approve_op crates policies identity req).run db = (.ok count, after)) :
    ∃ (call : ApproveRequest) (before : Store), before.rows = db.rows ∧
      (approve_operation crates call).run before = (.ok count, after) := by
  rw [approve_op] at h
  obtain ⟨caller, -, hrest⟩ := run_ofExcept_bind_eq_ok_iff.mp h
  simp only at hrest
  split at hrest
  · exact ⟨_, db, rfl, hrest⟩
  · obtain ⟨view, before, hview, hrest⟩ := run_bind_eq_ok_iff.mp hrest
    have hrows := run_of_wp (Q := fun _ after => after = db.rows) wp_get_operation hview
    split at hrest
    · exact ⟨_, before, hrows, hrest⟩
    · cases hrest

/-- Every request has one of the effects. -/
theorem request_effect (crates : Crates) (policies : List Policy) (request : Request) (db : Store) :
    RequestEffect crates policies request db (request.after crates policies db) (request.accepted crates policies db) := by
  cases request with
  | agent call hcall =>
    refine .called call (fun req heq => ?_) acts_call rfl
    subst heq
    cases hcall
  | submit identity sub =>
    obtain ⟨e, hresult, hrows⟩ | ⟨out, after, hrun, hexec⟩ := exec_cases (api.submit crates policies identity sub) db
    · refine .refused hrows ?_
      rw [Request.accepted, hresult]
      rfl
    · obtain ⟨routing, hrouting, hcreate⟩ := submit_spec hrun
      refine .submitted identity sub routing hrouting ?_ ?_
      · rw [Request.after, hexec]
        exact creates_of_run rfl hcreate (SameOutside.refl _ _)
      · rw [Request.accepted, hexec]
        rfl
  | approve_op identity req =>
    rcases exec_cases (api.approve_op crates policies identity req) db with
      ⟨e, -, hrows⟩ | ⟨count, after, hrun, hexec⟩
    · exact .refused hrows rfl
    · obtain ⟨call, before, hrows, happrove⟩ := approve_op_spec hrun
      refine .called (.approve_operation call) (fun _ heq => by cases heq) ⟨before, hrows, ?_⟩ rfl
      rw [Request.after, hexec, Call.after, exec_of_run_ok happrove]
      exact SameOutside.refl _ _
  | reject_op identity req =>
    obtain ⟨e, -, hrows⟩ | ⟨out, after, hrun, hexec⟩ := exec_cases (api.reject_op crates identity req) db
    · exact .refused hrows rfl
    · rw [api.reject_op] at hrun
      obtain ⟨caller, -, hreject⟩ := run_ofExcept_bind_eq_ok_iff.mp hrun
      refine .called (.reject_operation { req with
        rejector_display := caller.display_name, actor := caller.audit_actor }) (fun _ heq => by cases heq) ⟨db, rfl, ?_⟩ rfl
      rw [Request.after, hexec, Call.after, exec_of_run_ok hreject]
      exact SameOutside.refl _ _
  | rollback_op identity req =>
    obtain ⟨e, -, hrows⟩ | ⟨out, after, hrun, hexec⟩ := exec_cases (api.rollback_op crates policies identity req) db
    · exact .refused hrows rfl
    · obtain ⟨before, mid, create, outcome, hrows, hcreate, hsame, hreturnable⟩ := rollback_op_spec hrun
      refine .rolled_back create ?_ hreturnable rfl
      rw [Request.after, hexec]
      exact creates_of_run hrows hcreate hsame
  | revert_drift identity drift req =>
    obtain ⟨e, -, hrows⟩ | ⟨out, after, hrun, hexec⟩ := exec_cases (api.revert_drift crates identity drift req) db
    · exact .refused hrows rfl
    · obtain ⟨hoperator, event, rfl, hopen, before, d, raw, routed, hrows, hlatest, hread, hrouted, hcreate⟩ :=
        revert_drift_spec hrun
      refine .reverted identity event req d raw routed rfl hoperator hopen hlatest hread hrouted ?_ rfl
      rw [Request.after, hexec]
      exact creates_of_run hrows hcreate (SameOutside.refl _ _)

/-- A request leaves the rows alone, or acts on the store as one of its calls. -/
theorem RequestEffect.acts {crates : Crates} {policies : List Policy} {request : Request} {db after : Store}
    {accepted : List Submission} (h : RequestEffect crates policies request db after accepted) :
    after.rows = db.rows ∨ ∃ call, Acts crates call db after := by
  cases h with
  | refused hrows _ => exact .inl hrows
  | called call _ hacts _ => exact .inr ⟨call, hacts⟩
  | submitted _ _ _ _ hcreates _ | rolled_back _ hcreates _ _ => exact .inr ⟨_, hcreates.acts⟩
  | reverted _ _ _ _ _ _ _ _ _ _ _ _ hcreates _ => exact .inr ⟨_, hcreates.acts⟩

end iac_controlplane.api
