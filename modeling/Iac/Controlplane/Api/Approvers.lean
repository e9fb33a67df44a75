import Iac.Controlplane.Api.Operations
import Iac.Controlplane.Store.Consistent

open iac_controlplane.identity iac_controlplane.policy iac_controlplane.store serde_json sql

namespace iac_controlplane.api

/-- The names of the policies as the operation row stores them. -/
def names_value (policies : List Policy) : Value :=
  .array (policies.map fun p => .string p.name)

/-- The operation was submitted with these facts under these policies. -/
structure SubmittedUnder (crates : Crates) (policies : List Policy) (facts : OperationFacts) (op : OperationRow) : Prop where
  names : op.matched_policies_json = crates.to_string (names_value (evaluate policies facts))
  held : op.status = .pending_approval → (evaluate policies facts).any Policy.requires_approval = true

private theorem submitted_created {crates : Crates} {policies : List Policy} {identity : Identity} {sub : Submission}
    {routing : List ResourceForRouting} {n : Nat} :
    SubmittedUnder crates policies (facts_of sub.environment routing)
      (created_operation crates (create_request policies identity sub routing) n) := by
  refine ⟨?_, fun hstatus => ?_⟩
  · unfold created_operation
    split
    · simp [operation_row, create_request, names_value, Function.comp_def]
    · simp [operation_row, create_request, names_value, Function.comp_def]
  · cases hany : (evaluate policies (facts_of sub.environment routing)).any Policy.requires_approval with
    | true => rfl
    | false =>
      unfold created_operation at hstatus
      split at hstatus
      · cases hstatus
      · simp [operation_row, initial_operation_status, create_request, hany] at hstatus

/-- An operation that `submit` made stays submitted under the same policies, whatever calls follow. -/
theorem submitted_run {crates : Crates} {policies : List Policy} {identity : Identity} {sub : Submission}
    {out : CreateOperationOutcome} {db after later : Store} (h : Consistent db)
    (hsubmit : (submit crates policies identity sub).run db = (.ok out, after))
    (hrun : Run crates any_call after later) :
    ∃ routing op, sub.routing crates = .ok routing ∧ op ∈ later.rows .operations ∧ op.id = sub.op_id ∧
      SubmittedUnder crates policies (facts_of sub.environment routing) op := by
  unfold submit at hsubmit
  obtain ⟨identity, db₁, hrole, hsubmit⟩ := run_bind_eq_ok_iff.mp hsubmit
  obtain ⟨-, rfl⟩ := Prod.mk.inj hrole
  split at hsubmit
  · cases hsubmit
  · split at hsubmit
    · cases hsubmit
    · obtain ⟨routing, db₁, hrouted, hcreate⟩ := run_bind_eq_ok_iff.mp hsubmit
      obtain ⟨hrouting, rfl⟩ := Prod.mk.inj ((run_ofExcept _ _).symm.trans hrouted)
      obtain ⟨layers, created, heffect⟩ := create_operation_spec hcreate
      have hafter : after = (Call.create_operation (create_request policies identity sub routing)).after crates db := by
        rw [Call.after, exec_of_run_ok hcreate]
      have hnew : created_operation crates (create_request policies identity sub routing) created.length ∈
          after.rows .operations := by
        rw [heffect.operations]
        simp
      have hconsistent : Consistent after := hafter ▸ h.after _
      obtain ⟨op, hop, hsame, hundecided⟩ := operation_run hconsistent hrun hnew
      have hsubmitted := @submitted_created crates policies identity sub routing created.length
      refine ⟨routing, op, hrouting, hop, ?_, ?_, fun hstatus => hsubmitted.held ?_⟩
      · rw [hsame.id, created_operation]
        split <;> rfl
      · rw [hsame.matched_policies_json, hsubmitted.names]
      · have hopen := hundecided (by rw [hstatus]; rfl)
        unfold created_operation at hopen ⊢
        split at hopen
        · cases hopen
        · rename_i hnot
          rw [if_neg hnot]
          simp only [operation_row, initial_operation_status] at hopen ⊢
          split at hopen
          · rw [if_pos ‹_›]
          · cases hopen

/-- The caller may approve, and every matched policy with approvers lists them. -/
def Authorized (policies : List Policy) (facts : OperationFacts) (identity : Identity) : Prop :=
  identity.has_role .Approver = true ∧
    ∀ p ∈ evaluate policies facts, p.approvers ≠ [] → identity.display_name ∈ p.approvers

/-- The first policy with the name of a matched one leaves the caller out. -/
def FirstNamesakeExcludes (policies : List Policy) (facts : OperationFacts) (caller : String) : Prop :=
  ∃ p ∈ evaluate policies facts, ∃ first, policies.find? (fun q => q.name == p.name) = some first ∧
    excludes caller first = true

theorem excludes_iff {caller : String} {p : Policy} :
    excludes caller p = true ↔ p.approvers ≠ [] ∧ caller ∉ p.approvers := by
  unfold excludes
  split_ifs with hempty
  · simp [List.isEmpty_iff.mp hempty]
  · simp [List.isEmpty_iff.not.mp hempty]

theorem strings_of_names {crates : Crates} {policies : List Policy}
    (hread : crates.from_str (crates.to_string (names_value policies)) = .ok (names_value policies)) :
    strings_from_str crates (crates.to_string (names_value policies)) = some (policies.map Policy.name) := by
  rw [strings_from_str, hread]
  simp only [names_value]
  clear hread
  induction policies with
  | nil => rfl
  | cons p rest ih => simp [Value.as_str, ih]

theorem violated_eq_nil_iff {policies matched : List Policy} {caller : String} :
    violated policies caller (matched.map Policy.name) = [] ↔
      ¬ ∃ p ∈ matched, ∃ first, policies.find? (fun q => q.name == p.name) = some first ∧ excludes caller first = true := by
  simp only [violated, List.filter_eq_nil_iff, List.forall_mem_map, not_exists, not_and]
  refine forall₂_congr fun p _ => ?_
  cases policies.find? fun q => q.name == p.name with
  | none => simp
  | some first => simp

private theorem exec_bind_ok {α β : Type} {p : Tx α} {k : α → Tx β} {db mid : Store} {a : α}
    (hp : p.run db = (.ok a, mid)) (hseq : mid = db) : (p >>= k).exec db = (k a).exec db := by
  subst hseq
  unfold Prog.exec
  rw [run_bind_ok hp]

private theorem run_get_operation {crates : Crates} {op_id : String} {db : Store} {op : OperationRow}
    (hfound : (db.rows .operations).find? (fun op => op.id == op_id) = some op) :
    ∃ view, (get_operation crates op_id).run db = (.ok view, db) ∧
      view.matched_policies = (strings_from_str crates op.matched_policies_json).getD [] := by
  unfold get_operation
  rw [run_bind_ok (run_query _ _), hfound]
  exact ⟨_, rfl, rfl⟩

/-- For a caller who is no admin `approve_op` is `approve_operation` behind two checks. -/
theorem approve_op_exec {crates : Crates} {policies : List Policy} {identity : Identity} {req : ApproveRequest}
    {db : Store} {op : OperationRow} (hadmin : identity.has_role .Admin = false)
    (hfound : (db.rows .operations).find? (fun op => op.id == req.op_id) = some op) :
    (approve_op crates policies identity req).exec db =
      if identity.has_role .Approver = true ∧ violated policies identity.display_name
          ((strings_from_str crates op.matched_policies_json).getD []) = [] then
        (approve_operation crates { req with
          approver_display := identity.display_name, actor := identity.audit_actor }).exec db
      else (.error .Forbidden, db) := by
  unfold approve_op
  cases hrole : identity.has_role .Approver with
  | false =>
    rw [require_role, hrole, if_neg (by simp)]
    rfl
  | true =>
    obtain ⟨view, hview, hmatched⟩ := @run_get_operation crates req.op_id db op hfound
    have hidentity : (Prog.ofExcept (require_role identity .Approver) : Tx Identity).run db = (.ok identity, db) := by
      rw [run_ofExcept, require_role, if_pos hrole]
    rw [exec_bind_ok hidentity rfl]
    simp only [hadmin, Bool.false_eq_true, ↓reduceIte]
    rw [exec_bind_ok hview rfl, hmatched]
    cases hviolated : violated policies identity.display_name
        ((strings_from_str crates op.matched_policies_json).getD []) with
    | nil => rfl
    | cons name rest => rfl

/-- A store whose only operation awaits its approval and stores no resources. -/
def awaiting (op : OperationRow) : Store :=
  migrated.set_rows .operations [op]

theorem approve_awaiting (crates : Crates) {req : ApproveRequest} {op : OperationRow} (hid : op.id = req.op_id)
    (hstatus : op.status = .pending_approval) :
    ((approve_operation crates req).exec (awaiting op)).1 = .ok 0 := by
  have hfound : ((awaiting op).rows .operations).find? (fun op => op.id == req.op_id) = some op := by
    simp [awaiting, hid]
  have hrows : req.scan.order (((awaiting op).rows .desired_states).filter fun d => d.operation_id == req.op_id) = [] := by
    have hperm := req.scan.perm (((awaiting op).rows .desired_states).filter fun d => d.operation_id == req.op_id)
    have hnone : (awaiting op).rows .desired_states = [] := rfl
    rw [hnone] at hperm ⊢
    exact hperm.eq_nil
  have hbuckets : approval_buckets crates op.environment (agent_entries (awaiting op).rows) [] = .ok [] := rfl
  have hawaits : awaits_approval req.op_id op = true := by simp [awaits_approval, hid, hstatus]
  obtain ⟨after, hrun⟩ : ∃ after, (approve_operation crates req).run (awaiting op) = (.ok 0, after) := by
    unfold approve_operation
    rw [run_bind_ok (run_query _ _), hfound]
    simp only [hstatus, ne_eq, not_true_eq_false, ↓reduceIte]
    rw [run_bind_ok (run_query _ _), run_bind_ok (run_query _ _), hrows, hbuckets, run_bind_ok (run_ofExcept _ _)]
    have hnone : (approve_assignments crates req [] 0).run (awaiting op) = (.ok 0, awaiting op) := rfl
    rw [run_bind_ok hnone, run_bind_ok (run_update_where _ _ _ _), if_neg (by simp [awaiting, hawaits])]
    obtain ⟨prev_hash, id, after, haudit, -, -⟩ := record_audit_on_spec crates req.audit_now.to_string
      (approve_audit req 0) ((awaiting op).set_rows .operations (((awaiting op).rows .operations).map
        (updated (awaits_approval req.op_id) (OperationRow.approve req 0))))
    exact ⟨after, run_bind_ok haudit⟩
  rw [exec_of_run_ok hrun]

/-- The row of an operation submitted with these facts that awaits its approval. -/
def awaiting_operation (crates : Crates) (policies : List Policy) (facts : OperationFacts) : OperationRow where
  id := "op"
  kind := "apply"
  environment := facts.environment
  requested_by := "alice"
  status := .pending_approval
  source_commit := none
  summary := none
  created_at := midnight.to_string
  requires_approval := true
  matched_policies_json := crates.to_string (names_value (evaluate policies facts))

def approval (op_id : String) : ApproveRequest where
  op_id
  approver_display := ""
  actor := ""
  reason := none
  now := midnight
  audit_now := midnight
  ulid n := toString n
  scan := .insertion

private theorem approved_status {crates : Crates} {req : ApproveRequest} {op_id : String} {db : Store}
    {op : OperationRow} {count : Nat} (hok : ((approve_operation crates req).exec db).1 = .ok count)
    (hfound : (db.rows .operations).find? (fun op => op.id == op_id) = some op) (hreq : req.op_id = op_id) :
    op.status = .pending_approval := by
  obtain ⟨e, herror, -⟩ | ⟨n, after, hrun, -⟩ := exec_cases (approve_operation crates req) db
  · cases herror.symm.trans hok
  · obtain ⟨other, routing_list, layers, created, heffect⟩ := approve_operation_spec hrun
    obtain rfl := Option.some.inj ((hreq ▸ heffect.found).symm.trans hfound)
    have hawaits := heffect.awaits
    simp only [awaits_approval, Bool.and_eq_true, beq_iff_eq] at hawaits
    exact hawaits.2

/-- Whatever store the approval of a submission comes to, the policies that
matched it let through only those whom they list. -/
def ApproversEnforced (crates : Crates) (policies : List Policy) (facts : OperationFacts) (identity : Identity) : Prop :=
  ∀ (db : Store) (op : OperationRow) (req : ApproveRequest) (count : Nat),
    (db.rows .operations).find? (fun op => op.id == req.op_id) = some op → SubmittedUnder crates policies facts op →
      ((approve_op crates policies identity req).exec db).1 = .ok count → Authorized policies facts identity

/-- Approvers are enforced exactly when the caller may not approve at all, is
one of those listed, nothing that matched needs an approval, or the first
policy with the name of a matched one leaves the caller out. -/
theorem approvers_are_enforced {crates : Crates} {policies : List Policy} {facts : OperationFacts} {identity : Identity}
    (hadmin : identity.has_role .Admin = false)
    (hread : crates.from_str (crates.to_string (names_value (evaluate policies facts))) =
      .ok (names_value (evaluate policies facts))) :
    ApproversEnforced crates policies facts identity ↔
      (identity.has_role .Approver = true → (evaluate policies facts).any Policy.requires_approval = true →
        (∃ p ∈ evaluate policies facts, excludes identity.display_name p = true) →
          FirstNamesakeExcludes policies facts identity.display_name) := by
  have hnames := strings_of_names hread
  have hmatched {op : OperationRow} (hsubmitted : SubmittedUnder crates policies facts op) :
      (strings_from_str crates op.matched_policies_json).getD [] = (evaluate policies facts).map Policy.name := by
    rw [hsubmitted.names, hnames, Option.getD_some]
  constructor
  · rintro henforced hrole hany ⟨p, hp, hexcludes⟩
    by_contra hfirst
    obtain ⟨happrovers, hunlisted⟩ := excludes_iff.mp hexcludes
    have hsubmitted : SubmittedUnder crates policies facts (awaiting_operation crates policies facts) :=
      ⟨rfl, fun _ => hany⟩
    have hok := @approve_op_exec crates policies identity (approval "op")
      (awaiting (awaiting_operation crates policies facts)) _ hadmin rfl
    rw [if_pos ⟨hrole, hmatched hsubmitted ▸ violated_eq_nil_iff.mpr hfirst⟩] at hok
    refine hunlisted ((henforced (awaiting (awaiting_operation crates policies facts)) _ (approval "op") 0 rfl
      hsubmitted ?_).2 p hp happrovers)
    rw [hok]
    exact approve_awaiting crates rfl rfl
  · intro hcond db op req count hfound hsubmitted hok
    rw [approve_op_exec hadmin hfound, hmatched hsubmitted] at hok
    split_ifs at hok with hchecks
    · refine ⟨hchecks.1, fun p hp happrovers => ?_⟩
      by_contra hunlisted
      have hany := hsubmitted.held (approved_status hok hfound rfl)
      exact violated_eq_nil_iff.mp hchecks.2 (hcond hchecks.1 hany ⟨p, hp, excludes_iff.mpr ⟨happrovers, hunlisted⟩⟩)

section Samples

/-- A package without dependencies, in the environment that submits it. -/
def package (name : String) : Value :=
  json [("kind", .string "Package"), ("metadata", json [("name", .string name)])]

/-- The submission of one package for the environment `prod`. -/
def package_submission : Submission where
  environment := "prod"
  requested_by := "carol"
  source_commit := none
  summary := none
  resources := [package "nginx"]
  canary := none
  now := midnight
  audit_now := midnight
  op_id := "op"
  ulid n := toString n

def user (username : String) (role : Role) : Identity :=
  .User username username [role]

/-- Two policies of one name; the second one lists its approvers. -/
def namesakes : List Policy :=
  [{ name := "prod", policy_match := { environment := some "prod" }, requires_approval := true },
    { name := "prod", policy_match := { kind := some "Package" }, requires_approval := true, approvers := ["bob"] }]

def package_facts : OperationFacts := ⟨"prod", ["Package"]⟩

def package_crates (policies : List Policy) : Crates :=
  let nginx := stamp_environment "prod" (package "nginx")
  Crates.on [nginx, iac_core.protocol.AssignmentPayload.to_value ⟨[nginx]⟩,
    names_value (evaluate policies package_facts)]

/-- The submission to a server with one agent. -/
def submitted_package (policies : List Policy) : Except ApiError CreateOperationOutcome × Store :=
  (submit (package_crates policies) policies (user "carol" .Operator) package_submission).exec
    ((Call.register_agent (registration "web")).after (package_crates policies) migrated)

/-- The second policy with the name `prod` matches too, but only the first one is looked up. -/
theorem unlisted_caller_approves :
    (submitted_package namesakes).1.toBool = true ∧
      ((approve_op (package_crates namesakes) namesakes (user "alice" .Approver) (approval "op")).exec
        (submitted_package namesakes).2).1.toOption = some 1 ∧
      (user "alice" .Approver).has_role .Admin = false ∧
      ¬ Authorized namesakes package_facts (user "alice" .Approver) := by
  refine ⟨by decide, by decide, by decide, fun h => ?_⟩
  have hlisted := h.2 ⟨"prod", { kind := some "Package" }, true, ["bob"]⟩ (by simp [namesakes, evaluate, Policy.matches,
    package_facts]) (by simp)
  simp [user, Identity.display_name] at hlisted

theorem listed_caller_approves :
    ApproversEnforced (package_crates namesakes) namesakes package_facts (user "bob" .Approver) := by
  refine (approvers_are_enforced (by decide) (by rfl)).mpr ?_
  rintro - - hexcluded
  exact absurd hexcluded (by decide)

end Samples

end iac_controlplane.api
