import Iac.Controlplane.Store.Preview.Accepted

open fallible serde_json sorted_map sql

namespace iac_controlplane.store

/-- Two assignments send the same resources to the same agent, at the same point of their operations. -/
structure SameDispatch (crates : Crates) (a b : AssignmentRow) : Prop where
  agent_id : a.agent_id = b.agent_id
  layer : a.layer = b.layer
  batch : a.batch = b.batch
  status : a.status = b.status
  kind : a.kind = b.kind
  payload : ∃ sent sent' : List Value, a.payload_json = payload_json crates sent ∧
    b.payload_json = payload_json crates sent' ∧ sent.Perm sent'

section Routes

variable {α : Type}

theorem forall₂_square {β γ δ : Type} {P : α → β → Prop} {Q : α → γ → Prop} {R : β → δ → Prop} {S : γ → δ → Prop}
    {xs : List α} {ys : List β} {as : List γ} {bs : List δ} (hP : List.Forall₂ P xs ys) (hQ : List.Forall₂ Q xs as)
    (hR : List.Forall₂ R ys bs) (h : ∀ x y a b, P x y → Q x a → R y b → S a b) : List.Forall₂ S as bs := by
  induction hP generalizing as bs with
  | nil =>
    cases hQ
    cases hR
    exact .nil
  | cons hp hP ih =>
    cases hQ with
    | cons hq hQ =>
      cases hR with
      | cons hr hR => exact .cons (h _ _ _ _ hp hq hr) (ih hQ hR)

theorem items_for_perm {entries entries' : List ((String × Int) × α)} (h : entries.Perm entries') (agent_id : String)
    (layer : Int) : (items_for agent_id layer entries).Perm (items_for agent_id layer entries') :=
  (h.filter _).map _

/-- The order in which resources are routed shows only inside the buckets. -/
theorem push_all_of_perm {entries entries' : List ((String × Int) × α)} (h : entries.Perm entries') :
    List.Forall₂ (fun bucket bucket' => bucket.1 = bucket'.1 ∧ bucket.2.Perm bucket'.2)
      (push_all [] entries) (push_all [] entries') := by
  have hmatch {entries entries' : List ((String × Int) × α)} (h : entries.Perm entries') :
      ∀ bucket ∈ push_all [] entries, ∃ bucket' ∈ push_all [] entries', bucket.1 = bucket'.1 ∧ bucket.2.Perm bucket'.2 := by
    rintro ⟨key, items⟩ hbucket
    obtain ⟨hitems, hne⟩ := (mem_push_all entries (ofLex key).1 (ofLex key).2 items).mp hbucket
    have hperm := items_for_perm h (ofLex key).1 (ofLex key).2
    rw [← hitems] at hperm
    refine ⟨(key, _), (mem_push_all entries' (ofLex key).1 (ofLex key).2 _).mpr ⟨rfl, fun hnil => hne ?_⟩, rfl, hperm⟩
    rw [hnil] at hperm
    exact hperm.eq_nil
  refine (push_all_well_formed WellFormed.nil entries).sorted.forall₂
    (push_all_well_formed WellFormed.nil entries').sorted (hmatch h) fun bucket' hbucket' => ?_
  obtain ⟨bucket, hbucket, hkey, -⟩ := hmatch h.symm bucket' hbucket'
  exact ⟨bucket, hbucket, hkey.symm⟩

/-- Each resource has the layer of its longest path, whatever order the resources are in. -/
theorem layered_perm {crates : Crates} {resources routing : List ResourceForRouting} {layers layers' : List Int}
    (hids : (resources.map (·.resource_id)).Nodup) (hperm : routing.Perm resources)
    (h : depsort.compute_resource_layers crates resources = .ok layers)
    (h' : depsort.compute_resource_layers crates routing = .ok layers') :
    (resources.zip layers).Perm (routing.zip layers') := by
  obtain ⟨layer, hlayering, rfl⟩ := depsort.layering_of_layers hids h
  obtain ⟨layer', hlayering', rfl⟩ := depsort.layering_of_layers ((hperm.map _).nodup_iff.mpr hids) h'
  have hzip (list : List ResourceForRouting) (f : ResourceForRouting → Nat) :
      list.zip (list.map fun r => (f r : Int)) = list.map fun r => (r, (f r : Int)) := by
    induction list with
    | nil => rfl
    | cons r list ih => rw [List.map_cons, List.zip_cons_cons, ih, List.map_cons]
  rw [hzip, hzip]
  refine (hperm.symm.map _).trans (List.Perm.of_eq (List.map_congr_left fun r hr => ?_))
  rw [hlayering.eq_of_perm hlayering' hperm.symm (hperm.mem_iff.mp hr)]

end Routes

section Dispatch

variable {crates : Crates} {db : Store} {op_id : String} {resources : List ResourceForRouting}

/-- Without a canary no assignment is in a batch. -/
theorem batch_of_none (buckets : Buckets ResourceForRouting) : batch_of buckets none = fun _ _ => none := rfl

/-- Both submissions and approvals send what is read of the resources. -/
theorem Stored.values (h : Stored crates db op_id resources) (hsame : ∀ r ∈ resources, reread crates r = r)
    {items : List ResourceForRouting} (hitems : items ⊆ resources) :
    dispatched_values crates items = .ok (items.map (stripped_value crates)) ∧
      approved_values crates items = .ok (items.map (stripped_value crates)) := by
  have hsent : ∀ r ∈ items, dispatched_value crates r.resource_json = .ok (stripped_value crates r) ∧
      crates.from_str (stripped_text crates r) = .ok (stripped_value crates r) := by
    intro r hr
    exact h.sent (List.mem_map.mpr ⟨r, hitems hr, hsame r (hitems hr)⟩)
  rw [dispatched_values, approved_values, mapM_ok_iff, mapM_ok_iff, List.forall₂_map_right_iff, List.forall₂_same,
    List.forall₂_map_right_iff, List.forall₂_same]
  exact ⟨fun r hr => (hsent r hr).1, fun r hr => json_error_ok_iff.mpr (hsent r hr).2⟩

/-- Assignments of a submission and of an approval, made of the same routed
resources in two orders, are dispatched alike. -/
theorem Stored.same_dispatch (h : Stored crates db op_id resources) (hsame : ∀ r ∈ resources, reread crates r = r)
    {entries entries' : List ((String × Int) × ResourceForRouting)} (hentries : ∀ entry ∈ entries, entry.2 ∈ resources)
    (hperm : entries.Perm entries') {id id' now now' : String} {new created : List AssignmentRow}
    (hnew : List.Forall₂ (AssignmentOf crates id now (dispatched_values crates) fun _ _ => none) (push_all [] entries) new)
    (hcreated : List.Forall₂ (AssignmentOf crates id' now' (approved_values crates) fun _ _ => none)
      (push_all [] entries') created) : List.Forall₂ (SameDispatch crates) new created := by
  have hpushed {entries : List ((String × Int) × ResourceForRouting)} (hentries : ∀ entry ∈ entries, entry.2 ∈ resources) :
      ∀ bucket ∈ push_all [] entries, bucket.2 ⊆ resources := by
    rintro ⟨key, items⟩ hbucket r hr
    obtain ⟨rfl, -⟩ := (mem_push_all entries (ofLex key).1 (ofLex key).2 items).mp hbucket
    obtain ⟨entry, hentry, rfl⟩ := List.mem_map.mp hr
    exact hentries entry (List.mem_of_mem_filter hentry)
  have hentries' : ∀ entry ∈ entries', entry.2 ∈ resources := fun entry hentry => hentries entry (hperm.mem_iff.mpr hentry)
  refine forall₂_square (push_all_of_perm hperm) ((List.forall₂_and_left _ _).mpr ⟨hpushed hentries, hnew⟩)
    ((List.forall₂_and_left _ _).mpr ⟨hpushed hentries', hcreated⟩) ?_
  rintro bucket bucket' a b ⟨hkey, hitems⟩ ⟨hsub, _, values, hvalues, rfl⟩ ⟨hsub', _, values', hvalues', rfl⟩
  obtain rfl := Except.ok.inj ((h.values hsame hsub).1.symm.trans hvalues)
  obtain rfl := Except.ok.inj ((h.values hsame hsub').2.symm.trans hvalues')
  exact ⟨by rw [hkey], by rw [hkey], rfl, by rw [hkey], rfl, _, _, rfl, rfl, hitems.map _⟩

/-- Both ways to dispatch an operation leave it the same status. -/
theorem status_of_both {req : CreateRequest} {areq : ApproveRequest} {op : OperationRow} {count count' : Nat}
    (hcount : count = count') (happroval : req.requires_approval = false) :
    (created_operation crates req count).status = (op.approve areq count').status := by
  rw [created_operation, OperationRow.approve, ← hcount]
  by_cases hzero : count = 0
  · rw [if_pos ⟨happroval, hzero⟩, if_pos hzero]
  · rw [if_neg (fun h => hzero h.2), if_neg hzero]
    simp [operation_row, initial_operation_status, happroval]

end Dispatch

/-- The approval of the operation dispatches what a submission of the resources that needs
no approval dispatches from the same store. -/
def ApprovedAsSubmitted (crates : Crates) (db : Store) (op : OperationRow) (resources : List ResourceForRouting) : Prop :=
  ∀ (dreq : CreateRequest) (out : CreateOperationOutcome) (direct : Store), dreq.environment = op.environment →
    dreq.resources = resources → dreq.requires_approval = false → dreq.canary = none →
    (create_operation crates dreq).run db = (.ok out, direct) →
    ∀ areq : ApproveRequest, areq.op_id = op.id → Function.Injective areq.ulid →
      (∀ n, ∀ a ∈ db.rows .assignments, a.id ≠ areq.ulid n) →
      ∃ count after new created, (approve_operation crates areq).run db = (.ok count, after) ∧
        direct.rows .assignments = db.rows .assignments ++ new ∧
        after.rows .assignments = db.rows .assignments ++ created ∧
        List.Forall₂ (SameDispatch crates) new created ∧
        ∃ submitted ∈ direct.rows .operations, submitted.id = dreq.op_id ∧
          ∃ approved ∈ after.rows .operations, approved.id = op.id ∧ submitted.status = approved.status

theorem Stored.approved_as_submitted {crates : Crates} {db : Store} {op : OperationRow}
    {resources : List ResourceForRouting} (h : Stored crates db op.id resources)
    (hsame : ∀ r ∈ resources, reread crates r = r) (hids : ((db.rows .operations).map OperationRow.id).Nodup)
    (hop : op ∈ db.rows .operations) (hpending : op.status = .pending_approval) :
    ApprovedAsSubmitted crates db op resources := by
  intro dreq out direct henv hresources happroval hcanary hdirect areq hid hulid hfresh
  have hawaits : awaits_approval areq.op_id op = true := by simp [awaits_approval, hid, hpending]
  obtain ⟨buckets, hbuckets, hvalues⟩ := h.approval_buckets hid
  obtain ⟨count, after, happroved⟩ := approve_operation_succeeds hids hop hawaits hbuckets hvalues hulid hfresh
  obtain ⟨op', routing_list, layers', created, heffect⟩ := approve_operation_spec happroved
  have hfound : (db.rows .operations).find? (fun other => other.id == areq.op_id) = some op := by
    rw [hid]
    exact find_key_of_mem hids hop
  obtain rfl := Option.some.inj (hfound.symm.trans heffect.found)
  obtain ⟨layers, new, hnew⟩ := create_operation_spec hdirect
  have hdispatched := hnew.dispatched happroval
  have hlayered := hnew.layered
  rw [hresources] at hlayered hdispatched
  simp only [henv, hcanary, batch_of_none] at hdispatched
  obtain ⟨routing_list', layers'', hrouting, hperm, -⟩ := h.approval_routing hid
  obtain rfl := Except.ok.inj (hrouting.symm.trans heffect.sorted)
  rw [List.map_congr_left hsame, List.map_id'] at hperm
  have hzip := layered_perm h.distinct hperm hlayered heffect.layered
  have halike := h.same_dispatch hsame (fun entry hentry => ?_) (hzip.filterMap _) hdispatched heffect.dispatched
  · refine ⟨count, after, new, created, happroved, hnew.assignments, heffect.assignments, halike,
      created_operation crates dreq new.length, ?_, ?_, op.approve areq count, ?_, rfl, ?_⟩
    · rw [hnew.operations]
      exact List.mem_append_right _ (List.mem_singleton_self _)
    · rw [created_operation]
      split <;> rfl
    · rw [heffect.operations]
      exact List.mem_map.mpr ⟨op, hop, updated_of_true hawaits⟩
    · exact status_of_both (halike.length_eq.trans heffect.count_eq.symm) happroval
  · obtain ⟨⟨agent_id, layer⟩, r⟩ := entry
    exact (List.of_mem_zip (mem_routes.mp hentry).1).1

/-- In every run whose steps meet the condition, an approval dispatches what the accepted
submission would have dispatched, had it needed none. -/
theorem approval_dispatches_as_submission {crates : Crates} {s : Ledger}
    (hrun : LedgerRun crates (fun s act => act.minted ∧ spares_pending crates s act) s) {op : OperationRow}
    (hop : op ∈ s.db.rows .operations) (hpending : op.status = .pending_approval) :
    ∃ sub ∈ s.accepted, sub.op_id = op.id ∧
      ((∀ r ∈ sub.resources, reread crates r = r) → ApprovedAsSubmitted crates s.db op sub.resources) := by
  have hheld := held_recorded hrun
  obtain ⟨sub, hsub, hid, hstored⟩ := hheld.stored op hop hpending
  exact ⟨sub, hsub, hid, fun hsame => hstored.approved_as_submitted hsame hheld.consistent.operation_ids hop hpending⟩

/-- The file sent without an approval goes out as it does once it is approved. -/
theorem awaiting_is_sent_alike : ∃ out direct count after new created,
    (create_operation file_crates (file_submission "now" false)).run file_awaiting.db = (.ok out, direct) ∧
      (approve_operation file_crates file_approval).run file_awaiting.db = (.ok count, after) ∧
      direct.rows .assignments = new ∧ after.rows .assignments = created ∧ new.map (·.agent_id) = ["a"] ∧
      List.Forall₂ (SameDispatch file_crates) new created := by
  have hids : (file_awaiting.db.rows .operations).map (fun op => (op.id, op.status, op.environment)) =
      [("op", .pending_approval, "prod")] := by decide
  have hnone : file_awaiting.db.rows .assignments = [] := by decide
  have haccepted : file_awaiting.accepted.map (·.resources) = [[resource "r0" "a" []]] := by decide
  have hsame : reread file_crates (resource "r0" "a" []) = resource "r0" "a" [] := by decide
  have hsent : ((create_operation file_crates (file_submission "now" false)).run file_awaiting.db).1.toOption.isSome := by
    decide
  have hagents : (((create_operation file_crates (file_submission "now" false)).run file_awaiting.db).2.rows
      .assignments).map (·.agent_id) = ["a"] := by decide
  obtain ⟨op, hop, hkey⟩ := List.mem_map.mp (hids ▸ List.mem_singleton_self ("op", OperationStatus.pending_approval, "prod"))
  obtain ⟨hid, hkey⟩ := Prod.mk.inj hkey
  obtain ⟨hpending, henv⟩ := Prod.mk.inj hkey
  obtain ⟨sub, hsub, -, hsubmitted⟩ := approval_dispatches_as_submission file_awaiting_reached hop hpending
  have hresources : sub.resources = [resource "r0" "a" []] :=
    List.mem_singleton.mp (haccepted ▸ List.mem_map_of_mem hsub)
  obtain ⟨out, direct, hdirect⟩ : ∃ out direct,
      (create_operation file_crates (file_submission "now" false)).run file_awaiting.db = (.ok out, direct) := by
    cases hresult : (create_operation file_crates (file_submission "now" false)).run file_awaiting.db with
    | mk result db =>
      cases result with
      | error e => simp [hresult, Except.toOption] at hsent
      | ok out => exact ⟨out, db, rfl⟩
  rw [hdirect] at hagents
  obtain ⟨count, after, new, created, happroved, hnew, hcreated, halike, -⟩ :=
    hsubmitted (by simpa [hresources] using hsame) (file_submission "now" false) out direct (by rw [henv]; rfl)
      hresources.symm rfl rfl hdirect file_approval hid.symm file_approval_ulid (by simp [hnone])
  rw [hnone, List.nil_append] at hnew hcreated
  exact ⟨out, direct, count, after, new, created, hdirect, happroved, hnew, hcreated, hnew ▸ hagents, halike⟩

end iac_controlplane.store
