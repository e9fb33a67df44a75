import Iac.Controlplane.Depsort.LongestPath
import Iac.Controlplane.Store.CreateOperation.Spec
import Iac.Controlplane.Store.Run

open serde_json iac_core.protocol sql sorted_map

namespace iac_controlplane.store

section Buckets

variable {α : Type}

private theorem flatMap_upsert_perm {K : Type} [LinearOrder K] (key : K) (item : α) (m : List (K × List α)) :
    ((upsert key (fun items => items.getD [] ++ [item]) m).flatMap Prod.snd).Perm (m.flatMap Prod.snd ++ [item]) := by
  induction m with
  | nil => simp [upsert]
  | cons head rest ih =>
    obtain ⟨k, items⟩ := head
    rw [upsert]
    split
    · simp only [List.flatMap_cons, Option.getD_none, List.nil_append]
      exact List.perm_append_comm
    · split
      · simp only [List.flatMap_cons, Option.getD_some, List.append_assoc]
        exact List.perm_append_comm.append_left items
      · simp only [List.flatMap_cons, List.append_assoc]
        exact ih.append_left items

/-- The buckets hold what was pushed, each item once. -/
theorem push_all_perm (buckets : Buckets α) (entries : List ((String × Int) × α)) :
    ((push_all buckets entries).flatMap Prod.snd).Perm (buckets.flatMap Prod.snd ++ entries.map Prod.snd) := by
  induction entries generalizing buckets with
  | nil => simp [push_all]
  | cons entry entries ih =>
    have hrest := ih (push_bucket buckets entry.1.1 entry.1.2 entry.2)
    have hpush := flatMap_upsert_perm (toLex (entry.1.1, entry.1.2)) entry.2 buckets
    refine hrest.trans ((hpush.append_right _).trans ?_)
    rw [List.append_assoc]
    exact List.Perm.refl _

end Buckets

variable {environment : String} {agents : List AgentEntry} {layered : List (ResourceForRouting × Int)}

/-- The resources that no agent takes. -/
def left_over (environment : String) (agents : List AgentEntry) (resources : List ResourceForRouting) :
    List ResourceForRouting :=
  resources.filter fun r => match route_resource r environment agents with
    | .ok _ => false
    | .error _ => true

theorem unrouted_of_ids :
    (unrouted_of environment agents layered).map Prod.fst =
      (left_over environment agents (layered.map Prod.fst)).map (·.resource_id) := by
  induction layered with
  | nil => rfl
  | cons entry layered ih =>
    unfold unrouted_of left_over at ih ⊢
    cases hroute : route_resource entry.1 environment agents with
    | ok agent_id => simpa [hroute] using ih
    | error reason => simpa [hroute] using ih

/-- A resource is routed or left over, not both. -/
theorem routes_perm :
    ((routes environment agents layered).map Prod.snd ++ left_over environment agents (layered.map Prod.fst)).Perm
      (layered.map Prod.fst) := by
  induction layered with
  | nil => exact List.Perm.nil
  | cons entry layered ih =>
    unfold routes left_over at ih ⊢
    cases hroute : route_resource entry.1 environment agents with
    | ok agent_id => simpa [hroute] using ih
    | error reason =>
      simp only [List.filterMap_cons, hroute, List.map_cons, List.filter_cons, if_true]
      exact List.perm_middle.trans (ih.cons entry.1)

/-- An item in a bucket is routed to the agent of the bucket, and its layer is the bucket's. -/
theorem routed_of_mem_bucket {bucket : (String ×ₗ Int) × List ResourceForRouting}
    (hbucket : bucket ∈ push_all [] (routes environment agents layered)) {r : ResourceForRouting}
    (hr : r ∈ bucket.2) :
    (r, (ofLex bucket.1).2) ∈ layered ∧ route_resource r environment agents = .ok (ofLex bucket.1).1 := by
  obtain ⟨key, items⟩ := bucket
  obtain ⟨rfl, -⟩ := (mem_push_all _ (ofLex key).1 (ofLex key).2 items).mp hbucket
  obtain ⟨entry, hentry, rfl⟩ := List.mem_map.mp hr
  obtain ⟨hentry, hkey⟩ := List.mem_filter.mp hentry
  obtain ⟨target, r⟩ := entry
  obtain rfl : target = ((ofLex key).1, (ofLex key).2) := by simpa using hkey
  exact mem_routes.mp hentry

theorem layered_of_mem_bucket {bucket : (String ×ₗ Int) × List ResourceForRouting}
    (hbucket : bucket ∈ push_all [] (routes environment agents layered)) {r : ResourceForRouting}
    (hr : r ∈ bucket.2) : (r, (ofLex bucket.1).2) ∈ layered :=
  (routed_of_mem_bucket hbucket hr).1

/-- What is routed of a list. -/
theorem routes_resources : (routes environment agents layered).map Prod.snd =
    (layered.map Prod.fst).filter fun r => (route_resource r environment agents).toOption.isSome := by
  induction layered with
  | nil => rfl
  | cons entry layered ih =>
    unfold routes at ih ⊢
    cases hroute : route_resource entry.1 environment agents with
    | ok agent_id => simpa [hroute, Except.toOption] using ih
    | error reason => simpa [hroute, Except.toOption] using ih

/-- A spec without its routing hint. -/
def without_hint : Value → Value
  | .object fields => .object (fields.filter fun field => field.1 != "hostSelector")
  | spec => spec

/-- Everything but the routing hint of the spec is as before. -/
def HintRemoved (original value : Value) : Prop :=
  ∀ key, value.get key = if key = "spec" then (original.get key).map without_hint else original.get key

/-- What the removal makes of a field. -/
private def strip_field (f : String × Value) : String × Value :=
  match f with
  | (k, .object inner) => if k == "spec" then (k, .object (inner.filter fun g => g.1 != "hostSelector")) else f
  | f => f

private theorem strip_field_eq (f : String × Value) :
    strip_field f = if f.1 = "spec" then (f.1, without_hint f.2) else f := by
  obtain ⟨k, v⟩ := f
  cases v <;> simp [strip_field, without_hint]

theorem strip_routing_hints_spec (original : Value) : HintRemoved original (strip_routing_hints original) := by
  intro key
  cases original with
  | object fields =>
    have hkey : (fun f : String × Value => f.1 == key) ∘ strip_field = fun f => f.1 == key := by
      funext f
      rw [Function.comp_apply, strip_field_eq]
      split <;> rfl
    change ((fields.map strip_field).find? fun f => f.1 == key).map Prod.snd = _
    rw [List.find?_map, hkey]
    simp only [Value.get]
    cases hfound : fields.find? fun f => f.1 == key with
    | none => simp
    | some f =>
      obtain rfl : f.1 = key := by simpa using List.find?_some hfound
      rw [Option.map_some, Option.map_some, Option.map_some, strip_field_eq]
      split <;> rfl
  | _ => simp [strip_routing_hints, Value.remove_at, Value.get]

/-- What the agent gets for a resource. -/
def SentAs (crates : Crates) (r : ResourceForRouting) (value : Value) : Prop :=
  ∃ original, crates.from_str r.resource_json = .ok original ∧ value = strip_routing_hints original ∧
    HintRemoved original value

/-- The payload of the assignment lists the resources, in that order. -/
def PayloadOf (crates : Crates) (items : List ResourceForRouting) (row : AssignmentRow) : Prop :=
  ∃ values, List.Forall₂ (SentAs crates) items values ∧ row.payload_json = payload_json crates values

/-- Each resource stands in the payload of one assignment, behind everything there
that it needs, or is unrouted. -/
def Placed (crates : Crates) (resources : List ResourceForRouting) (created : List AssignmentRow)
    (unrouted : List (String × String)) : Prop :=
  ∃ (contents : List (List ResourceForRouting)) (left : List ResourceForRouting),
    List.Forall₂ (PayloadOf crates) contents created ∧
    unrouted.map Prod.fst = left.map (·.resource_id) ∧
    (contents.flatten ++ left).Perm resources ∧
    ∀ items ∈ contents, ∀ before r after, items = before ++ r :: after →
      ∀ d ∈ items, depsort.needs crates r d → d ∈ before

private theorem sent_of_dispatched {crates : Crates} {items : List ResourceForRouting} {values : List Value}
    (h : dispatched_values crates items = .ok values) : List.Forall₂ (SentAs crates) items values := by
  refine (fallible.mapM_ok_iff.mp h).imp fun r value hvalue => ?_
  obtain ⟨original, horiginal, hstrip⟩ := fallible.bind_eq_ok_iff.mp hvalue
  obtain rfl := Except.ok.inj hstrip
  exact ⟨original, json_error_ok_iff.mp horiginal, rfl, strip_routing_hints_spec original⟩

/-- The table takes each resource id of an operation once. -/
private theorem store_resources_distinct {op_id : String} {buckets buckets' : Buckets ResourceForRouting}
    {unrouted unrouted' : List (String × String)} {db after : Store}
    (h : (store_resources op_id environment agents layered buckets unrouted).run db =
      (.ok (buckets', unrouted'), after)) :
    (layered.map fun entry => entry.1.resource_id).Nodup ∧
      ∀ entry ∈ layered, ∀ row ∈ db.rows .desired_states, row.operation_id = op_id →
        row.resource_id ≠ entry.1.resource_id := by
  induction layered generalizing buckets unrouted db with
  | nil => exact ⟨List.nodup_nil, by simp⟩
  | cons entry layered ih =>
    obtain ⟨r, layer⟩ := entry
    rw [store_resources] at h
    obtain ⟨row, mid, hinsert, hnext⟩ := run_bind_eq_ok_iff.mp h
    obtain ⟨hrow, hfresh, hrows, -⟩ := run_sql_insert_ok hinsert
    have hrest : (layered.map fun entry => entry.1.resource_id).Nodup ∧
        ∀ entry ∈ layered, ∀ row ∈ mid.rows .desired_states, row.operation_id = op_id →
          row.resource_id ≠ entry.1.resource_id := by
      cases hroute : route_resource r environment agents with
      | ok agent_id | error reason =>
        rw [hroute] at hnext
        exact ih hnext
    obtain ⟨hnodup, hothers⟩ := hrest
    have hmid : row ∈ mid.rows .desired_states := by simp [hrows]
    constructor
    · rw [List.map_cons, List.nodup_cons]
      refine ⟨fun hmem => ?_, hnodup⟩
      obtain ⟨entry, hentry, heq⟩ := List.mem_map.mp hmem
      exact hothers entry hentry row hmid (by rw [hrow]; rfl) (by rw [hrow, heq]; rfl)
    · intro entry hentry old hold hop heq
      obtain rfl | hmem := List.mem_cons.mp hentry
      · have hclash := hfresh old hold
        rw [hrow] at hclash
        simp [clash, desired_state_row, hop, heq] at hclash
      · exact hothers entry hmem old (by simp [hrows, hold]) hop heq

theorem create_operation_distinct {crates : Crates} {req : CreateRequest} {out : CreateOperationOutcome}
    {db after : Store} (h : (create_operation crates req).run db = (.ok out, after)) :
    (req.resources.map (·.resource_id)).Nodup := by
  rw [create_operation, run_bind_ok (run_query _ _)] at h
  obtain ⟨row, db₁, -, h⟩ := run_bind_eq_ok_iff.mp h
  obtain ⟨layers, db₂, hlayered, h⟩ := run_bind_eq_ok_iff.mp h
  obtain ⟨hlayers, -⟩ := Prod.mk.inj hlayered
  obtain ⟨⟨buckets, unrouted⟩, db₃, hstore, -⟩ := run_bind_eq_ok_iff.mp h
  have hnodup := (store_resources_distinct hstore).1
  have hlength := depsort.compute_resource_layers_length hlayers
  have hids : ((req.resources.zip layers).map fun entry => entry.1.resource_id) = req.resources.map (·.resource_id) := by
    rw [← List.map_fst_zip (Nat.le_of_eq hlength.symm), List.map_map, List.map_fst_zip (Nat.le_of_eq hlength.symm)]
    rfl
  rwa [hids] at hnodup

variable {crates : Crates} {req : CreateRequest} {out : CreateOperationOutcome} {db after : Store} {layers : List Int}
  {created : List AssignmentRow}

/-- Inside a bucket no resource needs another: all are of one layer. -/
private theorem independent_in_bucket {resources : List ResourceForRouting}
    (hids : (resources.map (·.resource_id)).Nodup) (hlayers : depsort.compute_resource_layers crates resources = .ok layers)
    {bucket : (String ×ₗ Int) × List ResourceForRouting}
    (hbucket : bucket ∈ push_all [] (routes environment agents (resources.zip layers))) {r d : ResourceForRouting}
    (hr : r ∈ bucket.2) (hd : d ∈ bucket.2) : ¬ depsort.needs crates r d := by
  intro hneeds
  obtain ⟨i, hi⟩ := List.getElem?_of_mem (layered_of_mem_bucket hbucket hr)
  obtain ⟨j, hj⟩ := List.getElem?_of_mem (layered_of_mem_bucket hbucket hd)
  obtain ⟨hri, hli⟩ := List.getElem?_zip_eq_some.mp hi
  obtain ⟨hdj, hmj⟩ := List.getElem?_zip_eq_some.mp hj
  have hlt := (depsort.compute_resource_layers_above hids hlayers i j r d _ _ hri hli hdj hmj hneeds).2
  exact lt_irrefl _ hlt

private theorem CreateEffect.placed (h : CreateEffect crates req db out after layers created)
    (hids : (req.resources.map (·.resource_id)).Nodup) (happroval : req.requires_approval = false) :
    Placed crates req.resources created out.unrouted := by
  have hfst : (req.resources.zip layers).map Prod.fst = req.resources :=
    List.map_fst_zip (Nat.le_of_eq (depsort.compute_resource_layers_length h.layered).symm)
  let buckets := push_all [] (routes req.environment (agent_entries db.rows) (req.resources.zip layers))
  have hmade : List.Forall₂ (fun bucket row => PayloadOf crates bucket.2 row) buckets created := by
    refine (h.dispatched happroval).imp fun bucket row hrow => ?_
    obtain ⟨id, values, hvalues, rfl⟩ := hrow
    exact ⟨values, sent_of_dispatched hvalues, rfl⟩
  refine ⟨buckets.map Prod.snd, left_over req.environment (agent_entries db.rows) req.resources,
    List.forall₂_map_left_iff.mpr hmade, ?_, ?_, ?_⟩
  · rw [h.unrouted, unrouted_of_ids, hfst]
  · rw [← List.flatMap_def]
    have hpushed := push_all_perm [] (routes req.environment (agent_entries db.rows) (req.resources.zip layers))
    have hparts := @routes_perm req.environment (agent_entries db.rows) (req.resources.zip layers)
    rw [hfst] at hparts
    exact (hpushed.append_right _).trans hparts
  · rintro items hitems before r after' hsplit d hd hneeds
    obtain ⟨bucket, hbucket, rfl⟩ := List.mem_map.mp hitems
    have hr : r ∈ bucket.2 := by simp [hsplit]
    exact absurd hneeds (independent_in_bucket hids h.layered hbucket hr hd)

private theorem CreateEffect.distinct_targets (h : CreateEffect crates req db out after layers created) :
    (created.map fun row => (row.agent_id, row.layer)).Nodup := by
  cases happroval : req.requires_approval with
  | true => simp [h.deferred happroval]
  | false =>
    have hmade := h.dispatched happroval
    have hwf := push_all_well_formed WellFormed.nil
      (routes req.environment (agent_entries db.rows) (req.resources.zip layers))
    have hkeys : ((push_all [] (routes req.environment (agent_entries db.rows) (req.resources.zip layers))).map
        fun bucket => ofLex bucket.1) = created.map fun row => (row.agent_id, row.layer) := by
      apply List.forall₂_eq_eq_eq ▸ List.forall₂_map_left_iff.mpr (List.forall₂_map_right_iff.mpr ?_)
      refine hmade.imp fun bucket row hrow => ?_
      obtain ⟨id, values, -, rfl⟩ := hrow
      rfl
    rw [← hkeys, List.Nodup, List.pairwise_map]
    exact hwf.sorted.imp fun hlt heq => absurd (ofLex.injective heq) (ne_of_lt hlt)

/-- Every resource of a submission without approval is in exactly one place; one
that awaits approval has no assignment. -/
theorem create_operation_conserves (h : (create_operation crates req).run db = (.ok out, after)) :
    (req.resources.map (·.resource_id)).Nodup ∧
      ∃ created, after.rows .assignments = db.rows .assignments ++ created ∧
        (∀ row ∈ created, row.operation_id = req.op_id) ∧
        (created.map fun row => (row.agent_id, row.layer)).Nodup ∧
        (req.requires_approval = false → Placed crates req.resources created out.unrouted) ∧
        (req.requires_approval = true → created = [] ∧ out.unrouted.map Prod.fst =
          (left_over req.environment (agent_entries db.rows) req.resources).map (·.resource_id)) := by
  have hids := create_operation_distinct h
  obtain ⟨layers, created, heffect⟩ := create_operation_spec h
  refine ⟨hids, created, heffect.assignments, ?_, heffect.distinct_targets, heffect.placed hids, fun happroval => ?_⟩
  · intro row hrow
    cases happroval : req.requires_approval with
    | true => simp [heffect.deferred happroval] at hrow
    | false =>
      obtain ⟨bucket, -, id, values, -, rfl⟩ := fallible.exists_left (heffect.dispatched happroval) hrow
      rfl
  · have hlength := depsort.compute_resource_layers_length heffect.layered
    rw [heffect.unrouted, unrouted_of_ids, List.map_fst_zip (Nat.le_of_eq hlength.symm)]
    exact ⟨heffect.deferred happroval, rfl⟩

/-- Two resources for a registered agent, the second after the first, and one for nobody. -/
def mixed_submission : CreateRequest :=
  submission [resource "r0" "a" [], resource "r1" "a" ["r0"], resource "r2" "b" []] none

def mixed_crates : Crates := crates_on [manifest "a" [], manifest "a" ["r0"], manifest "b" []]

def one_agent : Store := call_all mixed_crates [.register_agent (registration "a")] migrated

theorem mixed_is_conserved : ∃ out after created,
    (create_operation mixed_crates mixed_submission).run one_agent = (.ok out, after) ∧
      after.rows .assignments = one_agent.rows .assignments ++ created ∧
      Placed mixed_crates mixed_submission.resources created out.unrouted := by
  have hok : ((create_operation mixed_crates mixed_submission).run one_agent).1.toBool = true := by decide
  cases hrun : (create_operation mixed_crates mixed_submission).run one_agent with
  | mk result after =>
    rw [hrun] at hok
    cases result with
    | error e => cases hok
    | ok out =>
      obtain ⟨-, created, hcreated, -, -, hplaced, -⟩ := create_operation_conserves hrun
      exact ⟨out, after, created, rfl, hcreated, hplaced rfl⟩

/-- A resource whose operation awaits approval has an agent, but is in no place. -/
theorem awaiting_is_nowhere : ¬ ∀ (crates : Crates) (req : CreateRequest) (db after : Store)
    (out : CreateOperationOutcome), (create_operation crates req).run db = (.ok out, after) →
      ∃ created, after.rows .assignments = db.rows .assignments ++ created ∧
        Placed crates req.resources created out.unrouted := by
  intro h
  let req : CreateRequest := { submission [resource "r0" "a" []] none with requires_approval := true }
  let run := (create_operation mixed_crates req).run one_agent
  have hresult : run.1.toOption.map (fun out => out.unrouted) = some [] := by decide
  have hlength : (run.2.rows .assignments).length = (one_agent.rows .assignments).length := by decide
  cases hrun : run with
  | mk result after =>
    rw [hrun] at hresult hlength
    cases result with
    | error e => cases hresult
    | ok out =>
      obtain ⟨created, hcreated, contents, left, hpayloads, hleft, hperm, -⟩ := h mixed_crates req one_agent after out hrun
      rw [hcreated, List.length_append] at hlength
      obtain rfl : created = [] := List.length_eq_zero_iff.mp (by omega)
      cases hpayloads
      have hunrouted : out.unrouted = [] := Option.some.inj hresult
      have hcount := hperm.length_eq
      rw [hunrouted] at hleft
      rw [List.map_eq_nil_iff.mp hleft.symm] at hcount
      cases hcount

end iac_controlplane.store
