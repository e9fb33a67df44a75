import Iac.Controlplane.Store.ApproveOperation
import Iac.Controlplane.Store.PrepareRollback.History

open fallible serde_json sql

namespace iac_controlplane.store

/-- A resource of an operation and the agent it routes to. -/
structure OperationDesiredStateItem where
  resource_id : String
  kind : String
  agent_id : String
  resource : Value
  deriving DecidableEq

/-- An empty agent id flags a resource that no agent takes. -/
def desired_state_item (crates : Crates) (environment : String) (agents : List AgentEntry) (d : DesiredStateRow) :
    Except ApiError OperationDesiredStateItem := do
  let value ← json_error (crates.from_str d.spec_json)
  let routing : ResourceForRouting :=
    { resource_id := d.resource_id, kind := d.kind, environment := d.environment, resource_json := d.spec_json,
      name := name_of value, host_selector := host_selector_of value }
  let agent_id := (route_resource routing environment agents).toOption.getD ""
  return { resource_id := d.resource_id, kind := d.kind, agent_id, resource := strip_routing_hints value }

def list_desired_state_for_operation (crates : Crates) (operation_id : String) :
    Tx (List OperationDesiredStateItem) := do
  let op_row ← sql_select fun db => (db .operations).find? fun op => op.id == operation_id
  match op_row with
  | none => Prog.throw .NotFound
  | some op_row => do
    let rows ← sql_select fun db =>
      ((db .desired_states).filter fun d => d.operation_id == operation_id).insertionSort fun a b => a.id ≤ b.id
    let agents ← sql_select agent_entries
    Prog.ofExcept (rows.mapM (desired_state_item crates op_row.environment agents))

/-- The assignments carry the items that are shown with an agent, each once, in a
payload of the agent shown, and nothing else. -/
def Carried (crates : Crates) (items : List OperationDesiredStateItem) (created : List AssignmentRow) : Prop :=
  ∃ parts : List (List OperationDesiredStateItem),
    List.Forall₂ (fun part a => (∀ item ∈ part, item.agent_id = a.agent_id) ∧
      a.payload_json = payload_json crates (part.map (·.resource))) parts created ∧
    parts.flatten.Perm (items.filter fun item => item.agent_id ≠ "")

/-- The preview of the operation shows these resources, each once, and an approval
in the same state dispatches what it shows. The ids of its assignments are new. -/
def ShownAsDispatched (crates : Crates) (db : Store) (op_id : String) (resources : List ResourceForRouting) : Prop :=
  ∃ items, (list_desired_state_for_operation crates op_id).run db = (.ok items, db) ∧
    List.Forall₂ (fun r item => item.resource_id = r.resource_id ∧ item.kind = r.kind ∧
      SentAs crates r item.resource) resources items ∧
    (items.map (·.resource_id)).Nodup ∧
    ∀ req : ApproveRequest, req.op_id = op_id → Function.Injective req.ulid →
      (∀ n, ∀ a ∈ db.rows .assignments, a.id ≠ req.ulid n) →
      ∃ count after created, (approve_operation crates req).run db = (.ok count, after) ∧
        after.rows .assignments = db.rows .assignments ++ created ∧
        (∀ a ∈ created, a.operation_id = op_id) ∧ Carried crates items created

/-- The resource as it is read again from the row that stores it. -/
def reread (crates : Crates) (r : ResourceForRouting) : ResourceForRouting :=
  match crates.from_str r.resource_json with
  | .ok value => { r with name := name_of value, host_selector := host_selector_of value }
  | .error _ => r

/-- What the agent gets of the resource; `null` stands for a text that is not read. -/
def stripped_value (crates : Crates) (r : ResourceForRouting) : Value :=
  match dispatched_value crates r.resource_json with
  | .ok value => value
  | .error _ => .null

def shown_item (crates : Crates) (environment : String) (agents : List AgentEntry) (r : ResourceForRouting) :
    OperationDesiredStateItem :=
  { resource_id := r.resource_id, kind := r.kind,
    agent_id := (route_resource r environment agents).toOption.getD "", resource := stripped_value crates r }

/-- The text that is written of the resource without its routing hints is read as the same value. -/
def ReadsBack (crates : Crates) (r : ResourceForRouting) : Prop :=
  ∀ value, dispatched_value crates r.resource_json = .ok value → crates.from_str (crates.to_string value) = .ok value

section Reading

variable {crates : Crates} {r : ResourceForRouting} {value : Value}

theorem reread_id (crates : Crates) (r : ResourceForRouting) : (reread crates r).resource_id = r.resource_id := by
  rw [reread]
  split <;> rfl

theorem reread_kind (crates : Crates) (r : ResourceForRouting) : (reread crates r).kind = r.kind := by
  rw [reread]
  split <;> rfl

theorem reread_json (crates : Crates) (r : ResourceForRouting) : (reread crates r).resource_json = r.resource_json := by
  rw [reread]
  split <;> rfl

theorem stripped_of_read (h : crates.from_str r.resource_json = .ok value) :
    dispatched_value crates r.resource_json = .ok (strip_routing_hints value) := by
  rw [dispatched_value, h]
  rfl

theorem stripped_value_reread (h : crates.from_str r.resource_json = .ok value) :
    stripped_value crates (reread crates r) = strip_routing_hints value := by
  rw [stripped_value, reread_json, stripped_of_read h]

theorem routing_of_stored (h : crates.from_str r.resource_json = .ok value) (op_id : String) (id : Nat) :
    routing_of_row crates (desired_state_row op_id r id) = .ok (reread crates r) := by
  simp only [routing_of_row, desired_state_row, reread, h]
  rfl

theorem item_of_stored (h : crates.from_str r.resource_json = .ok value) (environment : String)
    (agents : List AgentEntry) (op_id : String) (id : Nat) :
    desired_state_item crates environment agents (desired_state_row op_id r id) =
      .ok (shown_item crates environment agents (reread crates r)) := by
  rw [shown_item, stripped_value_reread h]
  simp only [desired_state_item, desired_state_row, reread, h]
  rfl

theorem read_of_layers {routing : List ResourceForRouting} {layers : List Int}
    (h : depsort.compute_resource_layers crates routing = .ok layers)
    (hids : (routing.map (·.resource_id)).Nodup) (hr : r ∈ routing) :
    ∃ value, crates.from_str r.resource_json = .ok value := by
  obtain ⟨i, hi⟩ := List.getElem?_of_mem hr
  obtain ⟨deps, hdeps, -⟩ := depsort.compute_resource_layers_names hids h hi
  obtain ⟨⟨value, hvalue, -⟩, -⟩ := depsort.read_depends_on_ok_iff.mp hdeps
  exact ⟨value, hvalue⟩

end Reading

/-- What the store holds of an operation that awaits its approval: the resources of
its submission, as they were accepted. -/
structure Stored (crates : Crates) (db : Store) (op_id : String) (resources : List ResourceForRouting) : Prop where
  rows : ∃ start, (db.rows .desired_states).filter (fun d => d.operation_id == op_id) = numbered op_id start resources
  distinct : (resources.map (·.resource_id)).Nodup
  layered : ∃ layers, depsort.compute_resource_layers crates resources = .ok layers
  read_back : ∀ r ∈ resources, ReadsBack crates r

section Shown

variable {crates : Crates} {db : Store} {op_id : String} {resources : List ResourceForRouting}

theorem Stored.read (h : Stored crates db op_id resources) {r : ResourceForRouting} (hr : r ∈ resources) :
    ∃ value, crates.from_str r.resource_json = .ok value := by
  obtain ⟨layers, hlayers⟩ := h.layered
  exact read_of_layers hlayers h.distinct hr

theorem numbered_cons (op_id : String) (start : Nat) (r : ResourceForRouting) (resources : List ResourceForRouting) :
    numbered op_id start (r :: resources) = desired_state_row op_id r start :: numbered op_id (start + 1) resources :=
  rfl

/-- A fallible map over the stored rows that reads each row alone. -/
theorem mapM_numbered {β : Type} {f : DesiredStateRow → Except ApiError β} {g : ResourceForRouting → β}
    (h : ∀ r ∈ resources, ∀ id, f (desired_state_row op_id r id) = .ok (g r)) (start : Nat) :
    (numbered op_id start resources).mapM f = .ok (resources.map g) := by
  rw [mapM_ok_iff]
  induction resources generalizing start with
  | nil => exact .nil
  | cons r resources ih =>
    obtain ⟨hr, hrest⟩ := List.forall_mem_cons.mp h
    exact .cons (hr start) (ih hrest (start + 1))

theorem numbered_sorted (op_id : String) (start : Nat) (resources : List ResourceForRouting) :
    (numbered op_id start resources).Pairwise fun a b => a.id ≤ b.id := by
  induction resources generalizing start with
  | nil => exact .nil
  | cons r resources ih =>
    rw [numbered_cons, List.pairwise_cons]
    refine ⟨fun d hd => ?_, ih (start + 1)⟩
    obtain ⟨i, r', -, rfl⟩ := mem_numbered.mp hd
    simp only [desired_state_row]
    omega

/-- The preview shows the resources of the submission in their order. -/
theorem Stored.preview (h : Stored crates db op_id resources) {op : OperationRow}
    (hop : (db.rows .operations).find? (fun op => op.id == op_id) = some op) :
    (list_desired_state_for_operation crates op_id).run db =
      (.ok (resources.map fun r => shown_item crates op.environment (agent_entries db.rows) (reread crates r)), db) := by
  obtain ⟨start, hrows⟩ := h.rows
  rw [list_desired_state_for_operation, run_bind_ok (run_query _ _), hop]
  simp only
  rw [run_bind_ok (run_query _ _), run_bind_ok (run_query _ _), run_ofExcept, hrows,
    (numbered_sorted op_id start resources).insertionSort_eq]
  refine Prod.ext (mapM_numbered (fun r hr id => ?_) start) rfl
  obtain ⟨value, hvalue⟩ := h.read hr
  exact item_of_stored hvalue _ _ _ _

theorem Stored.shown (h : Stored crates db op_id resources) (environment : String) (agents : List AgentEntry) :
    List.Forall₂ (fun r item => item.resource_id = r.resource_id ∧ item.kind = r.kind ∧ SentAs crates r item.resource)
      resources (resources.map fun r => shown_item crates environment agents (reread crates r)) := by
  rw [List.forall₂_map_right_iff, List.forall₂_same]
  intro r hr
  obtain ⟨value, hvalue⟩ := h.read hr
  refine ⟨reread_id crates r, reread_kind crates r, value, hvalue, stripped_value_reread hvalue, ?_⟩
  rw [shown_item, stripped_value_reread hvalue]
  exact strip_routing_hints_spec value

end Shown

variable {crates : Crates} {environment : String} {agents : List AgentEntry}

theorem bucket_for_approval_ok {layered : List (ResourceForRouting × Int)}
    (h : ∀ entry ∈ layered, ∃ value, dispatched_value crates entry.1.resource_json = .ok value)
    (buckets : Buckets String) :
    ∃ buckets', bucket_for_approval crates environment agents layered buckets = .ok buckets' := by
  induction layered generalizing buckets with
  | nil => exact ⟨buckets, rfl⟩
  | cons entry layered ih =>
    obtain ⟨r, layer⟩ := entry
    obtain ⟨⟨value, hvalue⟩, hrest⟩ := List.forall_mem_cons.mp h
    rw [bucket_for_approval]
    cases route_resource r environment agents with
    | ok agent_id =>
      simp only [hvalue]
      exact ih hrest _
    | error reason => exact ih hrest _

/-- An approval of readable buckets goes through: the operation awaits it and the ids are new. -/
theorem approve_operation_succeeds {req : ApproveRequest} {db : Store} {op : OperationRow} {buckets : Buckets String}
    (hids : ((db.rows .operations).map OperationRow.id).Nodup) (hop : op ∈ db.rows .operations)
    (hawaits : awaits_approval req.op_id op = true)
    (hbuckets : approval_buckets crates op.environment (agent_entries db.rows)
      (req.scan.order ((db.rows .desired_states).filter fun d => d.operation_id == req.op_id)) = .ok buckets)
    (hvalues : ∀ bucket ∈ buckets, ∃ values, stored_values crates bucket.2 = .ok values)
    (hulid : Function.Injective req.ulid) (hfresh : ∀ n, ∀ a ∈ db.rows .assignments, a.id ≠ req.ulid n) :
    ∃ count after, (approve_operation crates req).run db = (.ok count, after) := by
  obtain ⟨hid, hstatus⟩ : op.id = req.op_id ∧ op.status = .pending_approval := by
    simpa [awaits_approval] using hawaits
  have hfound : (db.rows .operations).find? (fun op => op.id == req.op_id) = some op := by
    rw [← hid]
    exact find_key_of_mem hids hop
  obtain ⟨mid, hassignments⟩ : ∃ mid, (approve_assignments crates req buckets 0).run db =
      (.ok (0 + buckets.length), mid) := by
    refine run_insert_assignments ?_ hulid hvalues fun n _ => hfresh n
    exact fun _ _ _ _ => rfl
  have hmid : mid.rows .operations = db.rows .operations := by
    obtain ⟨created, -, hinserted⟩ := insert_assignments_spec hassignments
    exact hinserted.frame _ (by decide)
  have hone : (db.rows .operations).filter (awaits_approval req.op_id) = [op] := by
    have hsingle := filter_key_eq_singleton hids hop
    rw [hid] at hsingle
    have hsplit : (db.rows .operations).filter (awaits_approval req.op_id) =
        ((db.rows .operations).filter fun other => other.id == req.op_id).filter fun other =>
          other.status == .pending_approval := by
      rw [List.filter_filter]
      refine List.filter_congr fun other _ => ?_
      rw [awaits_approval, Bool.and_comm]
    rw [hsplit, hsingle]
    simp [hstatus]
  obtain ⟨prev_hash, event_id, after, haudit, -⟩ := record_audit_on_spec crates req.audit_now.to_string
    (approve_audit req (0 + buckets.length)) (mid.set_rows .operations ((mid.rows .operations).map
      (updated (awaits_approval req.op_id) (OperationRow.approve req (0 + buckets.length)))))
  refine ⟨0 + buckets.length, after, ?_⟩
  rw [approve_operation, run_bind_ok (run_query _ _), hfound]
  simp only [hstatus, ne_eq, not_true_eq_false, if_false]
  rw [run_bind_ok (run_query _ _), run_bind_ok (run_query _ _), hbuckets, run_bind_ok (run_ofExcept _ _),
    run_bind_ok hassignments, run_bind_ok (run_update_where _ _ _ _), if_neg (by simp [hmid, hone]),
    run_bind_ok haudit, run_pure]

variable {db : Store} {op_id : String} {resources : List ResourceForRouting}

/-- A stored resource is sent as the value that is read of it. -/
theorem Stored.sent (h : Stored crates db op_id resources) {r : ResourceForRouting}
    (hr : r ∈ resources.map (reread crates)) :
    dispatched_value crates r.resource_json = .ok (stripped_value crates r) ∧
      crates.from_str (stripped_text crates r) = .ok (stripped_value crates r) := by
  obtain ⟨stored, hstored, rfl⟩ := List.mem_map.mp hr
  obtain ⟨value, hvalue⟩ := h.read hstored
  have hsent := stripped_of_read hvalue
  refine ⟨?_, ?_⟩
  · rw [stripped_value_reread hvalue, reread_json, hsent]
  · rw [stripped_value_reread hvalue, stripped_text, reread_json, hsent]
    exact h.read_back stored hstored _ hsent

/-- What a submission stores is all there is for its operation, where nothing was before. -/
theorem numbered_of_create {req : CreateRequest} {out : CreateOperationOutcome} {after : Store}
    (hrun : (create_operation crates req).run db = (.ok out, after))
    (hunused : ∀ d ∈ db.rows .desired_states, d.operation_id ≠ req.op_id) :
    (after.rows .desired_states).filter (fun d => d.operation_id == req.op_id) =
      numbered req.op_id (db.seq .desired_states) req.resources := by
  rw [(create_operation_numbers hrun).1, List.filter_append, List.filter_eq_nil_iff.mpr, List.filter_eq_self.mpr,
    List.nil_append]
  · intro d hd
    obtain ⟨i, r, -, rfl⟩ := mem_numbered.mp hd
    simp [desired_state_row]
  · intro d hd
    simpa using hunused d hd

/-- Whatever order the stored resources come in, the approval can sort them. -/
theorem approval_routing_of_numbered {req : ApproveRequest} {start : Nat} {layers : List Int}
    (hrows : (db.rows .desired_states).filter (fun d => d.operation_id == req.op_id) =
      numbered req.op_id start resources)
    (hdistinct : (resources.map (·.resource_id)).Nodup)
    (hlayers : depsort.compute_resource_layers crates resources = .ok layers) :
    ∃ routing_list layers, approval_routing crates req db.rows = .ok routing_list ∧
      routing_list.Perm (resources.map (reread crates)) ∧
      depsort.compute_resource_layers crates routing_list = .ok layers := by
  have hread : (numbered req.op_id start resources).mapM (routing_of_row crates) =
      .ok (resources.map (reread crates)) := by
    refine mapM_numbered (fun r hr id => ?_) start
    obtain ⟨value, hvalue⟩ := read_of_layers hlayers hdistinct hr
    exact routing_of_stored hvalue req.op_id id
  obtain ⟨shuffled, hshuffled, hperm⟩ := mapM_perm hread (req.scan.perm _)
  have hids : ((resources.map (reread crates)).map (·.resource_id)).Nodup := by
    rw [List.map_map]
    simpa only [Function.comp_def, reread_id] using hdistinct
  have hlayers' : depsort.compute_resource_layers crates (resources.map (reread crates)) = .ok layers := by
    rw [depsort.compute_resource_layers_map (reread_id crates) (reread_json crates), hlayers]
  obtain ⟨sorted, layers', hsorted, hsame, hsorted_layers⟩ := depsort.topo_sort_of_layers hids hlayers' hperm
  refine ⟨sorted, layers', ?_, hsame, hsorted_layers⟩
  rw [store.approval_routing, hrows, bind_eq_ok_iff]
  exact ⟨shuffled, hshuffled, hsorted⟩

theorem Stored.approval_routing (h : Stored crates db op_id resources) {req : ApproveRequest} (hreq : req.op_id = op_id) :
    ∃ routing_list layers, approval_routing crates req db.rows = .ok routing_list ∧
      routing_list.Perm (resources.map (reread crates)) ∧
      depsort.compute_resource_layers crates routing_list = .ok layers := by
  subst hreq
  obtain ⟨start, hrows⟩ := h.rows
  obtain ⟨layers, hlayers⟩ := h.layered
  exact approval_routing_of_numbered hrows h.distinct hlayers

/-- The buckets of the approval are found, and what is in them is read. -/
theorem Stored.approval_buckets (h : Stored crates db op_id resources) {req : ApproveRequest} (hreq : req.op_id = op_id) :
    ∃ buckets, approval_buckets crates environment agents
        (req.scan.order ((db.rows .desired_states).filter fun d => d.operation_id == req.op_id)) = .ok buckets ∧
      ∀ bucket ∈ buckets, ∃ values, stored_values crates bucket.2 = .ok values := by
  obtain ⟨routing_list, layers, hrouting, hperm, hlayers⟩ := h.approval_routing hreq
  have hsent : ∀ entry ∈ routing_list.zip layers, entry.1 ∈ resources.map (reread crates) := fun entry hentry =>
    hperm.subset (List.of_mem_zip hentry).1
  obtain ⟨buckets, hbuckets⟩ := @bucket_for_approval_ok crates environment agents (routing_list.zip layers)
    (fun entry hentry => ⟨_, (h.sent (hsent entry hentry)).1⟩) []
  refine ⟨buckets, ?_, ?_⟩
  · rw [store.approval_routing, bind_eq_ok_iff] at hrouting
    obtain ⟨read, hread, hsorted⟩ := hrouting
    rw [store.approval_buckets, bind_eq_ok_iff]
    refine ⟨read, hread, ?_⟩
    rw [bind_eq_ok_iff]
    refine ⟨routing_list, hsorted, ?_⟩
    rw [bind_eq_ok_iff]
    exact ⟨layers, hlayers, hbuckets⟩
  · obtain ⟨rfl, -⟩ := bucket_for_approval_spec hbuckets
    have hmapped := push_all_map (stripped_text crates) [] (routes environment agents (routing_list.zip layers))
    rw [List.map_nil] at hmapped
    rw [hmapped]
    intro bucket hbucket
    obtain ⟨⟨key, items⟩, hitems, rfl⟩ := List.mem_map.mp hbucket
    refine ⟨items.map (stripped_value crates), ?_⟩
    rw [stored_values, mapM_ok_iff]
    simp only [Prod.map_snd]
    rw [List.forall₂_map_left_iff, List.forall₂_map_right_iff, List.forall₂_same]
    intro r hr
    exact json_error_ok_iff.mpr (h.sent (hsent _ (routed_of_mem_bucket hitems hr).1)).2

/-- The agent shown is empty exactly for what is not routed. -/
theorem shown_agent_ne_empty_iff (hagents : ∀ agent ∈ agents, agent.1 ≠ "") (r : ResourceForRouting) :
    (shown_item crates environment agents r).agent_id ≠ "" ↔ (route_resource r environment agents).toOption.isSome := by
  rw [shown_item]
  cases hroute : route_resource r environment agents with
  | ok agent_id =>
    obtain ⟨agent, hagent, hid⟩ := mem_of_route_resource hroute
    have hne := hagents agent hagent
    rw [hid] at hne
    simpa [Except.toOption] using hne
  | error reason => simp [Except.toOption]

/-- Assignments made of the buckets of the stored resources carry what is shown of these. -/
theorem Stored.carried (h : Stored crates db op_id resources) (hagents : ∀ agent ∈ agents, agent.1 ≠ "")
    {routing_list : List ResourceForRouting} {layers : List Int} {now : String} {created : List AssignmentRow}
    (hperm : routing_list.Perm (resources.map (reread crates))) (hlength : layers.length = routing_list.length)
    (hcreated : List.Forall₂ (AssignmentOf crates op_id now (approved_values crates) fun _ _ => none)
      (push_all [] (routes environment agents (routing_list.zip layers))) created) :
    Carried crates (resources.map fun r => shown_item crates environment agents (reread crates r)) created := by
  let show_all := List.map (shown_item crates environment agents)
  refine ⟨(push_all [] (routes environment agents (routing_list.zip layers))).map fun bucket => show_all bucket.2, ?_, ?_⟩
  · rw [List.forall₂_map_left_iff]
    have hmem : ∀ bucket ∈ push_all [] (routes environment agents (routing_list.zip layers)), ∀ r ∈ bucket.2,
        r ∈ resources.map (reread crates) ∧ route_resource r environment agents = .ok (ofLex bucket.1).1 := by
      intro bucket hbucket r hr
      obtain ⟨hlayered, hroute⟩ := routed_of_mem_bucket hbucket hr
      exact ⟨hperm.subset (List.of_mem_zip hlayered).1, hroute⟩
    refine ((List.forall₂_and_left _ _).mpr ⟨hmem, hcreated⟩).imp ?_
    rintro bucket a ⟨hbucket, id, values, hvalues, rfl⟩
    refine ⟨?_, ?_⟩
    · intro item hitem
      obtain ⟨r, hr, rfl⟩ := List.mem_map.mp hitem
      simp [shown_item, (hbucket r hr).2, Except.toOption]
    · have hread : approved_values crates bucket.2 = .ok (bucket.2.map (stripped_value crates)) := by
        rw [approved_values, mapM_ok_iff, List.forall₂_map_right_iff, List.forall₂_same]
        exact fun r hr => json_error_ok_iff.mpr (h.sent (hbucket r hr).1).2
      obtain rfl := Except.ok.inj (hread.symm.trans hvalues)
      simp [show_all, shown_item, Function.comp_def]
  · have hpushed := push_all_perm [] (routes environment agents (routing_list.zip layers))
    rw [List.flatMap_nil, List.nil_append, routes_resources, List.map_fst_zip (Nat.le_of_eq hlength.symm)] at hpushed
    have hsame := (hpushed.trans (hperm.filter _)).map (shown_item crates environment agents)
    have hflat : ((push_all [] (routes environment agents (routing_list.zip layers))).map fun bucket =>
        show_all bucket.2).flatten = ((push_all [] (routes environment agents (routing_list.zip layers))).flatMap
          Prod.snd).map (shown_item crates environment agents) := by
      rw [List.map_flatMap, List.flatMap_def]
    have hshown : (resources.map fun r => shown_item crates environment agents (reread crates r)) =
        (resources.map (reread crates)).map (shown_item crates environment agents) := by
      rw [List.map_map]
      rfl
    have hagent : (resources.map (reread crates)).filter
          (fun r => (route_resource r environment agents).toOption.isSome) =
        (resources.map (reread crates)).filter
          (fun r => decide ((shown_item crates environment agents r).agent_id ≠ "")) := by
      refine List.filter_congr fun r _ => ?_
      rw [Bool.eq_iff_iff, decide_eq_true_eq]
      exact (shown_agent_ne_empty_iff hagents r).symm
    rw [hflat, hshown, List.filter_map]
    rw [hagent] at hsame
    exact hsame

/-- The preview of a stored operation that awaits its approval is what an approval dispatches. -/
theorem Stored.shown_as_dispatched (h : Stored crates db op_id resources) {op : OperationRow}
    (hids : ((db.rows .operations).map OperationRow.id).Nodup) (hop : op ∈ db.rows .operations)
    (hawaits : awaits_approval op_id op = true) (hagents : ∀ a ∈ db.rows .agents, a.id ≠ "") :
    ShownAsDispatched crates db op_id resources := by
  have hid := (awaits_undecided hawaits).1
  have hfound : (db.rows .operations).find? (fun op => op.id == op_id) = some op := by
    rw [← hid]
    exact find_key_of_mem hids hop
  refine ⟨_, h.preview hfound, h.shown _ _, ?_, ?_⟩
  · rw [List.map_map]
    simpa only [Function.comp_def, shown_item, reread_id] using h.distinct
  · intro req hreq hulid hfresh
    subst hreq
    obtain ⟨buckets, hbuckets, hvalues⟩ := h.approval_buckets rfl
    obtain ⟨count, after, hrun⟩ := approve_operation_succeeds hids hop hawaits hbuckets hvalues hulid hfresh
    obtain ⟨op', routing_list, layers, created, heffect⟩ := approve_operation_spec hrun
    obtain rfl := Option.some.inj (hfound.symm.trans heffect.found)
    obtain ⟨routing_list', layers', hrouting, hperm, -⟩ := @Stored.approval_routing crates db _ resources h req rfl
    obtain rfl := Except.ok.inj (hrouting.symm.trans heffect.sorted)
    have hagents' : ∀ agent ∈ agent_entries db.rows, agent.1 ≠ "" := List.forall_mem_map.mpr hagents
    refine ⟨count, after, created, hrun, heffect.assignments, ?_, ?_⟩
    · intro a ha
      obtain ⟨bucket, -, id, values, -, rfl⟩ := exists_left heffect.dispatched ha
      rfl
    · exact h.carried hagents' hperm (depsort.compute_resource_layers_length heffect.layered) heffect.dispatched

end iac_controlplane.store
