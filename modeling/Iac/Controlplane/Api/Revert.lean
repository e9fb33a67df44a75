import Iac.Controlplane.Api.ApprovalGate
import Iac.Controlplane.Api.BlastRadius
import Iac.Controlplane.Api.Drift
import Iac.Controlplane.Api.Reversal
import Iac.Controlplane.Depsort.Order

open iac_controlplane.depsort iac_controlplane.identity iac_controlplane.store serde_json sql

namespace iac_controlplane.depsort

variable {crates : Crates} {r : ResourceForRouting} {deps : List String} {layers : List Int}

/-- A resource alone has a layer exactly when it depends on nothing. -/
theorem compute_resource_layers_singleton (hdeps : read_depends_on crates r.resource_json = .ok deps) :
    compute_resource_layers crates [r] = .ok layers ↔ deps = [] ∧ layers = [0] := by
  have hindex (dep_id : String) : id_to_idx [r] dep_id = if dep_id = r.resource_id then some 0 else none := by
    simp [id_to_idx, Function.update_apply]
  unfold compute_resource_layers
  rw [assign_layers, hdeps]
  cases deps with
  | nil => simp [max_dep_layer, assign_layers, bind, Except.bind, eq_comm]
  | cons dep_id deps =>
    simp only [bind, Except.bind, max_dep_layer, hindex]
    split_ifs <;> simp

theorem build_graph_reads {index : String → Option Nat} {rest : List ResourceForRouting} {i : Nat} {g g' : Graph}
    (h : build_graph crates index rest i g = .ok g') :
    ∀ r ∈ rest, ∃ deps, read_depends_on crates r.resource_json = .ok deps := by
  induction rest generalizing i g with
  | nil => exact fun r hr => absurd hr List.not_mem_nil
  | cons first rest ih =>
    obtain ⟨deps, hdeps, h⟩ := fallible.bind_eq_ok_iff.mp h
    obtain ⟨next, -, h⟩ := fallible.bind_eq_ok_iff.mp h
    exact List.forall_mem_cons.mpr ⟨⟨deps, hdeps⟩, ih h⟩

/-- The sort reads what each of the resources depends on. -/
theorem topo_sort_reads {routing sorted : List ResourceForRouting}
    (h : topo_sort_by_depends_on crates routing = .ok sorted) :
    ∀ r ∈ routing, ∃ deps, read_depends_on crates r.resource_json = .ok deps := by
  rw [topo_sort_by_depends_on] at h
  split at h
  · next hempty =>
    rw [List.isEmpty_iff.mp hempty]
    exact fun r hr => absurd hr List.not_mem_nil
  · obtain ⟨g, hgraph, -⟩ := fallible.bind_eq_ok_iff.mp h
    exact build_graph_reads hgraph

end iac_controlplane.depsort

namespace iac_controlplane.store

/-- The agent that the resource is routed to: the one with the name of its host
selector or, without a selector, the only one of the environment. -/
def Selects (rows : sql.Rows Row) (host_selector : Option String) (environment agent_id : String) : Prop :=
  match host_selector with
  | some host => ∃ a, (rows .agents).find? (fun a => a.name = host ∧ a.environment = environment) = some a ∧ a.id = agent_id
  | none => ∃ a, (rows .agents).filter (fun a => a.environment = environment) = [a] ∧ a.id = agent_id

theorem route_by_name_ok_iff {r : ResourceForRouting} {environment host agent_id : String} {agents : List AgentRow} :
    route_by_name r environment host (agents.map fun a => (a.id, a.name, a.environment)) = .ok agent_id ↔
      ∃ a, agents.find? (fun a => a.name = host ∧ a.environment = environment) = some a ∧ a.id = agent_id := by
  induction agents with
  | nil => simp [route_by_name]
  | cons a agents ih =>
    rw [List.map_cons, route_by_name]
    by_cases h : a.name = host ∧ a.environment = environment
    · simp [h]
    · rw [if_neg h, ih, List.find?_cons_of_neg (by simpa using h)]

theorem route_resource_ok_iff {r : ResourceForRouting} {rows : sql.Rows Row} {environment agent_id : String} :
    route_resource r environment (agent_entries rows) = .ok agent_id ↔
      Selects rows r.host_selector environment agent_id := by
  unfold route_resource Selects agent_entries
  cases r.host_selector with
  | some host => exact route_by_name_ok_iff
  | none =>
    have hfilter : ((rows .agents).map fun a => (a.id, a.name, a.environment)).filter
          (fun agent : AgentEntry => agent.2.2 = environment) =
        ((rows .agents).filter fun a => a.environment = environment).map fun a => (a.id, a.name, a.environment) := by
      rw [List.filter_map]
      rfl
    simp only [hfilter]
    generalize (rows .agents).filter (fun a => decide (a.environment = environment)) = env_agents
    rcases env_agents with - | ⟨a, - | ⟨b, rest⟩⟩ <;> simp

section Single

variable {crates : Crates} {req : CreateRequest} {r : ResourceForRouting} {value : Value} {db : Store}

/-- The buckets of a single resource: one for its agent, when it has one. -/
theorem push_all_single (environment : String) (agents : List AgentEntry) (r : ResourceForRouting) :
    push_all [] (routes environment agents [(r, 0)]) =
      match route_resource r environment agents with
      | .ok agent_id => [(toLex (agent_id, 0), [r])]
      | .error _ => [] := by
  cases hroute : route_resource r environment agents with
  | ok agent_id => simp [routes, hroute, push_all, push_bucket, sorted_map.upsert]
  | error reason => simp [routes, hroute, push_all]

theorem dispatched_single (hvalue : dispatched_value crates r.resource_json = .ok value) :
    dispatched_values crates [r] = .ok [value] := by
  rw [dispatched_values, List.mapM_cons, hvalue]
  rfl

theorem run_store_single {op_id environment : String} {agents : List AgentEntry}
    (hfresh : ∀ d ∈ db.rows .desired_states, d.operation_id ≠ op_id) :
    ∃ unrouted after, (store_resources op_id environment agents [(r, 0)] [] []).run db =
      (.ok (push_all [] (routes environment agents [(r, 0)]), unrouted), after) ∧
      SameOutside [.desired_states] db.rows after.rows := by
  have hinsert := @run_sql_insert_fresh .desired_states (desired_state_row op_id r) db fun other hother => by
    have hne := hfresh other hother
    simp only [clash, desired_state_row, Bool.and_eq_false_iff, beq_eq_false_iff_ne, ne_eq]
    exact .inl (Ne.symm hne)
  have hframe := run_sql_insert_ok hinsert
  rw [store_resources, run_bind_ok hinsert, push_all_single]
  cases route_resource r environment agents with
  | ok agent_id => exact ⟨[], _, rfl, hframe.2.2.2⟩
  | error reason => exact ⟨[(r.resource_id, reason)], _, rfl, hframe.2.2.2⟩

theorem run_dispatch_single {environment : String} {agents : List AgentEntry}
    (hcanary : req.canary = none) (hvalue : dispatched_value crates r.resource_json = .ok value)
    (hfresh : ∀ a ∈ db.rows .assignments, a.id ≠ req.ulid 0) :
    ∃ count after, (dispatch_new crates req (push_all [] (routes environment agents [(r, 0)]))).run db =
      (.ok count, after) := by
  rw [dispatch_new, push_all_single]
  cases route_resource r environment agents with
  | error reason =>
    exact ⟨0, _, rfl⟩
  | ok agent_id =>
    have hinsert := @run_sql_insert_fresh .assignments
      (fun _ => { id := req.ulid 0, agent_id, operation_id := req.op_id, payload_json := payload_json crates [value],
                  created_at := req.now.to_string, status := initial_assignment_status 0 none, kind := "apply",
                  layer := 0, batch := none }) db fun other hother => by
      have hne := hfresh other hother
      simp only [clash, beq_eq_false_iff_ne, ne_eq]
      exact Ne.symm hne
    have hcreate : (create_assignments crates req (compute_canary_split (bucket_agents_per_layer
        [(toLex (agent_id, (0 : Int)), [r])]) req.canary) [(toLex (agent_id, 0), [r])] 0).run db =
        (.ok 1, (db.next_id .assignments).set_rows .assignments (db.rows .assignments ++ [
          { id := req.ulid 0, agent_id, operation_id := req.op_id, payload_json := payload_json crates [value],
            created_at := req.now.to_string, status := initial_assignment_status 0 none, kind := "apply",
            layer := 0, batch := none }])) := by
      rw [create_assignments, insert_assignments, hcanary]
      simp only [ofLex_toLex, dispatched_single hvalue]
      rw [run_bind_ok (run_ofExcept _ _)]
      exact run_bind_ok hinsert
    exact ⟨1, _, by rw [run_bind_ok hcreate]; rfl⟩

/-- An operation of one resource that depends on nothing is created. -/
theorem create_single (hresources : req.resources = [r]) (happroval : req.requires_approval = false)
    (hcanary : req.canary = none) (hdeps : depsort.read_depends_on crates r.resource_json = .ok [])
    (hvalue : dispatched_value crates r.resource_json = .ok value)
    (hoperation : ∀ op ∈ db.rows .operations, op.id ≠ req.op_id)
    (hstates : ∀ d ∈ db.rows .desired_states, d.operation_id ≠ req.op_id)
    (hassignments : ∀ a ∈ db.rows .assignments, a.id ≠ req.ulid 0) :
    ∃ out after, (create_operation crates req).run db = (.ok out, after) ∧ out.operation_id = req.op_id := by
  have hinsert := @run_sql_insert_fresh .operations (fun _ => operation_row crates req) db fun other hother => by
    have hne := hoperation other hother
    simp only [clash, operation_row, beq_eq_false_iff_ne, ne_eq]
    exact Ne.symm hne
  obtain ⟨-, -, -, hframe₁⟩ := run_sql_insert_ok hinsert
  have hlayers := (depsort.compute_resource_layers_singleton hdeps).mpr ⟨rfl, rfl⟩
  rw [create_operation, run_bind_ok (run_query _ _), run_bind_ok hinsert, hresources, hlayers,
    run_bind_ok (run_ofExcept _ _)]
  obtain ⟨unrouted, db₂, hstore, hframe₂⟩ := @run_store_single r _ req.op_id req.environment (agent_entries db.rows)
    (fun d hd => hstates d ((hframe₁ .desired_states (by decide)) ▸ hd))
  rw [List.zip_cons_cons, List.zip_nil_left, run_bind_ok hstore]
  simp only [initial_assignments, happroval, Bool.false_eq_true, ↓reduceIte]
  obtain ⟨count, db₃, hdispatch⟩ := @run_dispatch_single crates req r value db₂ req.environment (agent_entries db.rows)
    hcanary hvalue fun a ha => hassignments a (by
      rw [hframe₂ .assignments (by decide), hframe₁ .assignments (by decide)] at ha
      exact ha)
  rw [run_bind_ok hdispatch]
  obtain ⟨_, _, db₄, haudit, -⟩ :=
    record_audit_on_spec crates req.audit_now.to_string (create_audit req count unrouted.length) db₃
  rw [run_bind_ok haudit]
  exact ⟨_, db₄, rfl, rfl⟩

end Single

end iac_controlplane.store

namespace iac_controlplane.api

/-- What `get_drift` answers, up to the columns that a revert does not read. -/
def get_drift (events : List DriftEventRow) (drift_id : Int) : Option DriftSummary :=
  (events.find? fun row => (row.id : Int) == drift_id).map fun row => ⟨row.resource_id, row.resolved_at⟩

/-- The drift is open and an agent that is registered has reported it; the last
state stored for its resource comes from a submission that was accepted; the
ULIDs of the request are new. -/
structure Revertible (crates : Crates) (db : Store) (events : List DriftEventRow) (req : RevertRequest)
    (drift : DriftEventRow) (environment : String) (raw : Value) (r : ResourceForRouting) : Prop where
  found : events.find? (fun row => (row.id : Int) == req.drift_id) = some drift
  unresolved : drift.resolved_at = none
  registered : ∃ a ∈ db.rows .agents, a.id = drift.agent_id
  stored : ∃ op_id id, latest_state db.rows drift.resource_id = some (desired_state_row op_id r id)
  accepted : ∃ sub : Submission, ∃ routing, sub.environment = environment ∧ sub.routing crates = .ok routing ∧
    Submitted crates sub raw r
  reads : crates.from_str (crates.to_string (stamp_environment environment raw)) = .ok (stamp_environment environment raw)
  new_operation : (∀ op ∈ db.rows .operations, op.id ≠ req.op_id) ∧ ∀ d ∈ db.rows .desired_states, d.operation_id ≠ req.op_id
  new_assignment : ∀ a ∈ db.rows .assignments, a.id ≠ req.ulid 0

/-- The revert creates an operation with one assignment, of the agent that
reported the drift, for the resource as it is stored. -/
def Dispatches (crates : Crates) (db : Store) (drift : DriftEventRow) (environment : String) (raw : Value)
    (result : Except ApiError CreateOperationOutcome × Store) : Prop :=
  ∃ out after op a, result = (.ok out, after) ∧ after.rows .operations = db.rows .operations ++ [op] ∧
    op.id = out.operation_id ∧ after.rows .assignments = db.rows .assignments ++ [a] ∧
    a.operation_id = out.operation_id ∧ a.agent_id = drift.agent_id ∧
    a.payload_json = payload_json crates [strip_routing_hints (stamp_environment environment raw)]

section Runs

variable {crates : Crates} {identity : Identity} {db : Store} {req : RevertRequest} {drift : DriftEventRow}
  {environment : String} {raw : Value} {r : ResourceForRouting} {events : List DriftEventRow}

theorem Revertible.routed (h : Revertible crates db events req drift environment raw r) :
    extract_routing crates environment raw = .ok r := by
  obtain ⟨sub, routing, rfl, -, hsubmitted⟩ := h.accepted
  exact hsubmitted.routed

/-- The names that the stored resource depends on, as the sort of its submission read them. -/
theorem Revertible.depends_on (h : Revertible crates db events req drift environment raw r) :
    ∃ deps, read_depends_on crates r.resource_json = .ok deps := by
  obtain ⟨sub, sorted, -, hrouting, hsubmitted⟩ := h.accepted
  obtain ⟨routing, hmapped, hsorted⟩ := fallible.bind_eq_ok_iff.mp hrouting
  obtain ⟨r', hr', hrouted⟩ := fallible.exists_right (fallible.mapM_ok_iff.mp hmapped) hsubmitted.mem
  obtain rfl := Except.ok.inj (hrouted.symm.trans hsubmitted.routed)
  exact topo_sort_reads hsorted _ hr'

/-- A revert reads the stored resource and creates the operation of it alone. -/
theorem Revertible.run_eq (h : Revertible crates db events req drift environment raw r)
    (hrole : identity.has_role .Operator = true) :
    (revert_drift crates identity (get_drift events req.drift_id) req).run db =
      (create_operation crates (revert_create identity req ⟨drift.resource_id, none⟩ environment r)).run db := by
  obtain ⟨op_id, id, hlatest⟩ := h.stored
  obtain ⟨kind, name, -, -, -, henvironment, -, hjson, -⟩ := extract_routing_spec h.routed
  have hdrift : get_drift events req.drift_id = some ⟨drift.resource_id, none⟩ := by
    rw [get_drift, h.found, Option.map_some, h.unresolved]
  have hdecode : decode_resource crates r.resource_json = .ok (stamp_environment environment raw) := by
    rw [decode_resource, hjson, h.reads]
  have hagain := extract_routing_again h.routed
  rw [revert_drift, require_role, if_pos hrole, hdrift]
  rw [run_bind_ok (run_ofExcept _ _)]
  simp only
  have hfind : (find_latest_resource_for_revert drift.resource_id).run db =
      (.ok (some (environment, r.resource_json)), db) := by
    rw [find_latest_resource_for_revert, run_query]
    change (Except.ok (Option.map _ (latest_state db.rows drift.resource_id)), db) = _
    rw [hlatest, Option.map_some, desired_state_row, henvironment]
  rw [run_bind_ok hfind]
  simp only [hdecode]
  rw [run_bind_ok (run_ofExcept _ _), hagain, run_bind_ok (run_ofExcept _ _)]

theorem Revertible.dispatched_value (h : Revertible crates db events req drift environment raw r) :
    store.dispatched_value crates r.resource_json = .ok (strip_routing_hints (stamp_environment environment raw)) := by
  obtain ⟨kind, name, -, -, -, -, -, hjson, -⟩ := extract_routing_spec h.routed
  rw [store.dispatched_value, hjson, h.reads]
  rfl

/-- What the created operation of the single resource looks like: without an
agent for the resource it has no assignment. -/
theorem created_single {out : CreateOperationOutcome} {after : Store} {layers : List Int} {created : List AssignmentRow}
    (heffect : CreateEffect crates (revert_create identity req ⟨drift.resource_id, none⟩ environment r) db out after
      layers created) (hlayers : layers = [0]) :
    match route_resource r environment (agent_entries db.rows) with
    | .ok agent_id => ∃ a resources, created = [a] ∧ a.agent_id = agent_id ∧ a.operation_id = req.op_id ∧
        dispatched_values crates [r] = .ok resources ∧ a.payload_json = payload_json crates resources
    | .error _ => created = [] := by
  have hdispatched := heffect.dispatched rfl
  simp only [revert_create, hlayers, List.zip_cons_cons, List.zip_nil_left, push_all_single] at hdispatched
  cases hroute : route_resource r environment (agent_entries db.rows) with
  | error reason =>
    rw [hroute] at hdispatched
    exact List.forall₂_nil_left_iff.mp hdispatched
  | ok agent_id =>
    rw [hroute] at hdispatched
    obtain ⟨a, rest, ⟨id, resources, hvalues, ha⟩, hrest, rfl⟩ := List.forall₂_cons_left_iff.mp hdispatched
    obtain rfl := List.forall₂_nil_left_iff.mp hrest
    exact ⟨a, resources, rfl, by rw [ha]; rfl, by rw [ha], hvalues, by rw [ha]⟩

/-- A drift is reverted by an assignment of the agent that reported it exactly
when the stored resource depends on nothing and is routed to that agent. -/
theorem revert_dispatches_iff (h : Revertible crates db events req drift environment raw r)
    (hrole : identity.has_role .Operator = true) :
    Dispatches crates db drift environment raw
        ((revert_drift crates identity (get_drift events req.drift_id) req).exec db) ↔
      read_depends_on crates r.resource_json = .ok [] ∧ Selects db.rows r.host_selector environment drift.agent_id := by
  obtain ⟨deps, hdeps⟩ := h.depends_on
  have hexec : (revert_drift crates identity (get_drift events req.drift_id) req).exec db =
      (create_operation crates (revert_create identity req ⟨drift.resource_id, none⟩ environment r)).exec db := by
    rw [Prog.exec, Prog.exec, h.run_eq hrole]
  rw [hexec]
  constructor
  · rintro ⟨out, after, op, a, hrun, -, -, hassigned, -, hagent, -⟩
    obtain ⟨e, hfailed, -⟩ | ⟨out', after', hok, hexec'⟩ := exec_cases
      (create_operation crates (revert_create identity req ⟨drift.resource_id, none⟩ environment r)) db
    · have hanswer := congrArg Prod.fst hrun
      rw [hfailed] at hanswer
      cases hanswer
    · obtain ⟨layers, created, heffect⟩ := create_operation_spec hok
      obtain ⟨rfl, hlayers⟩ := (compute_resource_layers_singleton hdeps).mp heffect.layered
      refine ⟨hdeps, route_resource_ok_iff.mp ?_⟩
      obtain ⟨-, rfl⟩ := Prod.mk.inj (hexec'.symm.trans hrun)
      have hcreated : created = [a] := List.append_cancel_left (heffect.assignments.symm.trans hassigned)
      have hsingle := created_single heffect hlayers
      cases hroute : route_resource r environment (agent_entries db.rows) with
      | error reason =>
        rw [hroute] at hsingle
        rw [hcreated] at hsingle
        cases hsingle
      | ok agent_id =>
        rw [hroute] at hsingle
        obtain ⟨a', _, ha', hid, -⟩ := hsingle
        rw [← hagent, ← hid, (List.cons.inj (ha'.symm.trans hcreated)).1]
  · rintro ⟨hnone, hselects⟩
    obtain ⟨out, after, hok, hout⟩ := @create_single crates
      (revert_create identity req ⟨drift.resource_id, none⟩ environment r) r _ db rfl rfl rfl hnone h.dispatched_value
      h.new_operation.1 h.new_operation.2 h.new_assignment
    obtain ⟨layers, created, heffect⟩ := create_operation_spec hok
    obtain ⟨-, hlayers⟩ := (compute_resource_layers_singleton hnone).mp heffect.layered
    have hsingle := created_single heffect hlayers
    rw [route_resource_ok_iff.mpr hselects] at hsingle
    obtain ⟨a, resources, rfl, hagent, hoperation, hvalues, hpayload⟩ := hsingle
    obtain rfl := Except.ok.inj ((dispatched_single h.dispatched_value).symm.trans hvalues)
    refine ⟨out, after, _, a, exec_of_run_ok hok, heffect.operations, ?_, heffect.assignments, hoperation.trans hout.symm,
      hagent, hpayload⟩
    rw [hout, created_operation]
    split <;> rfl

end Runs

section Samples

/-- The file as it is routed and stored. -/
def file_resource (name : String) (depends_on : List String) : ResourceForRouting where
  resource_id := resource_id_of "File" "prod" name
  kind := "File"
  environment := "prod"
  resource_json := compact (file_manifest name depends_on)
  name
  host_selector := none

/-- The state after the two files were submitted to the only agent. -/
def files_stored : Store where
  rows
    | .desired_states => [desired_state_row "op" (file_resource "conf" []) 1,
        desired_state_row "op" (file_resource "unit" ["File/prod/conf"]) 2]
    | t => one_agent.rows t
  seq := one_agent.seq

def file_drift (name : String) : DriftEventRow where
  id := 7
  agent_id := "a"
  resource_id := resource_id_of "File" "prod" name
  kind := "File"
  severity := "medium"
  diff_json := "\x7b\x7d"
  detected_at := midnight.to_string
  received_at := midnight.to_string

def file_revert : RevertRequest where
  drift_id := 7
  source_commit := none
  now := midnight
  audit_now := midnight
  op_id := "revert"
  ulid n := "revert-" ++ toString n

theorem files_accepted : ∃ routing, (files_submission dependent_files).routing files_crates = .ok routing := by
  have hok : ((files_submission dependent_files).routing files_crates).toBool = true := by decide
  cases hrouting : (files_submission dependent_files).routing files_crates with
  | error e =>
    rw [hrouting] at hok
    cases hok
  | ok routing => exact ⟨routing, rfl⟩

theorem file_revertible {name : String} {depends_on : List String} {id : Nat}
    (hmem : file_manifest name depends_on ∈ dependent_files)
    (hrouted : extract_routing files_crates "prod" (file_manifest name depends_on) = .ok (file_resource name depends_on))
    (hstamped : stamp_environment "prod" (file_manifest name depends_on) = file_manifest name depends_on)
    (hreads : files_crates.from_str (compact (file_manifest name depends_on)) = .ok (file_manifest name depends_on))
    (hlatest : latest_state files_stored.rows (resource_id_of "File" "prod" name) =
      some (desired_state_row "op" (file_resource name depends_on) id)) :
    Revertible files_crates files_stored [file_drift name] file_revert (file_drift name) "prod"
      (file_manifest name depends_on) (file_resource name depends_on) where
  found := rfl
  unresolved := rfl
  registered := ⟨_, List.mem_singleton_self _, rfl⟩
  stored := ⟨"op", id, hlatest⟩
  accepted := by
    obtain ⟨routing, hrouting⟩ := files_accepted
    exact ⟨files_submission dependent_files, routing, rfl, hrouting, hmem, hrouted⟩
  reads := by
    rw [hstamped]
    exact hreads
  new_operation := ⟨fun op hop => (by cases hop), fun d hd => by
    obtain rfl | hd := List.mem_cons.mp hd
    · decide
    · obtain rfl := List.mem_singleton.mp hd
      decide⟩
  new_assignment := fun a ha => by cases ha

/-- The answer to the request, and the store after it. -/
def reverted_file (name : String) : Except ApiError CreateOperationOutcome × Store :=
  (revert_drift files_crates (user "carol" .Operator) (get_drift [file_drift name] file_revert.drift_id) file_revert).exec
    files_stored

theorem conf_is_reverted : Dispatches files_crates files_stored (file_drift "conf") "prod" (file_manifest "conf" [])
    (reverted_file "conf") := by
  have hrevertible : Revertible files_crates files_stored [file_drift "conf"] file_revert (file_drift "conf") "prod"
      (file_manifest "conf" []) (file_resource "conf" []) :=
    file_revertible (List.mem_cons_self ..) rfl rfl rfl rfl
  have hselects : Selects files_stored.rows none "prod" "a" := ⟨_, rfl, rfl⟩
  exact (revert_dispatches_iff hrevertible rfl).mpr ⟨rfl, hselects⟩

/-- A file that comes after another one is refused on its own. -/
theorem unit_is_not_reverted :
    Revertible files_crates files_stored [file_drift "unit"] file_revert (file_drift "unit") "prod"
      (file_manifest "unit" ["File/prod/conf"]) (file_resource "unit" ["File/prod/conf"]) ∧
    ¬ Dispatches files_crates files_stored (file_drift "unit") "prod" (file_manifest "unit" ["File/prod/conf"])
      (reverted_file "unit") := by
  refine ⟨file_revertible (List.mem_cons_of_mem _ (List.mem_cons_self ..)) rfl rfl rfl rfl, ?_⟩
  rintro ⟨out, after, _, _, hrun, -⟩
  have hrefused : (reverted_file "unit").1.toBool = false := by decide
  rw [hrun] at hrefused
  cases hrefused

end Samples

end iac_controlplane.api
