import Iac.Controlplane.Api.ApprovalGate
import Iac.Controlplane.Store.Preview
import Iac.Controlplane.Store.Routing.Conservation

open iac_controlplane.identity iac_controlplane.policy iac_controlplane.store iac_core.protocol serde_json sql

namespace iac_controlplane.api

structure BlastRadius where
  resource_count : Nat
  agent_count : Nat
  kinds : List String
deriving DecidableEq

structure UnroutedResource where
  resource_id : String
  reason : String
deriving DecidableEq

structure SubmitOperationResponse where
  operation_id : String
  assignment_count : Nat
  unrouted : List UnroutedResource
  blast_radius : BlastRadius

/-- `u32::try_from(n).unwrap_or(u32::MAX)`. -/
def u32_or_max (n : Nat) : Nat :=
  if n < 2 ^ 32 then n else 2 ^ 32 - 1

def blast_radius (routing : List ResourceForRouting) (outcome : CreateOperationOutcome) : BlastRadius :=
  { resource_count := u32_or_max routing.length, agent_count := outcome.assignment_count,
    kinds := (routing.map ResourceForRouting.kind).dedup.insertionSort (· ≤ ·) }

def submit_response (routing : List ResourceForRouting) (outcome : CreateOperationOutcome) :
    SubmitOperationResponse :=
  { operation_id := outcome.operation_id, assignment_count := outcome.assignment_count,
    unrouted := outcome.unrouted.map fun entry => ⟨entry.1, entry.2⟩, blast_radius := blast_radius routing outcome }

/-- The handler around `submit`, whose routing it still has at hand. -/
def submit_op (crates : Crates) (policies : List Policy) (identity : Identity) (sub : Submission) :
    Tx SubmitOperationResponse := do
  let outcome ← submit crates policies identity sub
  let routing ← Prog.ofExcept (sub.routing crates)
  return submit_response routing outcome

/-- The agents that the resources are routed to, one for each resource that has one. -/
def destinations (environment : String) (agents : List AgentEntry) (resources : List ResourceForRouting) :
    List String :=
  resources.filterMap fun r => (route_resource r environment agents).toOption

/-- The agents that get an assignment of the operation, at once or when it is approved. -/
def receivers (environment : String) (agents : List AgentEntry) (resources : List ResourceForRouting) : List String :=
  (destinations environment agents resources).dedup

/-- The answer counts each agent that gets an assignment once, and its resources
are the `expanded` ones, routed or not. -/
structure RadiusRight (environment : String) (agents : List AgentEntry) (resources : List ResourceForRouting)
    (expanded : Nat) (response : SubmitOperationResponse) : Prop where
  agent_count : response.blast_radius.agent_count = (receivers environment agents resources).length
  parts : (destinations environment agents resources).length + response.unrouted.length = expanded
  resource_count : response.blast_radius.resource_count = expanded

/-- The resources of each agent are all in one layer. -/
def OneLayerEach (environment : String) (agents : List AgentEntry)
    (layered : List (ResourceForRouting × Int)) : Prop :=
  ∀ agent_id layer other, (∃ r, (r, layer) ∈ layered ∧ route_resource r environment agents = .ok agent_id) →
    (∃ r, (r, other) ∈ layered ∧ route_resource r environment agents = .ok agent_id) → layer = other

section Counting

variable {environment : String} {agents : List AgentEntry} {layered : List (ResourceForRouting × Int)}
  {resources : List ResourceForRouting}

theorem mem_receivers {agent_id : String} :
    agent_id ∈ receivers environment agents resources ↔
      ∃ r ∈ resources, route_resource r environment agents = .ok agent_id := by
  simp only [receivers, List.mem_dedup, destinations, List.mem_filterMap]
  refine exists_congr fun r => and_congr_right fun _ => ?_
  cases route_resource r environment agents <;> simp [Except.toOption]

/-- Every resource has a destination or is left over. -/
theorem length_destinations :
    (destinations environment agents resources).length + (left_over environment agents resources).length =
      resources.length := by
  unfold destinations left_over
  induction resources with
  | nil => rfl
  | cons r resources ih =>
    cases hroute : route_resource r environment agents with
    | ok agent_id =>
      have hsome : (route_resource r environment agents).toOption = some agent_id := congrArg Except.toOption hroute
      rw [List.filterMap_cons_some (f := fun r => (route_resource r environment agents).toOption) hsome,
        List.filter_cons_of_neg (by simp [hroute]), List.length_cons, List.length_cons, Nat.add_right_comm, ih]
    | error reason =>
      have hnone : (route_resource r environment agents).toOption = none := congrArg Except.toOption hroute
      rw [List.filterMap_cons_none (f := fun r => (route_resource r environment agents).toOption) hnone,
        List.filter_cons_of_pos (by simp [hroute]), List.length_cons, List.length_cons, ← Nat.add_assoc, ih]

/-- The agents and layers of the buckets. -/
def bucket_keys (buckets : Buckets ResourceForRouting) : List (String × Int) :=
  buckets.map fun bucket => ofLex bucket.1

theorem mem_bucket_keys {agent_id : String} {layer : Int} :
    (agent_id, layer) ∈ bucket_keys (push_all [] (routes environment agents layered)) ↔
      ∃ r, (r, layer) ∈ layered ∧ route_resource r environment agents = .ok agent_id := by
  rw [← dispatches_routes, bucket_keys, List.mem_map]
  constructor
  · rintro ⟨⟨key, items⟩, hbucket, hkey⟩
    exact ⟨items, (ofLex.injective hkey : key = toLex (agent_id, layer)) ▸ hbucket⟩
  · rintro ⟨items, hbucket⟩
    exact ⟨_, hbucket, rfl⟩

theorem nodup_bucket_keys : (bucket_keys (push_all [] (routes environment agents layered))).Nodup := by
  have hwf := push_all_well_formed WellFormed.nil (routes environment agents layered)
  rw [bucket_keys, List.Nodup, List.pairwise_map]
  exact hwf.sorted.imp fun hlt heq => absurd (ofLex.injective heq) (ne_of_lt hlt)

theorem mem_bucket_agents {agent_id : String} :
    agent_id ∈ (bucket_keys (push_all [] (routes environment agents layered))).map Prod.fst ↔
      agent_id ∈ receivers environment agents (layered.map Prod.fst) := by
  rw [mem_receivers]
  constructor
  · intro hmem
    obtain ⟨⟨agent_id, layer⟩, hkey, rfl⟩ := List.mem_map.mp hmem
    obtain ⟨r, hr, hroute⟩ := mem_bucket_keys.mp hkey
    exact ⟨r, List.mem_map_of_mem hr, hroute⟩
  · rintro ⟨r, hr, hroute⟩
    obtain ⟨⟨r, layer⟩, hlayered, rfl⟩ := List.mem_map.mp hr
    exact List.mem_map_of_mem (mem_bucket_keys.mpr ⟨r, hlayered, hroute⟩)

/-- There are as many buckets as receivers when no agent has two. -/
theorem bucket_count_iff :
    (push_all [] (routes environment agents layered)).length =
        (receivers environment agents (layered.map Prod.fst)).length ↔
      OneLayerEach environment agents layered := by
  let keys := bucket_keys (push_all [] (routes environment agents layered))
  have hreceivers : (keys.map Prod.fst).dedup.length =
      (receivers environment agents (layered.map Prod.fst)).length := by
    refine ((List.perm_ext_iff_of_nodup (List.nodup_dedup _) (List.nodup_dedup _)).mpr fun agent_id => ?_).length_eq
    rw [List.mem_dedup, mem_bucket_agents]
    rfl
  have hlength : (keys.map Prod.fst).length = (push_all [] (routes environment agents layered)).length := by
    rw [List.length_map]
    exact List.length_map _
  have hnodup : (keys.map Prod.fst).length = (keys.map Prod.fst).dedup.length ↔ (keys.map Prod.fst).Nodup := by
    rw [eq_comm, (List.dedup_sublist _).length_eq, List.dedup_eq_self]
  rw [← hreceivers, ← hlength, hnodup, List.nodup_map_iff_inj_on nodup_bucket_keys]
  constructor
  · intro hinj agent_id layer other hlayer hother
    exact congrArg Prod.snd (hinj _ (mem_bucket_keys.mpr hlayer) _ (mem_bucket_keys.mpr hother) rfl)
  · rintro hone ⟨agent_id, layer⟩ hkey ⟨other_agent, other⟩ hother rfl
    rw [hone agent_id layer other (mem_bucket_keys.mp hkey) (mem_bucket_keys.mp hother)]

end Counting

section Receiving

variable {crates : Crates} {req : CreateRequest} {out : CreateOperationOutcome} {db after : Store}

/-- The agents of the assignments made of the buckets are the receivers. -/
theorem receivers_of_dispatched {op_id now : String} {environment : String} {agents : List AgentEntry}
    {layered : List (ResourceForRouting × Int)} {values : List ResourceForRouting → Except ApiError (List Value)}
    {batch : String → Int → Option Int} {rows : List AssignmentRow}
    (h : List.Forall₂ (AssignmentOf crates op_id now values batch)
      (push_all [] (routes environment agents layered)) rows)
    (agent_id : String) : agent_id ∈ receivers environment agents (layered.map Prod.fst) ↔
      ∃ row ∈ rows, row.agent_id = agent_id := by
  have hkeys : (bucket_keys (push_all [] (routes environment agents layered))).map Prod.fst =
      rows.map AssignmentRow.agent_id := by
    rw [bucket_keys, List.map_map]
    apply List.forall₂_eq_eq_eq ▸ List.forall₂_map_left_iff.mpr (List.forall₂_map_right_iff.mpr ?_)
    refine h.imp fun bucket row hrow => ?_
    obtain ⟨id, values, -, rfl⟩ := hrow
    rfl
  rw [← mem_bucket_agents, hkeys, List.mem_map]

/-- When an operation that waited is approved, the agents that get an assignment
are the receivers of its submission. -/
theorem approval_reaches_receivers {approval : ApproveRequest} {count : Nat} {approved : Store}
    (hcreate : (create_operation crates req).run db = (.ok out, after))
    (happrove : (approve_operation crates approval).run after = (.ok count, approved))
    (hop : approval.op_id = req.op_id) (hunused : ∀ d ∈ db.rows .desired_states, d.operation_id ≠ req.op_id)
    (hreads : ∀ r ∈ req.resources, ∃ value, crates.from_str r.resource_json = .ok value ∧
      host_selector_of value = r.host_selector) :
    ∃ given, approved.rows .assignments = after.rows .assignments ++ given ∧
      ∀ agent_id, agent_id ∈ receivers req.environment (agent_entries db.rows) req.resources ↔
        ∃ row ∈ given, row.agent_id = agent_id := by
  obtain ⟨layers, created, heffect⟩ := create_operation_spec hcreate
  obtain ⟨op, routing_list, layers', given, happroved⟩ := approve_operation_spec happrove
  have hzip : (routing_list.zip layers').map Prod.fst = routing_list :=
    List.map_fst_zip (Nat.le_of_eq (depsort.compute_resource_layers_length happroved.layered).symm)
  have henvironment : op.environment = req.environment := by
    have hfound := happroved.found
    rw [heffect.operations, List.find?_append, List.find?_eq_none.mpr] at hfound
    · have hsome : some (created_operation crates req created.length) = some op := by
        rw [← hfound, Option.none_or, List.find?_singleton, if_pos]
        rw [hop, created_operation]
        split <;> simp [operation_row]
      obtain rfl := Option.some.inj hsome
      rw [created_operation]
      split <;> rfl
    · intro other hother
      rw [hop]
      simpa using heffect.fresh other hother
  have hagents : agent_entries after.rows = agent_entries db.rows := by
    rw [agent_entries, agent_entries, heffect.frame _ (by decide)]
  have hrows : (after.rows .desired_states).filter (fun d => d.operation_id == approval.op_id) =
      numbered approval.op_id (db.seq .desired_states) req.resources := hop ▸ numbered_of_create hcreate hunused
  obtain ⟨sorted, -, hrouting, hperm, -⟩ :=
    approval_routing_of_numbered hrows (create_operation_distinct hcreate) heffect.layered
  obtain rfl := Except.ok.inj (hrouting.symm.trans happroved.sorted)
  have hselector : ∀ r ∈ req.resources, (reread crates r).host_selector = r.host_selector := by
    intro r hr
    obtain ⟨value, hvalue, hsame⟩ := hreads r hr
    rw [reread, hvalue]
    exact hsame
  refine ⟨given, happroved.assignments, fun agent_id => ?_⟩
  have hdispatched := receivers_of_dispatched happroved.dispatched agent_id
  rw [hzip, henvironment, hagents] at hdispatched
  rw [← hdispatched, mem_receivers, mem_receivers]
  constructor
  · rintro ⟨r, hr, hroute⟩
    exact ⟨reread crates r, hperm.mem_iff.mpr (List.mem_map_of_mem hr),
      (route_resource_congr (hselector r hr) _).trans hroute⟩
  · rintro ⟨r', hr', hroute⟩
    obtain ⟨r, hr, rfl⟩ := List.mem_map.mp (hperm.mem_iff.mp hr')
    exact ⟨r, hr, (route_resource_congr (hselector r hr) _).symm.trans hroute⟩

end Receiving

section Submitting

variable {crates : Crates} {policies : List Policy} {identity : Identity} {sub : Submission} {db after : Store}
  {response : SubmitOperationResponse}

/-- An accepted submission is answered from its routing and from what the store says of it. -/
theorem submit_op_spec (h : (submit_op crates policies identity sub).run db = (.ok response, after)) :
    ∃ routing out, sub.routing crates = .ok routing ∧ response = submit_response routing out ∧
      (create_operation crates (create_request policies identity sub routing)).run db = (.ok out, after) := by
  rw [submit_op] at h
  obtain ⟨out, mid, hsubmit, h⟩ := run_bind_eq_ok_iff.mp h
  obtain ⟨routing, hrouting, h⟩ := run_ofExcept_bind_eq_ok_iff.mp h
  obtain ⟨hresponse, rfl⟩ := Prod.mk.inj h
  obtain ⟨routing', hrouting', hcreate⟩ := submit_spec hsubmit
  obtain rfl := Except.ok.inj (hrouting'.symm.trans hrouting)
  exact ⟨routing', out, hrouting, (Except.ok.inj hresponse).symm, hcreate⟩

theorem length_routing {routing : List ResourceForRouting} (h : sub.routing crates = .ok routing) :
    routing.length = sub.resources.length := by
  obtain ⟨extracted, hextracted, hsorted⟩ := fallible.bind_eq_ok_iff.mp h
  exact (depsort.topo_sort_length hsorted).trans (fallible.mapM_ok_iff.mp hextracted).length_eq.symm

theorem needs_approval_iff {routing : List ResourceForRouting} (h : sub.routing crates = .ok routing) :
    sub.needs_approval crates policies ↔
      (create_request policies identity sub routing).requires_approval = true := by
  constructor
  · rintro ⟨routing', hrouting', happroval⟩
    obtain rfl := Except.ok.inj (hrouting'.symm.trans h)
    exact happroval
  · exact fun happroval => ⟨routing, h, happroval⟩

theorem u32_or_max_eq_iff {n : Nat} : u32_or_max n = n ↔ n < 2 ^ 32 := by
  rw [u32_or_max]
  split <;> omega

/-- The blast radius is right exactly when no agent has resources in two layers,
or, where the operation waits for its approval, when nothing is routed at all. -/
theorem blast_radius_right_iff (h : (submit_op crates policies identity sub).run db = (.ok response, after)) :
    ∃ routing layers created, sub.routing crates = .ok routing ∧
      depsort.compute_resource_layers crates routing = .ok layers ∧
      after.rows .assignments = db.rows .assignments ++ created ∧
      (¬ sub.needs_approval crates policies → ∀ agent_id,
        agent_id ∈ receivers sub.environment (agent_entries db.rows) routing ↔
          ∃ row ∈ created, row.agent_id = agent_id) ∧
      (RadiusRight sub.environment (agent_entries db.rows) routing sub.resources.length response ↔
        sub.resources.length < 2 ^ 32 ∧
        (sub.needs_approval crates policies → destinations sub.environment (agent_entries db.rows) routing = []) ∧
        (¬ sub.needs_approval crates policies →
          OneLayerEach sub.environment (agent_entries db.rows) (routing.zip layers))) := by
  obtain ⟨routing, out, hrouting, rfl, hcreate⟩ := submit_op_spec h
  obtain ⟨layers, created, heffect⟩ := create_operation_spec hcreate
  have hneeds := @needs_approval_iff crates policies identity sub routing hrouting
  have hzip : (routing.zip layers).map Prod.fst = routing :=
    List.map_fst_zip (Nat.le_of_eq (depsort.compute_resource_layers_length heffect.layered).symm)
  have hlength := length_routing hrouting
  have hcount : out.assignment_count = created.length := by
    have hrows := create_operation_count hcreate
    rw [heffect.assignments, List.length_append] at hrows
    exact (Nat.add_left_cancel hrows).symm
  have hparts : (destinations sub.environment (agent_entries db.rows) routing).length + out.unrouted.length =
      sub.resources.length := by
    have hleft := congrArg List.length
      (@unrouted_of_ids sub.environment (agent_entries db.rows) (routing.zip layers))
    rw [List.length_map, List.length_map, hzip] at hleft
    have hunrouted : out.unrouted.length = (left_over sub.environment (agent_entries db.rows) routing).length := by
      rw [← hleft, heffect.unrouted]
      rfl
    rw [hunrouted, ← hlength]
    exact length_destinations
  have hagents : out.assignment_count = (receivers sub.environment (agent_entries db.rows) routing).length ↔
      (sub.needs_approval crates policies → destinations sub.environment (agent_entries db.rows) routing = []) ∧
      (¬ sub.needs_approval crates policies →
        OneLayerEach sub.environment (agent_entries db.rows) (routing.zip layers)) := by
    by_cases happroval : sub.needs_approval crates policies
    · have hnone := heffect.deferred (hneeds.mp happroval)
      rw [hcount, hnone, List.length_nil, eq_comm, List.length_eq_zero_iff, receivers, List.dedup_eq_nil]
      exact ⟨fun hnil => ⟨fun _ => hnil, fun hnot => absurd happroval hnot⟩, fun hboth => hboth.1 happroval⟩
    · have hmade := heffect.dispatched (Bool.eq_false_iff.mpr fun hrequires => happroval (hneeds.mpr hrequires))
      have hbuckets := @bucket_count_iff sub.environment (agent_entries db.rows) (routing.zip layers)
      rw [hzip] at hbuckets
      rw [hcount, ← hmade.length_eq]
      exact hbuckets.trans
        ⟨fun hone => ⟨fun hyes => absurd hyes happroval, fun _ => hone⟩, fun hboth => hboth.2 happroval⟩
  refine ⟨routing, layers, created, hrouting, heffect.layered, heffect.assignments, ?_, ?_⟩
  · intro happroval agent_id
    have hmade := heffect.dispatched (Bool.eq_false_iff.mpr fun hrequires => happroval (hneeds.mpr hrequires))
    have hreceivers := receivers_of_dispatched hmade agent_id
    rwa [show (create_request policies identity sub routing).resources = routing from rfl, hzip] at hreceivers
  · have htotal : (submit_response routing out).blast_radius.resource_count = sub.resources.length ↔
        sub.resources.length < 2 ^ 32 := by
      rw [← hlength]
      exact u32_or_max_eq_iff
    have hunrouted : (submit_response routing out).unrouted.length = out.unrouted.length := List.length_map _
    constructor
    · intro hright
      exact ⟨htotal.mp hright.resource_count, hagents.mp hright.agent_count⟩
    · rintro ⟨hfits, hcondition⟩
      exact ⟨hagents.mpr hcondition, hunrouted ▸ hparts, htotal.mpr hfits⟩

end Submitting

section Samples

def file_manifest (name : String) (depends_on : List String) : Value :=
  json [("kind", .string "File"), ("metadata", json [("name", .string name), ("environment", .string "prod"),
    ("dependsOn", .array (depends_on.map .string))])]

/-- A file, and one that must come after it. -/
def dependent_files : List Value :=
  [file_manifest "conf" [], file_manifest "unit" ["File/prod/conf"]]

def files_crates : Crates :=
  Crates.on (dependent_files ++ dependent_files.map fun value => AssignmentPayload.to_value ⟨[value]⟩)

def files_submission (resources : List Value) : Submission where
  environment := "prod"
  requested_by := "alice"
  source_commit := none
  summary := none
  resources
  canary := none
  now := midnight
  audit_now := midnight
  op_id := "op"
  ulid n := toString n

/-- The answer for a submission to the only registered agent. -/
def answer_to (policies : List Policy) (resources : List Value) : Except ApiError SubmitOperationResponse :=
  ((submit_op files_crates policies (user "alice" .Operator) (files_submission resources)).run one_agent).1

/-- The agent that gets both files counts as two agents. -/
theorem dependent_files_count_their_agent_twice :
    (answer_to [] dependent_files).toOption.map (fun response => response.blast_radius.agent_count) = some 2 ∧
      ((files_submission dependent_files).routing files_crates).toOption.map
        (receivers "prod" (agent_entries one_agent.rows)) = some ["a"] ∧
      ∀ response routing, answer_to [] dependent_files = .ok response →
        (files_submission dependent_files).routing files_crates = .ok routing →
        ¬ RadiusRight "prod" (agent_entries one_agent.rows) routing 2 response := by
  have hcount : (answer_to [] dependent_files).toOption.map (fun response => response.blast_radius.agent_count) =
      some 2 := by
    decide
  have hreceivers : ((files_submission dependent_files).routing files_crates).toOption.map
      (receivers "prod" (agent_entries one_agent.rows)) = some ["a"] := by
    decide
  refine ⟨hcount, hreceivers, fun response routing hanswer hrouting hright => ?_⟩
  rw [hanswer] at hcount
  rw [hrouting] at hreceivers
  have htwo : response.blast_radius.agent_count = 2 := Option.some.inj hcount
  have hone : receivers "prod" (agent_entries one_agent.rows) routing = ["a"] := Option.some.inj hreceivers
  have hagents := hright.agent_count
  rw [htwo, hone] at hagents
  cases hagents

/-- An operation that waits for its approval is said to reach no agent. -/
example : (answer_to [{ name := "gate", policy_match := { kind := some "File" }, requires_approval := true }]
    [file_manifest "conf" []]).toOption.map (fun response => response.blast_radius.agent_count) = some 0 := by
  decide

theorem one_file_is_counted : ∃ response routing, answer_to [] [file_manifest "conf" []] = .ok response ∧
    (files_submission [file_manifest "conf" []]).routing files_crates = .ok routing ∧
      RadiusRight "prod" (agent_entries one_agent.rows) routing 1 response := by
  have hok : (answer_to [] [file_manifest "conf" []]).toBool = true := by decide
  cases hrun : (submit_op files_crates [] (user "alice" .Operator) (files_submission [file_manifest "conf" []])).run
      one_agent with
  | mk result after =>
    rw [answer_to, hrun] at hok
    cases result with
    | error e => cases hok
    | ok response =>
      obtain ⟨routing, layers, created, hrouting, -, -, -, hright⟩ := blast_radius_right_iff hrun
      have hlength : routing.length = 1 := length_routing hrouting
      obtain ⟨r, rfl⟩ := List.length_eq_one_iff.mp hlength
      refine ⟨response, [r], by rw [answer_to, hrun], hrouting, hright.mpr ⟨by decide, ?_, ?_⟩⟩
      · rintro ⟨routing', -, happroval⟩
        cases happroval
      · rintro - agent_id layer other ⟨r₁, hlayer, -⟩ ⟨r₂, hother, -⟩
        cases layers with
        | nil => cases hlayer
        | cons l layers =>
          rw [List.zip_cons_cons, List.zip_nil_left, List.mem_singleton] at hlayer hother
          exact (congrArg Prod.snd hlayer).trans (congrArg Prod.snd hother).symm

end Samples

end iac_controlplane.api
