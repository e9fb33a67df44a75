import Iac.Controlplane.Store.CreateOperation

open serde_json sql

namespace iac_controlplane.store

structure DesiredStateItem where
  resource_id : String
  operation_id : String
  created_at : String
  resource : Value
  deriving DecidableEq

/-- The operation and the id of a resource that an agent was told to apply; none
when the resource does not say all of its id. -/
def owned_pair (operation_id : String) (res : Value) : Option (String × String) :=
  let kind := ((res.get "kind").bind Value.as_str).getD ""
  let name := (((res.get "metadata").bind fun m => m.get "name").bind Value.as_str).getD ""
  let env := (((res.get "metadata").bind fun m => m.get "environment").bind Value.as_str).getD ""
  if kind.isEmpty || name.isEmpty || env.isEmpty then none
  else some (operation_id, kind ++ "/" ++ env ++ "/" ++ name)

/-- A payload that does not parse is skipped. -/
def owned_pairs (crates : Crates) (assignments : List AssignmentRow) : List (String × String) :=
  assignments.flatMap fun a =>
    match crates.from_str a.payload_json with
    | .error _ => []
    | .ok payload =>
      (((payload.get "resources").bind Value.as_array).getD []).filterMap (owned_pair a.operation_id)

/-- A row of `desired_states` with the time of its operation. -/
abbrev StateOfOp := DesiredStateRow × String

/-- The rows of the operations, joined with these. -/
def joined_states (rows : Rows Row) (op_ids : List String) : List StateOfOp :=
  (rows .desired_states).flatMap fun d =>
    if op_ids.contains d.operation_id then
      ((rows .operations).filter fun op => op.id == d.operation_id).map fun op => (d, op.created_at)
    else []

/-- `ORDER BY ds.resource_id, o.created_at DESC, ds.id DESC` -/
def comes_first (a b : StateOfOp) : Bool :=
  a.1.resource_id < b.1.resource_id ||
    a.1.resource_id == b.1.resource_id &&
      (b.2 < a.2 || a.2 == b.2 && b.1.id ≤ a.1.id)

/-- The first owned row of each resource, when the rows of one come together. -/
def newest_items (crates : Crates) (owned : List (String × String)) (last_seen : Option String) :
    List StateOfOp → Except ApiError (List DesiredStateItem)
  | [] => .ok []
  | (d, created_at) :: rows =>
    if !owned.contains (d.operation_id, d.resource_id) then newest_items crates owned last_seen rows
    else if last_seen = some d.resource_id then newest_items crates owned last_seen rows
    else do
      let resource ← dispatched_value crates d.spec_json
      let out ← newest_items crates owned (some d.resource_id) rows
      return ⟨d.resource_id, d.operation_id, created_at, resource⟩ :: out

def list_desired_state_for_agent (crates : Crates) (agent_id : String) : Tx (List DesiredStateItem) := do
  let assignments ← sql_select fun db => (db .assignments).filter fun a =>
    a.agent_id == agent_id && a.status != .failed && a.kind == "apply"
  let owned := owned_pairs crates assignments
  if owned.isEmpty then return []
  else do
    let rows ← sql_select fun db => (joined_states db (owned.map Prod.fst)).insertionSort fun a b => comes_first a b
    Prog.ofExcept (newest_items crates owned none rows)

/-- An item is a row that was stored, as an agent gets it. -/
theorem mem_newest_items {crates : Crates} {owned : List (String × String)} {last_seen : Option String}
    {rows : List StateOfOp} {out : List DesiredStateItem} (h : newest_items crates owned last_seen rows = .ok out)
    {item : DesiredStateItem} (hitem : item ∈ out) : ∃ row ∈ rows, row.1.operation_id = item.operation_id ∧
      row.1.resource_id = item.resource_id ∧ (item.operation_id, item.resource_id) ∈ owned ∧
      dispatched_value crates row.1.spec_json = .ok item.resource := by
  induction rows generalizing last_seen out with
  | nil =>
    obtain rfl := Except.ok.inj h
    cases hitem
  | cons row rows ih =>
    obtain ⟨d, created_at⟩ := row
    have hrest {last_seen : Option String} {out : List DesiredStateItem}
        (h : newest_items crates owned last_seen rows = .ok out) (hitem : item ∈ out) :
        ∃ row ∈ (d, created_at) :: rows, row.1.operation_id = item.operation_id ∧
          row.1.resource_id = item.resource_id ∧ (item.operation_id, item.resource_id) ∈ owned ∧
          dispatched_value crates row.1.spec_json = .ok item.resource := by
      obtain ⟨row, hrow, hfound⟩ := ih h hitem
      exact ⟨row, List.mem_cons_of_mem _ hrow, hfound⟩
    rw [newest_items] at h
    split at h
    · exact hrest h hitem
    · rename_i howned
      split at h
      · exact hrest h hitem
      · cases hresource : dispatched_value crates d.spec_json with
        | error e => simp [hresource, bind, Except.bind] at h
        | ok resource =>
          cases htail : newest_items crates owned (some d.resource_id) rows with
          | error e => simp [hresource, htail, bind, Except.bind] at h
          | ok tail =>
            simp only [hresource, htail, bind, Except.bind, pure, Except.pure, Except.ok.injEq] at h
            subst h
            obtain rfl | hmem := List.mem_cons.mp hitem
            · exact ⟨_, List.mem_cons_self, rfl, rfl, by simpa using howned, hresource⟩
            · exact hrest htail hmem

theorem mem_joined_states {rows : Rows Row} {op_ids : List String} {row : StateOfOp} (h : row ∈ joined_states rows op_ids) :
    row.1 ∈ rows .desired_states ∧ ∃ op ∈ rows .operations, op.id = row.1.operation_id ∧ op.created_at = row.2 := by
  obtain ⟨d, hd, hrow⟩ := List.mem_flatMap.mp h
  split at hrow
  · obtain ⟨op, hop, rfl⟩ := List.mem_map.mp hrow
    obtain ⟨hmem, hid⟩ := List.mem_filter.mp hop
    exact ⟨hd, op, hmem, by simpa using hid, rfl⟩
  · cases hrow

/-- What an agent is told of the desired state was stored for one of its operations. -/
theorem mem_desired_state {crates : Crates} {agent_id : String} {db after : Store} {out : List DesiredStateItem}
    (h : (list_desired_state_for_agent crates agent_id).run db = (.ok out, after)) {item : DesiredStateItem}
    (hitem : item ∈ out) : ∃ d ∈ db.rows .desired_states, d.operation_id = item.operation_id ∧
      d.resource_id = item.resource_id ∧ dispatched_value crates d.spec_json = .ok item.resource := by
  rw [list_desired_state_for_agent, run_bind_ok (run_query _ _)] at h
  simp only at h
  split at h
  · obtain ⟨hout, -⟩ := Prod.mk.inj h
    obtain rfl := Except.ok.inj hout
    cases hitem
  · rw [run_bind_ok (run_query _ _)] at h
    obtain ⟨hout, -⟩ := Prod.mk.inj h
    obtain ⟨row, hrow, hop, hid, -, hresource⟩ := mem_newest_items hout hitem
    obtain ⟨hd, -⟩ := mem_joined_states ((List.mem_insertionSort _).mp hrow)
    exact ⟨row.1, hd, hop, hid, hresource⟩

end iac_controlplane.store
