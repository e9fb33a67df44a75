import Iac.Controlplane.Store.DesiredState
import Iac.Controlplane.Store.PrepareRollback.History

open serde_json sql

namespace iac_controlplane.store

/-- The manifest names the resource by its kind, its environment and its name. -/
def NamesResource (res : Value) (resource_id : String) : Prop :=
  ∃ kind environment name : String, kind ≠ "" ∧ environment ≠ "" ∧ name ≠ "" ∧
    res.get "kind" = some (.string kind) ∧
    ((res.get "metadata").bind fun m => m.get "environment") = some (.string environment) ∧
    ((res.get "metadata").bind fun m => m.get "name") = some (.string name) ∧
    resource_id = kind ++ "/" ++ environment ++ "/" ++ name

/-- The agent was given the resource by the operation, in an assignment that has not failed. -/
def GivenTo (crates : Crates) (rows : sql.Rows Row) (agent_id operation_id resource_id : String) : Prop :=
  ∃ a ∈ rows .assignments, a.agent_id = agent_id ∧ a.status ≠ .failed ∧ a.kind = "apply" ∧
    a.operation_id = operation_id ∧ ∃ payload resources, crates.from_str a.payload_json = .ok payload ∧
      payload.get "resources" = some (.array resources) ∧ ∃ res ∈ resources, NamesResource res resource_id

/-- Of the states that the agent was given for the resource `d` is the last one:
operations come in the order of the texts of their times, and the states of one
time in the order of their numbers. -/
structure LastGiven (crates : Crates) (rows : sql.Rows Row) (agent_id : String) (d : DesiredStateRow)
    (op : OperationRow) : Prop where
  stored : d ∈ rows .desired_states
  submitted : op ∈ rows .operations
  owner : op.id = d.operation_id
  given : GivenTo crates rows agent_id d.operation_id d.resource_id
  last : ∀ e ∈ rows .desired_states, ∀ p ∈ rows .operations, p.id = e.operation_id → e.resource_id = d.resource_id →
    GivenTo crates rows agent_id e.operation_id e.resource_id →
    toLex (p.created_at, e.id) ≤ toLex (op.created_at, d.id)

section Order

theorem comes_first_iff {a b : StateOfOp} : comes_first a b = true ↔
    a.1.resource_id < b.1.resource_id ∨
      a.1.resource_id = b.1.resource_id ∧ toLex (b.2, b.1.id) ≤ toLex (a.2, a.1.id) := by
  simp only [comes_first, Bool.or_eq_true, Bool.and_eq_true, decide_eq_true_eq, beq_iff_eq, Prod.Lex.toLex_le_toLex]
  refine or_congr Iff.rfl (and_congr Iff.rfl (or_congr Iff.rfl (and_congr ?_ Iff.rfl)))
  exact eq_comm

theorem comes_first_total (a b : StateOfOp) : comes_first a b = true ∨ comes_first b a = true := by
  rw [comes_first_iff, comes_first_iff]
  obtain hlt | heq | hgt := lt_trichotomy a.1.resource_id b.1.resource_id
  · exact .inl (.inl hlt)
  · obtain hle | hge := le_total (toLex (b.2, b.1.id)) (toLex (a.2, a.1.id))
    · exact .inl (.inr ⟨heq, hle⟩)
    · exact .inr (.inr ⟨heq.symm, hge⟩)
  · exact .inr (.inl hgt)

theorem comes_first_trans (a b c : StateOfOp) (hab : comes_first a b = true) (hbc : comes_first b c = true) :
    comes_first a c = true := by
  rw [comes_first_iff] at *
  obtain hlt | ⟨heq, hle⟩ := hab
  · obtain hlt' | ⟨heq', -⟩ := hbc
    · exact .inl (hlt.trans hlt')
    · exact .inl (heq' ▸ hlt)
  · obtain hlt' | ⟨heq', hle'⟩ := hbc
    · exact .inl (heq ▸ hlt')
    · exact .inr ⟨heq.trans heq', hle'.trans hle⟩

theorem sorted_states (rows : List StateOfOp) :
    (rows.insertionSort fun a b => comes_first a b).Pairwise fun a b => comes_first a b = true := by
  have htotal : Std.Total fun a b : StateOfOp => comes_first a b = true := ⟨comes_first_total⟩
  have htrans : IsTrans StateOfOp fun a b => comes_first a b = true := ⟨comes_first_trans⟩
  exact List.pairwise_insertionSort _ rows

end Order

section Newest

variable {owned : List (String × String)} {last_seen : Option String} {row r : StateOfOp} {rows : List StateOfOp}

def Owned (owned : List (String × String)) (row : StateOfOp) : Prop :=
  (row.1.operation_id, row.1.resource_id) ∈ owned

/-- The row is the first owned one of its resource, and that is not the last seen one. -/
structure Due (owned : List (String × String)) (last_seen : Option String) (rows : List StateOfOp)
    (row : StateOfOp) : Prop where
  mem : row ∈ rows
  held : Owned owned row
  unseen : last_seen ≠ some row.1.resource_id
  first : ∀ other ∈ rows, Owned owned other → other.1.resource_id = row.1.resource_id → comes_first row other = true

/-- A row of another resource, and one that is not owned, has no say. -/
theorem due_cons_of_other (hother : Owned owned row → row.1.resource_id ≠ r.1.resource_id) :
    Due owned last_seen (row :: rows) r ↔ Due owned last_seen rows r := by
  constructor
  · intro h
    obtain rfl | hmem := List.mem_cons.mp h.mem
    · exact absurd rfl (hother h.held)
    · exact ⟨hmem, h.held, h.unseen, fun other hin => h.first other (List.mem_cons_of_mem _ hin)⟩
  · intro h
    refine ⟨List.mem_cons_of_mem _ h.mem, h.held, h.unseen, fun other hin howned heq => ?_⟩
    obtain rfl | hin := List.mem_cons.mp hin
    · exact absurd heq (hother howned)
    · exact h.first other hin howned heq

theorem due_cons_seen (hseen : last_seen = some row.1.resource_id) :
    Due owned last_seen (row :: rows) r ↔ Due owned last_seen rows r := by
  by_cases heq : row.1.resource_id = r.1.resource_id
  · rw [heq] at hseen
    exact ⟨fun h => absurd hseen h.unseen, fun h => absurd hseen h.unseen⟩
  · exact due_cons_of_other fun _ => heq

theorem due_cons_new (howned : Owned owned row) (hfirst : ∀ other ∈ rows, comes_first row other = true)
    (hdistinct : ∀ other ∈ rows, comes_first other row = true → other = row)
    (hnew : last_seen ≠ some row.1.resource_id) (hlast : ∀ seen, last_seen = some seen → seen ≤ row.1.resource_id) :
    Due owned last_seen (row :: rows) r ↔ r = row ∨ Due owned (some row.1.resource_id) rows r := by
  by_cases heq : row.1.resource_id = r.1.resource_id
  · have hnone : ¬ Due owned (some row.1.resource_id) rows r := fun h => h.unseen (congrArg some heq)
    rw [or_iff_left hnone]
    constructor
    · intro h
      obtain rfl | hmem := List.mem_cons.mp h.mem
      · rfl
      · exact hdistinct r hmem (h.first row List.mem_cons_self howned heq)
    · rintro rfl
      refine ⟨List.mem_cons_self, howned, hnew, fun other hin _ _ => ?_⟩
      obtain rfl | hin := List.mem_cons.mp hin
      · exact (comes_first_total other other).elim id id
      · exact hfirst other hin
  · rw [due_cons_of_other fun _ => heq, or_iff_right (fun h : r = row => heq (h ▸ rfl))]
    constructor
    · intro h
      exact ⟨h.mem, h.held, fun h => heq (Option.some.inj h), h.first⟩
    · intro h
      refine ⟨h.mem, h.held, fun hseen => ?_, h.first⟩
      -- the last seen resource would stand between two equal ones
      have hle : r.1.resource_id ≤ row.1.resource_id := hlast _ hseen
      have hge : row.1.resource_id ≤ r.1.resource_id := by
        obtain hlt | ⟨heq', -⟩ := comes_first_iff.mp (hfirst r h.mem)
        · exact hlt.le
        · exact heq'.le
      exact heq (le_antisymm hge hle)

/-- The item that a row makes. -/
def Presents (crates : Crates) (row : StateOfOp) (item : DesiredStateItem) : Prop :=
  item.resource_id = row.1.resource_id ∧ item.operation_id = row.1.operation_id ∧ item.created_at = row.2 ∧
    dispatched_value crates row.1.spec_json = .ok item.resource

/-- The pass over sorted rows has an item for each row that is due, in their order. -/
theorem newest_items_spec {crates : Crates} (hsorted : rows.Pairwise fun a b => comes_first a b = true)
    (hdistinct : ∀ a ∈ rows, ∀ b ∈ rows, comes_first a b = true → comes_first b a = true → a = b)
    (hreads : ∀ row ∈ rows, ∃ value, dispatched_value crates row.1.spec_json = .ok value)
    (hlast : ∀ seen, last_seen = some seen → ∀ row ∈ rows, seen ≤ row.1.resource_id) :
    ∃ out, newest_items crates owned last_seen rows = .ok out ∧
      (out.map DesiredStateItem.resource_id).Pairwise (· < ·) ∧
      ∀ item, item ∈ out ↔ ∃ row, Due owned last_seen rows row ∧ Presents crates row item := by
  induction rows generalizing last_seen with
  | nil =>
    refine ⟨[], rfl, .nil, fun item => iff_of_false List.not_mem_nil ?_⟩
    rintro ⟨row, hdue, -⟩
    exact absurd hdue.mem List.not_mem_nil
  | cons row rows ih =>
    obtain ⟨hfirst, hsorted⟩ := List.pairwise_cons.mp hsorted
    obtain ⟨hread, hreads⟩ := List.forall_mem_cons.mp hreads
    have hrest (last_seen : Option String) := @ih last_seen hsorted
      (fun a ha b hb => hdistinct a (List.mem_cons_of_mem _ ha) b (List.mem_cons_of_mem _ hb)) hreads
    have hkeys : ∀ other ∈ rows, row.1.resource_id ≤ other.1.resource_id := by
      intro other hother
      obtain hlt | ⟨heq, -⟩ := comes_first_iff.mp (hfirst other hother)
      · exact hlt.le
      · exact heq.le
    have hskip (hsame : ∀ r, Due owned last_seen (row :: rows) r ↔ Due owned last_seen rows r) :
        ∃ out, newest_items crates owned last_seen rows = .ok out ∧
          (out.map DesiredStateItem.resource_id).Pairwise (· < ·) ∧
          ∀ item, item ∈ out ↔ ∃ r, Due owned last_seen (row :: rows) r ∧ Presents crates r item := by
      obtain ⟨out, hrun, hout, hitems⟩ := hrest last_seen fun seen hs r hr => hlast seen hs r (List.mem_cons_of_mem _ hr)
      exact ⟨out, hrun, hout, fun item => (hitems item).trans (exists_congr fun r => and_congr (hsame r).symm Iff.rfl)⟩
    rw [newest_items]
    by_cases howned : Owned owned row
    · rw [if_neg (by simpa [Owned] using howned)]
      by_cases hseen : last_seen = some row.1.resource_id
      · rw [if_pos hseen]
        exact hskip fun r => due_cons_seen hseen
      · rw [if_neg hseen]
        obtain ⟨resource, hresource⟩ := hread
        obtain ⟨out, hrun, hout, hitems⟩ := hrest (some row.1.resource_id) (by
          rintro seen ⟨⟩ r hr
          exact hkeys r hr)
        refine ⟨⟨row.1.resource_id, row.1.operation_id, row.2, resource⟩ :: out, ?_, ?_, fun item => ?_⟩
        · rw [hresource, hrun]
          rfl
        · refine List.pairwise_cons.mpr ⟨fun id hid => ?_, hout⟩
          obtain ⟨item, hitem, rfl⟩ := List.mem_map.mp hid
          obtain ⟨r, hdue, hid, -⟩ := (hitems item).mp hitem
          rw [hid]
          exact lt_of_le_of_ne (hkeys r hdue.mem) fun heq => hdue.unseen (congrArg some heq)
        · rw [List.mem_cons, hitems]
          have hdue (r : StateOfOp) := due_cons_new (r := r) howned hfirst (fun other hin hback =>
            (hdistinct row List.mem_cons_self other (List.mem_cons_of_mem _ hin) (hfirst other hin) hback).symm) hseen
            fun seen hs => hlast seen hs row List.mem_cons_self
          constructor
          · rintro (rfl | ⟨r, hr, hpresents⟩)
            · exact ⟨row, (hdue row).mpr (.inl rfl), rfl, rfl, rfl, hresource⟩
            · exact ⟨r, (hdue r).mpr (.inr hr), hpresents⟩
          · rintro ⟨r, hr, hpresents⟩
            obtain rfl | hr := (hdue r).mp hr
            · obtain ⟨hid, hop, htime, hvalue⟩ := hpresents
              refine .inl ?_
              obtain rfl := Except.ok.inj (hresource.symm.trans hvalue)
              cases item
              simp_all
            · exact .inr ⟨r, hr, hpresents⟩
    · rw [if_pos (by simpa [Owned] using howned)]
      exact hskip fun r => due_cons_of_other fun h => absurd h howned

end Newest

section Given

variable {crates : Crates}

theorem owned_pair_eq_some_iff {operation_id : String} {res : Value} {pair : String × String} :
    owned_pair operation_id res = some pair ↔ pair.1 = operation_id ∧ NamesResource res pair.2 := by
  have htext {field : Option Value} {text : String} (hne : text ≠ "") :
      (field.bind Value.as_str).getD "" = text ↔ field = some (.string text) := by
    cases field with
    | none => simpa using hne.symm
    | some value => cases value <;> simp [Value.as_str, hne.symm]
  obtain ⟨op, id⟩ := pair
  rw [owned_pair, NamesResource]
  simp only [Option.ite_none_left_eq_some, Bool.or_eq_true, String.isEmpty_iff, not_or, Option.some.injEq, Prod.mk.injEq]
  constructor
  · rintro ⟨⟨⟨hkind, hname⟩, henv⟩, rfl, rfl⟩
    exact ⟨rfl, _, _, _, hkind, henv, hname, (htext hkind).mp rfl, (htext henv).mp rfl, (htext hname).mp rfl, rfl⟩
  · rintro ⟨rfl, kind, env, name, hkind, henv, hname, hk, he, hn, rfl⟩
    rw [(htext hkind).mpr hk, (htext henv).mpr he, (htext hname).mpr hn]
    exact ⟨⟨⟨hkind, hname⟩, henv⟩, rfl, rfl⟩

theorem mem_owned_pairs {assignments : List AssignmentRow} {pair : String × String} :
    pair ∈ owned_pairs crates assignments ↔ ∃ a ∈ assignments, a.operation_id = pair.1 ∧
      ∃ payload resources, crates.from_str a.payload_json = .ok payload ∧
        payload.get "resources" = some (.array resources) ∧ ∃ res ∈ resources, NamesResource res pair.2 := by
  rw [owned_pairs, List.mem_flatMap]
  refine exists_congr fun a => and_congr Iff.rfl ?_
  cases hpayload : crates.from_str a.payload_json with
  | error e => simp
  | ok payload =>
    simp only [List.mem_filterMap, owned_pair_eq_some_iff, Except.ok.injEq, exists_and_left, exists_eq_left']
    cases hresources : payload.get "resources" with
    | none => simp
    | some value =>
      cases value with
      | array resources =>
        simp only [Option.bind_some, Value.as_array, Option.getD_some, Option.some.injEq, Value.array.injEq,
          exists_eq_left']
        constructor
        · rintro ⟨res, hres, hop, hnames⟩
          exact ⟨hop.symm, res, hres, hnames⟩
        · rintro ⟨hop, res, hres, hnames⟩
          exact ⟨res, hres, hop.symm, hnames⟩
      | null | bool _ | number _ | string _ | object _ => simp [Value.as_array]

theorem mem_joined_states_iff {rows : sql.Rows Row} {op_ids : List String} {row : StateOfOp} :
    row ∈ joined_states rows op_ids ↔ row.1 ∈ rows .desired_states ∧ row.1.operation_id ∈ op_ids ∧
      ∃ op ∈ rows .operations, op.id = row.1.operation_id ∧ op.created_at = row.2 := by
  obtain ⟨d, created_at⟩ := row
  rw [joined_states, List.mem_flatMap]
  constructor
  · rintro ⟨e, he, hrow⟩
    split at hrow
    · rename_i hop
      obtain ⟨op, hmem, heq⟩ := List.mem_map.mp hrow
      obtain ⟨rfl, rfl⟩ := Prod.mk.inj heq
      obtain ⟨hmem, hid⟩ := List.mem_filter.mp hmem
      exact ⟨he, by simpa using hop, op, hmem, by simpa using hid, rfl⟩
    · cases hrow
  · rintro ⟨hd, hop, op, hmem, hid, htime⟩
    refine ⟨d, hd, ?_⟩
    rw [if_pos (by simpa using hop)]
    exact List.mem_map.mpr ⟨op, List.mem_filter.mpr ⟨hmem, by simpa using hid⟩, Prod.ext rfl htime⟩

theorem Historic.reads {db : Store} (h : Historic crates db) {d : DesiredStateRow} (hd : d ∈ db.rows .desired_states) :
    ∃ value, dispatched_value crates d.spec_json = .ok value := by
  obtain ⟨deps, hdeps, -⟩ := h.closed d hd
  unfold depsort.read_depends_on at hdeps
  cases hread : crates.from_str d.spec_json with
  | error e => simp [hread] at hdeps
  | ok value =>
    refine ⟨strip_routing_hints value, ?_⟩
    simp [dispatched_value, hread, json_error, bind, Except.bind, pure, Except.pure]

/-- No two rows of the join are in the same place of the order. -/
theorem joined_states_distinct {db : Store} (h : Historic crates db) {op_ids : List String} {a b : StateOfOp}
    (ha : a ∈ joined_states db.rows op_ids) (hb : b ∈ joined_states db.rows op_ids)
    (hab : comes_first a b = true) (hba : comes_first b a = true) : a = b := by
  obtain hlt | ⟨heq, hle⟩ := comes_first_iff.mp hab
  · obtain hlt' | ⟨heq', -⟩ := comes_first_iff.mp hba
    · exact absurd hlt hlt'.asymm
    · exact absurd hlt (heq' ▸ lt_irrefl _)
  · obtain hlt' | ⟨-, hge⟩ := comes_first_iff.mp hba
    · exact absurd hlt' (heq ▸ lt_irrefl _)
    · obtain ⟨htime, hid⟩ := Prod.mk.inj (toLex.injective (le_antisymm hge hle))
      exact Prod.ext (h.ids _ (mem_joined_states ha).1 _ (mem_joined_states hb).1 hid) htime

/-- What the pass takes is what was given last. -/
theorem due_iff_last_given {db : Store} {agent_id : String} {owned : List (String × String)}
    (howned : ∀ pair, pair ∈ owned ↔ GivenTo crates db.rows agent_id pair.1 pair.2) {rows : List StateOfOp}
    (hrows : ∀ row, row ∈ rows ↔ row ∈ joined_states db.rows (owned.map Prod.fst)) (row : StateOfOp) :
    Due owned none rows row ↔ ∃ op, LastGiven crates db.rows agent_id row.1 op ∧ op.created_at = row.2 := by
  have hjoined {row : StateOfOp} (hheld : Owned owned row) : row ∈ rows ↔ row.1 ∈ db.rows .desired_states ∧
      ∃ op ∈ db.rows .operations, op.id = row.1.operation_id ∧ op.created_at = row.2 := by
    rw [hrows, mem_joined_states_iff, and_iff_right (List.mem_map.mpr ⟨_, hheld, rfl⟩)]
  constructor
  · intro h
    obtain ⟨hstored, op, hop, howner, htime⟩ := (hjoined h.held).mp h.mem
    refine ⟨op, ⟨hstored, hop, howner, (howned _).mp h.held, fun e he p hp hpe hid hgiven => ?_⟩, htime⟩
    have hheld : Owned owned (e, p.created_at) := (howned _).mpr hgiven
    obtain hlt | ⟨-, hle⟩ := comes_first_iff.mp
      (h.first (e, p.created_at) ((hjoined hheld).mpr ⟨he, p, hp, hpe, rfl⟩) hheld hid)
    · exact absurd hlt (hid ▸ lt_irrefl _)
    · exact htime ▸ hle
  · rintro ⟨op, hlast, htime⟩
    have hheld : Owned owned row := (howned _).mpr hlast.given
    refine ⟨(hjoined hheld).mpr ⟨hlast.stored, op, hlast.submitted, hlast.owner, htime⟩, hheld, nofun, ?_⟩
    intro other hmem hother hid
    obtain ⟨hstored, p, hp, hpe, htime'⟩ := (hjoined hother).mp hmem
    have hle := hlast.last other.1 hstored p hp hpe hid ((howned _).mp hother)
    exact comes_first_iff.mpr (.inr ⟨hid.symm, htime ▸ htime' ▸ hle⟩)

/-- The list has the last state that the agent was given for each resource, and
nothing else; it never fails. -/
theorem desired_state_is_last_given {allowed : Store → Call → Prop} {db : Store} (hreach : Reachable crates allowed db)
    (agent_id : String) : ∃ out, (list_desired_state_for_agent crates agent_id).run db = (.ok out, db) ∧
      (out.map DesiredStateItem.resource_id).Pairwise (· < ·) ∧
      ∀ item, item ∈ out ↔ ∃ d op, LastGiven crates db.rows agent_id d op ∧ item.resource_id = d.resource_id ∧
        item.operation_id = d.operation_id ∧ item.created_at = op.created_at ∧
        dispatched_value crates d.spec_json = .ok item.resource := by
  have hhistoric : Historic crates db := reachable_historic hreach
  rw [list_desired_state_for_agent, run_bind_ok (run_query _ _)]
  generalize hassignments : (db.rows .assignments).filter (fun a =>
    a.agent_id == agent_id && a.status != .failed && a.kind == "apply") = assignments
  have howned (pair : String × String) :
      pair ∈ owned_pairs crates assignments ↔ GivenTo crates db.rows agent_id pair.1 pair.2 := by
    rw [mem_owned_pairs, GivenTo]
    refine exists_congr fun a => ?_
    rw [← hassignments, List.mem_filter]
    simp only [Bool.and_eq_true, beq_iff_eq, bne_iff_ne, ne_eq, and_assoc]
  simp only
  split
  · rename_i hempty
    refine ⟨[], rfl, .nil, fun item => iff_of_false List.not_mem_nil ?_⟩
    rintro ⟨d, op, hgiven, -⟩
    have hmem := (howned (d.operation_id, d.resource_id)).mpr hgiven.given
    rw [List.isEmpty_iff.mp hempty] at hmem
    exact absurd hmem List.not_mem_nil
  · rw [run_bind_ok (run_query _ _)]
    have hrows (row : StateOfOp) := List.mem_insertionSort (fun a b => comes_first a b = true) (x := row)
      (l := joined_states db.rows ((owned_pairs crates assignments).map Prod.fst))
    have hsorted := sorted_states (joined_states db.rows ((owned_pairs crates assignments).map Prod.fst))
    obtain ⟨out, hrun, hout, hitems⟩ := @newest_items_spec (owned_pairs crates assignments) none _ crates hsorted
      (fun a ha b hb => joined_states_distinct hhistoric ((hrows a).mp ha) ((hrows b).mp hb))
      (fun row hrow => hhistoric.reads (mem_joined_states ((hrows row).mp hrow)).1) (fun _ hseen => by cases hseen)
    refine ⟨out, by rw [run_ofExcept, hrun], hout, fun item => (hitems item).trans ?_⟩
    constructor
    · rintro ⟨row, hdue, hid, hop, htime, hvalue⟩
      obtain ⟨op, hlast, hcreated⟩ := (due_iff_last_given howned hrows row).mp hdue
      exact ⟨row.1, op, hlast, hid, hop, htime.trans hcreated.symm, hvalue⟩
    · rintro ⟨d, op, hlast, hpresents⟩
      exact ⟨(d, op.created_at), (due_iff_last_given howned hrows _).mpr ⟨op, hlast, rfl⟩, hpresents⟩

end Given

section Samples

/-- A manifest of the package `web` for the host `a`, which says all of its id. -/
def web_manifest (version : String) : Value :=
  json [("kind", .string "Package"),
    ("metadata", json [("environment", .string "prod"), ("name", .string "web")]),
    ("spec", json [("hostSelector", json [("name", .string "a")]), ("version", .string version)])]

def web (version : String) : ResourceForRouting :=
  { resource "Package/prod/web" "a" [] with resource_json := compact (web_manifest version) }

/-- The package is applied, and applied again in another version. -/
def upgrade_calls : List Call :=
  [.register_agent (registration "a"), .create_operation (submission [web "1"] none),
    .create_operation { submission [web "2"] none with op_id := "upgrade", ulid := fun n => "upgrade" ++ toString n }]

def upgrade_crates : Crates := crates_on [web_manifest "1", web_manifest "2"]

def upgraded : Store := call_all upgrade_crates upgrade_calls migrated

theorem upgrade_is_desired : ∃ out,
    (list_desired_state_for_agent upgrade_crates "a").run upgraded = (.ok out, upgraded) ∧
      out.map (fun item => (item.resource_id, item.operation_id)) = [("Package/prod/web", "upgrade")] := by
  obtain ⟨out, hrun, -⟩ := desired_state_is_last_given (reachable_call_all upgrade_crates upgrade_calls) "a"
  have hitems : ((list_desired_state_for_agent upgrade_crates "a").run upgraded).1.toOption.map
      (fun out => out.map fun item => (item.resource_id, item.operation_id)) = some [("Package/prod/web", "upgrade")] := by
    set_option maxRecDepth 4000 in decide
  exact ⟨out, hrun, by simpa [upgraded, hrun, Except.toOption] using hitems⟩

end Samples

end iac_controlplane.store
