import Iac.Controlplane.Depsort.Order
import Iac.Controlplane.Store.PrepareRollback
import Iac.Controlplane.Store.PrepareRollback.History
import Mathlib.Data.Set.Finite.Lemmas

open iac_core.protocol sql kahn

namespace iac_controlplane.store

/-- The ids of the resources of an operation. -/
def resources_of (rows : sql.Rows Row) (op_id : String) : List String :=
  ((rows .desired_states).filter fun d => d.operation_id == op_id).map DesiredStateRow.resource_id

/-- What a resource is applied from. -/
def DesiredStateRow.content (d : DesiredStateRow) : String × String × String :=
  (d.kind, d.environment, d.spec_json)

def ResourceForRouting.content (r : ResourceForRouting) : String × String × String :=
  (r.kind, r.environment, r.resource_json)

/-- The state belongs to an operation with a successful end that was created at `t`. -/
def AppliedAt (rows : sql.Rows Row) (d : DesiredStateRow) (t : jiff.Timestamp) : Prop :=
  d ∈ rows .desired_states ∧
    ∃ o ∈ rows .operations, o.id = d.operation_id ∧ applied o.status = true ∧ o.created_at = t.to_string

/-- The state belongs to an operation of before `target` that applied the resource at `t`. -/
def AppliedBefore (rows : sql.Rows Row) (target : OperationRow) (resource_id : String) (d : DesiredStateRow)
    (t : jiff.Timestamp) : Prop :=
  d.resource_id = resource_id ∧ AppliedAt rows d t ∧ ∃ u, target.created_at = jiff.Timestamp.to_string u ∧ t.nanos < u.nanos

/-- The state by the newest operation that applied the resource before `target`. -/
def PriorState (rows : sql.Rows Row) (target : OperationRow) (resource_id : String) (d : DesiredStateRow) : Prop :=
  ∃ t, AppliedBefore rows target resource_id d t ∧
    ∀ e s, AppliedBefore rows target resource_id e s → toLex (s.nanos, e.id) ≤ toLex (t.nanos, d.id)

/-- Each resource of the operation is reverted to its prior state or orphaned,
and the reverted ones can be submitted. -/
structure ExactRollback (crates : Crates) (rows : sql.Rows Row) (target : OperationRow)
    (reverted : List ResourceForRouting) (orphaned : List String) : Prop where
  partition : (reverted.map (·.resource_id) ++ orphaned).Perm (resources_of rows target.id)
  priors : ∀ r ∈ reverted, ∃ d, PriorState rows target r.resource_id d ∧ r.content = d.content
  orphans : ∀ resource_id ∈ orphaned, ∀ d, ¬ PriorState rows target resource_id d
  submittable : reverted ≠ [] → ∃ sorted, depsort.topo_sort_by_depends_on crates reverted = .ok sorted

def RollsBackExactly (crates : Crates) (scan : Scan DesiredStateRow) (db : Store) (target : OperationRow) : Prop :=
  ∃ reverted orphaned, (prepare_rollback crates scan target.id).run db =
      (.ok (reverted, orphaned, target.environment), db) ∧
    ExactRollback crates db.rows target reverted orphaned

/-- The state belongs to another operation that applied the resource at `t`. -/
def AppliedElsewhere (rows : sql.Rows Row) (target : OperationRow) (resource_id : String) (d : DesiredStateRow)
    (t : jiff.Timestamp) : Prop :=
  d.resource_id = resource_id ∧ d.operation_id ≠ target.id ∧ AppliedAt rows d t

/-- No time that is another one cut short stands in the way: that of the prior
state is not the target's, the target's is that of no later operation with
another spec, and that of no older one with another spec is the prior state's. -/
structure TimesAgree (rows : sql.Rows Row) (target : OperationRow) (resource_id : String) (u : jiff.Timestamp) : Prop where
  prior : ∀ e t, PriorState rows target resource_id e → AppliedAt rows e t → ¬ jiff.Truncates t u
  later : ∀ d t, AppliedElsewhere rows target resource_id d t → jiff.Truncates u t →
    ∃ e, PriorState rows target resource_id e ∧ d.content = e.content
  older : ∀ e t d s, PriorState rows target resource_id e → AppliedAt rows e t →
    AppliedBefore rows target resource_id d s → jiff.Truncates s t → ¬ jiff.Truncates s u → d.content = e.content

/-- The other operations that applied the resource gave it different specs. -/
def Varied (rows : sql.Rows Row) (target : OperationRow) (resource_id : String) : Prop :=
  ∀ d e t s, AppliedElsewhere rows target resource_id d t → AppliedElsewhere rows target resource_id e s →
    d.content = e.content → d = e

/-- The operations are of the years 0000 to 9999. -/
def InEra (rows : sql.Rows Row) : Prop :=
  ∀ o ∈ rows .operations, ∀ t : jiff.Timestamp, o.created_at = t.to_string → 0 ≤ t.nanos

/-- The operation has ended, also when it was rejected. -/
def OperationStatus.terminal : OperationStatus → Bool
  | .succeeded | .partially_applied | .failed | .rejected => true
  | _ => false

/-- The state belongs to another operation that applied the resource and whose
time has the lesser text. -/
def FiledBefore (rows : sql.Rows Row) (target : OperationRow) (resource_id : String) (d : DesiredStateRow)
    (o : OperationRow) : Prop :=
  d ∈ rows .desired_states ∧ o ∈ rows .operations ∧ o.id = d.operation_id ∧ d.resource_id = resource_id ∧
    d.operation_id ≠ target.id ∧ applied o.status = true ∧ o.created_at < target.created_at

/-- The last of them carries what the prior state does. -/
def FiledInOrder (rows : sql.Rows Row) (target : OperationRow) (resource_id : String) : Prop :=
  (∀ d o, FiledBefore rows target resource_id d o → ∃ e, PriorState rows target resource_id e) ∧
    ∀ e, PriorState rows target resource_id e → ∃ d o, FiledBefore rows target resource_id d o ∧ d.content = e.content ∧
      ∀ d' o', FiledBefore rows target resource_id d' o' → toLex (o'.created_at, d'.id) ≤ toLex (o.created_at, d.id)

/-- The prior state of the resource names only resources of the operation. -/
def NamesWithin (crates : Crates) (rows : sql.Rows Row) (target : OperationRow) (resource_id : String) : Prop :=
  ∀ d deps, PriorState rows target resource_id d → depsort.read_depends_on crates d.spec_json = .ok deps →
    ∀ dep_id ∈ deps, dep_id ∈ resources_of rows target.id

section Runs

variable {crates : Crates}

theorem routing_of_row_ok {d : DesiredStateRow} {deps : List String}
    (h : depsort.read_depends_on crates d.spec_json = .ok deps) : ∃ r, routing_of_row crates d = .ok r := by
  rw [depsort.read_depends_on] at h
  rw [routing_of_row]
  cases hvalue : crates.from_str d.spec_json with
  | error e => simp [hvalue] at h
  | ok value => exact ⟨_, rfl⟩

theorem routing_of_row_content {d : DesiredStateRow} {r : ResourceForRouting} (h : routing_of_row crates d = .ok r) :
    r.content = d.content := by
  obtain ⟨-, hkind, henvironment, hspec⟩ := routing_of_row_spec h
  rw [ResourceForRouting.content, hkind, henvironment, hspec]
  rfl

/-- The loop reverts each resource with a prior state and orphans the others. -/
private theorem run_revert_resources {db : Store} (h : Historic crates db) (op_id : String) (ids : List String)
    (reverted : List ResourceForRouting) (orphaned : List String) :
    ∃ new left, (revert_resources crates op_id ids reverted orphaned).run db =
        (.ok (reverted ++ new, orphaned ++ left), db) ∧
      (new.map (·.resource_id) ++ left).Perm ids ∧
      (∀ r ∈ new, ∃ d, prior_state db.rows op_id r.resource_id = some d ∧ r.content = d.content) ∧
      ∀ resource_id ∈ left, prior_state db.rows op_id resource_id = none := by
  induction ids generalizing reverted orphaned with
  | nil => exact ⟨[], [], by simp [revert_resources], .nil, by simp, by simp⟩
  | cons resource_id ids ih =>
    rw [revert_resources, run_bind_ok (run_query _ _)]
    cases hprior : prior_state db.rows op_id resource_id with
    | none =>
      obtain ⟨new, left, hrun, hperm, hnew, hleft⟩ := ih reverted (orphaned ++ [resource_id])
      refine ⟨new, resource_id :: left, ?_, List.perm_middle.trans (hperm.cons _), hnew, ?_⟩
      · simpa using hrun
      · exact List.forall_mem_cons.mpr ⟨hprior, hleft⟩
    | some d =>
      obtain ⟨hd, hid, -⟩ := prior_state_spec hprior
      obtain ⟨deps, hdeps, -⟩ := h.closed d hd
      obtain ⟨r, hr⟩ := routing_of_row_ok hdeps
      have hresource : r.resource_id = resource_id := (routing_of_row_spec hr).1.trans hid
      obtain ⟨new, left, hrun, hperm, hnew, hleft⟩ := ih (reverted ++ [r]) orphaned
      refine ⟨r :: new, left, ?_, ?_, ?_, hleft⟩
      · simp only
        rw [hr, run_bind_ok (run_ofExcept _ _)]
        simpa using hrun
      · rw [List.map_cons, hresource]
        exact hperm.cons _
      · refine List.forall_mem_cons.mpr ⟨⟨d, hresource ▸ hprior, routing_of_row_content hr⟩, hnew⟩

/-- The two lists that `prepare_rollback` answers with. -/
structure Answer (rows : sql.Rows Row) (op_id : String) (reverted : List ResourceForRouting) (orphaned : List String) :
    Prop where
  partition : (reverted.map (·.resource_id) ++ orphaned).Perm (resources_of rows op_id)
  chosen : ∀ r ∈ reverted, ∃ d, prior_state rows op_id r.resource_id = some d ∧ r.content = d.content
  unchosen : ∀ resource_id ∈ orphaned, prior_state rows op_id resource_id = none

/-- What `prepare_rollback` returns on an operation that is not rolling out any more. -/
theorem prepare_rollback_run {db : Store} (h : Historic crates db) (hconsistent : Consistent db) {target : OperationRow}
    (htarget : target ∈ db.rows .operations) (hterminal : rolled_out target.status = true) (scan : Scan DesiredStateRow) :
    ∃ reverted orphaned, (prepare_rollback crates scan target.id).run db =
        (.ok (reverted, orphaned, target.environment), db) ∧ Answer db.rows target.id reverted orphaned := by
  have hfind := find_key_of_mem hconsistent.operation_ids htarget
  obtain ⟨reverted, orphaned, hrun, hperm, hreverted, horphaned⟩ := run_revert_resources h target.id
    ((scan.order ((db.rows .desired_states).filter fun d => d.operation_id == target.id)).map
      DesiredStateRow.resource_id) [] []
  refine ⟨reverted, orphaned, ?_, ⟨hperm.trans ((scan.perm _).map _), hreverted, horphaned⟩⟩
  rw [prepare_rollback, run_bind_ok (run_query _ _), hfind]
  simp only [hterminal, if_true]
  rw [run_bind_ok (run_query _ _), run_bind_ok hrun]
  rfl

end Runs

section Orders

variable {crates : Crates} {db : Store} {target : OperationRow} {resource_id : String} {d e : DesiredStateRow}

private theorem mem_prior_iff (hconsistent : Consistent db) (htarget : target ∈ db.rows .operations) {o : OperationRow} :
    (d, o) ∈ ((with_operation db.rows).filter fun entry => precedes db.rows target.id resource_id entry.1 entry.2) ↔
      FiledBefore db.rows target resource_id d o := by
  have hfind := find_key_of_mem hconsistent.operation_ids htarget
  rw [List.mem_filter, mem_with_operation, FiledBefore]
  simp only [precedes, hfind, Option.any_some, Bool.and_eq_true, beq_iff_eq, bne_iff_ne, decide_eq_true_eq]
  tauto

private theorem prior_state_some (hconsistent : Consistent db) (htarget : target ∈ db.rows .operations)
    (h : prior_state db.rows target.id resource_id = some d) :
    ∃ o, FiledBefore db.rows target resource_id d o ∧
      ∀ d' o', FiledBefore db.rows target resource_id d' o' → toLex (o'.created_at, d'.id) ≤ toLex (o.created_at, d.id) := by
  obtain ⟨⟨d', o⟩, hnewest, rfl⟩ := Option.map_eq_some_iff.mp h
  obtain ⟨hmem, hgreatest⟩ := newest_spec hnewest
  refine ⟨o, (mem_prior_iff hconsistent htarget).mp hmem, fun d'' o'' hfiled => ?_⟩
  exact hgreatest (d'', o'') ((mem_prior_iff hconsistent htarget).mpr hfiled)

private theorem prior_state_none (hconsistent : Consistent db) (htarget : target ∈ db.rows .operations)
    (h : prior_state db.rows target.id resource_id = none) (d : DesiredStateRow) (o : OperationRow) :
    ¬ FiledBefore db.rows target resource_id d o := by
  intro hfiled
  have hmem := (mem_prior_iff hconsistent htarget).mpr hfiled
  rw [prior_state, Option.map_eq_none_iff, newest_eq_none_iff] at h
  rw [h] at hmem
  cases hmem

theorem AppliedAt.unique {t s : jiff.Timestamp} (hconsistent : Consistent db) (h : AppliedAt db.rows d t)
    (h' : AppliedAt db.rows d s) : t = s := by
  obtain ⟨-, o, ho, hid, -, hcreated⟩ := h
  obtain ⟨-, o', ho', hid', -, hcreated'⟩ := h'
  obtain rfl := eq_of_key_eq hconsistent.operation_ids ho ho' (hid.trans hid'.symm)
  exact jiff.to_string_injective (hcreated.symm.trans hcreated')

theorem PriorState.unique (h : Historic crates db) (hd : PriorState db.rows target resource_id d)
    (he : PriorState db.rows target resource_id e) : d = e := by
  obtain ⟨t, hbefore, hgreatest⟩ := hd
  obtain ⟨s, hbefore', hgreatest'⟩ := he
  have hsame := le_antisymm (hgreatest e s hbefore') (hgreatest' d t hbefore)
  exact h.ids d hbefore.2.1.1 e hbefore'.2.1.1 (Prod.mk.inj (toLex.injective hsame)).2.symm

/-- Among the operations before the target one is the newest. -/
theorem exists_prior_state (hconsistent : Consistent db) {t : jiff.Timestamp}
    (h : AppliedBefore db.rows target resource_id d t) : ∃ e, PriorState db.rows target resource_id e := by
  classical
  let states := {d | ∃ t, AppliedBefore db.rows target resource_id d t}
  have hfinite : states.Finite :=
    (db.rows .desired_states).finite_toSet.subset fun e ⟨_, hbefore⟩ => hbefore.2.1.1
  have hstamp : ∀ e : DesiredStateRow, ∃ key : ℤ ×ₗ ℕ, ∀ s, AppliedBefore db.rows target resource_id e s →
      key = toLex (s.nanos, e.id) := by
    intro e
    by_cases hbefore : ∃ s, AppliedBefore db.rows target resource_id e s
    · obtain ⟨s, hs⟩ := hbefore
      refine ⟨toLex (s.nanos, e.id), fun s' hs' => ?_⟩
      rw [hs.2.1.unique hconsistent hs'.2.1]
    · exact ⟨toLex (0, 0), fun s hs => absurd ⟨s, hs⟩ hbefore⟩
  choose key hkey using hstamp
  obtain ⟨e, ⟨s, hbefore⟩, hgreatest⟩ := Set.exists_max_image states key hfinite ⟨d, t, h⟩
  refine ⟨e, s, hbefore, fun e' s' hbefore' => ?_⟩
  rw [← hkey e s hbefore, ← hkey e' s' hbefore']
  exact hgreatest e' ⟨s', hbefore'⟩

theorem resources_of_nodup (h : Historic crates db) (op_id : String) : (resources_of db.rows op_id).Nodup := by
  have hpairs : (resources_of db.rows op_id).map (fun resource_id => (op_id, resource_id)) =
      ((db.rows .desired_states).filter fun d => d.operation_id == op_id).map fun d => (d.operation_id, d.resource_id) := by
    rw [resources_of, List.map_map]
    refine List.map_congr_left fun d hd => ?_
    have hop : d.operation_id = op_id := by simpa using (List.mem_filter.mp hd).2
    simp [hop]
  exact List.Nodup.of_map _ (hpairs ▸ h.resources.sublist (List.filter_sublist.map _))

/-- The order in which the states of dependencies follow those that name them:
`e` came at a later instant, or at the same one with a later operation, or
earlier in the same operation. -/
def Outlasts (rows : sql.Rows Row) (d e : DesiredStateRow) : Prop :=
  ∃ t s, AppliedAt rows d t ∧ AppliedAt rows e s ∧ (t.nanos < s.nanos ∨
    t.nanos = s.nanos ∧ if d.operation_id = e.operation_id then e.id < d.id else d.id < e.id)

theorem Outlasts.irrefl (hconsistent : Consistent db) : ¬ Outlasts db.rows d d := by
  rintro ⟨t, s, hd, hd', hlater⟩
  obtain rfl := hd.unique hconsistent hd'
  obtain hlt | ⟨-, hlt⟩ := hlater
  · exact lt_irrefl _ hlt
  · rw [if_pos rfl] at hlt
    exact lt_irrefl _ hlt

theorem Outlasts.trans {f : DesiredStateRow} (h : Historic crates db) (hconsistent : Consistent db)
    (hde : Outlasts db.rows d e) (hef : Outlasts db.rows e f) : Outlasts db.rows d f := by
  obtain ⟨t, s, hd, he, hlater⟩ := hde
  obtain ⟨s', w, he', hf, hlater'⟩ := hef
  obtain rfl := he.unique hconsistent he'
  refine ⟨t, w, hd, hf, ?_⟩
  obtain hlt | ⟨hsame, hlt⟩ := hlater
  · exact .inl (hlater'.elim hlt.trans fun hsame => hsame.1 ▸ hlt)
  · obtain hlt' | ⟨hsame', hlt'⟩ := hlater'
    · exact .inl (hsame ▸ hlt')
    · refine .inr ⟨hsame.trans hsame', ?_⟩
      by_cases hop : d.operation_id = e.operation_id
      · rw [if_pos hop] at hlt
        rw [hop]
        by_cases hop' : e.operation_id = f.operation_id
        · rw [if_pos hop'] at hlt' ⊢
          exact hlt'.trans hlt
        · rw [if_neg hop'] at hlt' ⊢
          by_contra hle
          exact hop' (h.together e he.1 f hf.1 d hd.1 hop.symm hlt'.le (not_lt.mp hle)).symm
      · rw [if_neg hop] at hlt
        by_cases hop' : e.operation_id = f.operation_id
        · rw [if_pos hop'] at hlt'
          rw [← hop', if_neg hop]
          by_contra hle
          exact hop ((h.together f hf.1 d hd.1 e he.1 hop'.symm (not_lt.mp hle) hlt.le).trans hop'.symm)
        · rw [if_neg hop'] at hlt'
          have hother : d.operation_id ≠ f.operation_id := fun heq =>
            hop (h.together d hd.1 e he.1 f hf.1 heq hlt.le hlt'.le).symm
          rw [if_neg hother]
          exact hlt.trans hlt'

/-- What a prior state names was stored with it, so it has a prior state as well, which outlasts the first. -/
theorem PriorState.dependency (h : Historic crates db) (hconsistent : Consistent db)
    (hprior : PriorState db.rows target resource_id d) {deps : List String}
    (hdeps : depsort.read_depends_on crates d.spec_json = .ok deps) {dep_id : String} (hdep : dep_id ∈ deps) :
    ∃ e, PriorState db.rows target dep_id e ∧ Outlasts db.rows d e := by
  obtain ⟨t, ⟨-, ⟨hd, o, ho, hid, happlied, hcreated⟩, hearlier⟩, -⟩ := hprior
  obtain ⟨deps', hdeps', hnames⟩ := h.closed d hd
  obtain rfl := Except.ok.inj (hdeps.symm.trans hdeps')
  obtain ⟨named, hnamed, hop, hname, hlt⟩ := hnames dep_id hdep
  have hbefore : AppliedBefore db.rows target dep_id named t :=
    ⟨hname, ⟨hnamed, o, ho, hid.trans hop.symm, happlied, hcreated⟩, hearlier⟩
  obtain ⟨e, s, hlast, hgreatest⟩ := exists_prior_state hconsistent hbefore
  refine ⟨e, ⟨s, hlast, hgreatest⟩, t, s, ⟨hd, o, ho, hid, happlied, hcreated⟩, hlast.2.1, ?_⟩
  have hle := hgreatest named t hbefore
  rw [Prod.Lex.toLex_le_toLex] at hle
  refine hle.imp_right fun ⟨hsame, hle⟩ => ⟨hsame, ?_⟩
  by_cases hother : d.operation_id = e.operation_id
  · have hkey : (named.operation_id, named.resource_id) = (e.operation_id, e.resource_id) := by
      rw [hop, hother, hname, hlast.1]
    rw [if_pos hother, ← List.inj_on_of_nodup_map h.resources hnamed hlast.2.1.1 hkey]
    exact hlt
  · rw [if_neg hother]
    by_contra hnot
    exact hother ((h.together named hnamed e hlast.2.1.1 d hd hop hle (not_lt.mp hnot)).trans hop).symm

end Orders

section Times

variable {crates : Crates} {db : Store} {target : OperationRow} {resource_id : String} {d e : DesiredStateRow}
  {t u : jiff.Timestamp}

theorem AppliedBefore.elsewhere (hconsistent : Consistent db) (htarget : target ∈ db.rows .operations)
    (h : AppliedBefore db.rows target resource_id d t) : AppliedElsewhere db.rows target resource_id d t := by
  obtain ⟨hresource, ⟨hd, o, ho, hid, happlied, hcreated⟩, u, hcreated', hearlier⟩ := h
  refine ⟨hresource, fun hown => ?_, hd, o, ho, hid, happlied, hcreated⟩
  obtain rfl := eq_of_key_eq hconsistent.operation_ids ho htarget (hid.trans hown)
  rw [jiff.to_string_injective (hcreated.symm.trans hcreated')] at hearlier
  exact lt_irrefl _ hearlier

/-- The time of a filed operation is that of its text. -/
theorem FiledBefore.applied_elsewhere {o : OperationRow} (hcreated : target.created_at = u.to_string)
    (h : FiledBefore db.rows target resource_id d o) (ht : o.created_at = t.to_string) :
    AppliedElsewhere db.rows target resource_id d t ∧ t.to_string < u.to_string := by
  obtain ⟨hd, ho, hid, hresource, hother, happlied, htext⟩ := h
  rw [ht, hcreated] at htext
  exact ⟨⟨hresource, hother, hd, o, ho, hid, happlied, ht⟩, htext⟩

theorem AppliedElsewhere.filed_before (hcreated : target.created_at = u.to_string)
    (h : AppliedElsewhere db.rows target resource_id d t) (htext : t.to_string < u.to_string) :
    ∃ o, FiledBefore db.rows target resource_id d o ∧ o.created_at = t.to_string := by
  obtain ⟨hresource, hother, hd, o, ho, hid, happlied, ht⟩ := h
  refine ⟨o, ⟨hd, ho, hid, hresource, hother, happlied, ?_⟩, ht⟩
  rwa [ht, hcreated]

theorem AppliedAt.era (hera : InEra db.rows) (h : AppliedAt db.rows d t) : 0 ≤ t.nanos := by
  obtain ⟨-, o, ho, -, -, ht⟩ := h
  exact hera o ho t ht

/-- Where no time is cut short in the wrong place, the texts lead to the prior state. -/
theorem TimesAgree.filed_in_order (hhistoric : Historic crates db) (hconsistent : Consistent db)
    (htarget : target ∈ db.rows .operations) (hera : InEra db.rows) (hcreated : target.created_at = u.to_string)
    (h : TimesAgree db.rows target resource_id u) : FiledInOrder db.rows target resource_id := by
  refine ⟨fun d o hfiled => ?_, fun e hprior => ?_⟩
  · obtain ⟨t, ht⟩ := hhistoric.stamped o hfiled.2.1
    obtain ⟨helsewhere, htext⟩ := hfiled.applied_elsewhere hcreated ht
    obtain ⟨hearlier, -⟩ | hshort := (jiff.to_string_lt_iff (.inl (helsewhere.2.2.era hera))).mp htext
    · exact exists_prior_state hconsistent ⟨helsewhere.1, helsewhere.2.2, u, hcreated, hearlier⟩
    · obtain ⟨e, hprior, -⟩ := h.later d t helsewhere hshort
      exact ⟨e, hprior⟩
  · obtain ⟨t, hbefore, hgreatest⟩ := id hprior
    obtain ⟨u', hcreated', hearlier⟩ := hbefore.2.2
    obtain rfl := jiff.to_string_injective (hcreated.symm.trans hcreated')
    have hera_t := hbefore.2.1.era hera
    have htext : t.to_string < u.to_string :=
      (jiff.to_string_lt_iff (.inl hera_t)).mpr (.inl ⟨hearlier, h.prior e t hprior hbefore.2.1⟩)
    obtain ⟨p, hfiled, hp⟩ := (hbefore.elsewhere hconsistent htarget).filed_before hcreated htext
    cases hchosen : prior_state db.rows target.id resource_id with
    | none => exact absurd hfiled (prior_state_none hconsistent htarget hchosen e p)
    | some d =>
      obtain ⟨o, hfiled', hlast⟩ := prior_state_some hconsistent htarget hchosen
      refine ⟨d, o, hfiled', ?_, hlast⟩
      obtain ⟨s, hs⟩ := hhistoric.stamped o hfiled'.2.1
      obtain ⟨helsewhere, htext'⟩ := hfiled'.applied_elsewhere hcreated hs
      have hera_s := helsewhere.2.2.era hera
      have hle := hlast e p hfiled
      rw [hp, hs, Prod.Lex.toLex_le_toLex] at hle
      obtain ⟨hearlier', hkept⟩ | hshort := (jiff.to_string_lt_iff (.inl hera_s)).mp htext'
      · have hbefore' : AppliedBefore db.rows target resource_id d s :=
          ⟨helsewhere.1, helsewhere.2.2, u, hcreated, hearlier'⟩
        have hge := hgreatest d s hbefore'
        rw [Prod.Lex.toLex_le_toLex] at hge
        obtain hlt | ⟨hsame, hid⟩ := hge
        · -- the older of the two is filed after the newer one
          refine h.older e t d s hprior hbefore.2.1 hbefore' ?_ hkept
          refine (jiff.to_string_lt_of_nanos_lt (.inl hera_s) hlt).resolve_left fun hfirst => ?_
          obtain hlast' | ⟨hsame, -⟩ := hle
          · exact lt_asymm hfirst hlast'
          · exact hfirst.ne' hsame
        · obtain rfl := jiff.eq_of_nanos_eq hsame
          have hid' : e.id ≤ d.id := hle.elim (fun hlt => absurd hlt (lt_irrefl _)) And.right
          rw [hhistoric.ids d helsewhere.2.2.1 e hbefore.2.1.1 (Nat.le_antisymm hid hid')]
      · obtain ⟨e', hprior', hcontent⟩ := h.later d s helsewhere hshort
        rwa [hprior.unique hhistoric hprior']

/-- Where the specs differ, that is the only way to the prior state. -/
theorem FiledInOrder.times_agree (hhistoric : Historic crates db) (hconsistent : Consistent db)
    (htarget : target ∈ db.rows .operations) (hera : InEra db.rows) (hcreated : target.created_at = u.to_string)
    (hvaried : Varied db.rows target resource_id) (h : FiledInOrder db.rows target resource_id) :
    TimesAgree db.rows target resource_id u := by
  obtain ⟨hsome, hsame⟩ := h
  have hlast {e : DesiredStateRow} (hprior : PriorState db.rows target resource_id e) {t : jiff.Timestamp}
      (ht : AppliedAt db.rows e t) : t.nanos < u.nanos ∧ t.to_string < u.to_string ∧
        ∀ d s, AppliedElsewhere db.rows target resource_id d s → s.to_string < u.to_string →
          toLex (s.to_string, d.id) ≤ toLex (t.to_string, e.id) := by
    obtain ⟨d, o, hfiled, hcontent, hgreatest⟩ := hsame e hprior
    obtain ⟨s, hs⟩ := hhistoric.stamped o hfiled.2.1
    obtain ⟨helsewhere, htext⟩ := hfiled.applied_elsewhere hcreated hs
    obtain ⟨t', hbefore, -⟩ := hprior
    obtain rfl := ht.unique hconsistent hbefore.2.1
    obtain ⟨u', hcreated', hearlier⟩ := hbefore.2.2
    obtain rfl := jiff.to_string_injective (hcreated.symm.trans hcreated')
    obtain rfl := hvaried d e s t helsewhere (hbefore.elsewhere hconsistent htarget) hcontent
    obtain rfl := ht.unique hconsistent helsewhere.2.2
    refine ⟨hearlier, htext, fun d' s' helsewhere' htext' => ?_⟩
    obtain ⟨o', hfiled', hs'⟩ := helsewhere'.filed_before hcreated htext'
    have hle := hgreatest d' o' hfiled'
    rwa [hs, hs'] at hle
  constructor
  case prior =>
    intro e t hprior ht hshort
    exact lt_asymm (hlast hprior ht).2.1 hshort.to_string_lt
  case later =>
    intro d s helsewhere hshort
    obtain ⟨o, hfiled, -⟩ := helsewhere.filed_before hcreated hshort.to_string_lt
    obtain ⟨e, hprior⟩ := hsome d o hfiled
    obtain ⟨t, hbefore, -⟩ := id hprior
    obtain ⟨hearlier, htext, hgreatest⟩ := hlast hprior hbefore.2.1
    -- the prior state comes before the target and so before what the target is cut from
    have hfirst := hshort.lt_of_lt (.inl (hbefore.2.1.era hera)) hearlier htext
    have hle := hgreatest d s helsewhere hshort.to_string_lt
    rw [Prod.Lex.toLex_le_toLex] at hle
    obtain hlt | ⟨heq, -⟩ := hle
    · exact absurd hlt (lt_asymm hfirst)
    · exact absurd heq hfirst.ne'
  case older =>
    intro e t d s hprior ht hbefore hshort hkept
    obtain ⟨hresource, happlied, u', hcreated', hearlier⟩ := id hbefore
    obtain rfl := jiff.to_string_injective (hcreated.symm.trans hcreated')
    have htext := (jiff.to_string_lt_iff (.inl (happlied.era hera))).mpr (.inl ⟨hearlier, hkept⟩)
    have hle := (hlast hprior ht).2.2 d s (hbefore.elsewhere hconsistent htarget) htext
    rw [Prod.Lex.toLex_le_toLex] at hle
    obtain hlt | ⟨heq, -⟩ := hle
    · exact absurd hlt (lt_asymm hshort.to_string_lt)
    · exact absurd heq hshort.to_string_lt.ne'

end Times

section Answers

variable {crates : Crates} {db : Store} {target : OperationRow} {reverted : List ResourceForRouting}
  {orphaned : List String} {resource_id : String}

private theorem Answer.mem (h : Answer db.rows target.id reverted orphaned) :
    resource_id ∈ resources_of db.rows target.id ↔
      (∃ r ∈ reverted, r.resource_id = resource_id) ∨ resource_id ∈ orphaned := by
  rw [← h.partition.mem_iff, List.mem_append, List.mem_map]

private theorem Answer.distinct (h : Answer db.rows target.id reverted orphaned) (hhistoric : Historic crates db) :
    (reverted.map (·.resource_id)).Nodup :=
  (List.nodup_append.mp (h.partition.nodup_iff.mpr (resources_of_nodup hhistoric target.id))).1

variable (hhistoric : Historic crates db) (hconsistent : Consistent db) (htarget : target ∈ db.rows .operations)
  (hanswer : Answer db.rows target.id reverted orphaned)
include hhistoric hconsistent htarget hanswer

private theorem filed_in_order_of_exact (hexact : ExactRollback crates db.rows target reverted orphaned)
    (hmem : resource_id ∈ resources_of db.rows target.id) : FiledInOrder db.rows target resource_id := by
  obtain ⟨r, hr, rfl⟩ | horphan := hanswer.mem.mp hmem
  · obtain ⟨d, hchosen, hcontent⟩ := hanswer.chosen r hr
    obtain ⟨e, hprior, hcarried⟩ := hexact.priors r hr
    obtain ⟨o, hfiled, hgreatest⟩ := prior_state_some hconsistent htarget hchosen
    refine ⟨fun _ _ _ => ⟨e, hprior⟩, fun e' hprior' => ⟨d, o, hfiled, ?_, hgreatest⟩⟩
    rw [hprior'.unique hhistoric hprior]
    exact hcontent.symm.trans hcarried
  · have hnone := prior_state_none hconsistent htarget (hanswer.unchosen _ horphan)
    exact ⟨fun d o hfiled => absurd hfiled (hnone d o), fun e hprior => absurd hprior (hexact.orphans _ horphan e)⟩

omit hconsistent htarget in
private theorem names_within_of_exact (hexact : ExactRollback crates db.rows target reverted orphaned)
    (hmem : resource_id ∈ resources_of db.rows target.id) : NamesWithin crates db.rows target resource_id := by
  intro d deps hprior hdeps dep_id hdep
  obtain ⟨r, hr, rfl⟩ | horphan := hanswer.mem.mp hmem
  · obtain ⟨e, hprior', hcarried⟩ := hexact.priors r hr
    obtain rfl := hprior.unique hhistoric hprior'
    have hspec : r.resource_json = d.spec_json := (Prod.mk.inj (Prod.mk.inj hcarried).2).2
    obtain ⟨sorted, hsorted⟩ := hexact.submittable (List.ne_nil_of_mem hr)
    obtain ⟨hwell, -, -⟩ := (depsort.topo_sort_ok_iff (hanswer.distinct hhistoric)).mp hsorted
    obtain ⟨deps', hdeclares, -, hnames⟩ := hwell r hr
    obtain rfl := hdeclares.unique (depsort.read_depends_on_ok_iff.mp (hspec ▸ hdeps)).1
    obtain ⟨named, hnamed, hname, -⟩ := hnames dep_id hdep
    exact hanswer.mem.mpr (.inl ⟨named, hnamed, hname⟩)
  · exact absurd hprior (hexact.orphans _ horphan d)

variable (hfiled : ∀ resource_id ∈ resources_of db.rows target.id, FiledInOrder db.rows target resource_id)
include hfiled

private theorem prior_of_filed {r : ResourceForRouting} (hr : r ∈ reverted) :
    ∃ d, PriorState db.rows target r.resource_id d ∧ r.content = d.content := by
  obtain ⟨d, hchosen, hcontent⟩ := hanswer.chosen r hr
  obtain ⟨o, hbefore, hgreatest⟩ := prior_state_some hconsistent htarget hchosen
  obtain ⟨hsome, hsame⟩ := hfiled _ (hanswer.mem.mpr (.inl ⟨r, hr, rfl⟩))
  obtain ⟨e, hprior⟩ := hsome d o hbefore
  obtain ⟨d', o', hbefore', hcarried, hgreatest'⟩ := hsame e hprior
  have hkey := le_antisymm (hgreatest d' o' hbefore') (hgreatest' d o hbefore)
  obtain rfl := hhistoric.ids d' hbefore'.1 d hbefore.1 (Prod.mk.inj (toLex.injective hkey)).2
  exact ⟨e, hprior, hcontent.trans hcarried⟩

omit hhistoric in
private theorem reverted_of_prior {d : DesiredStateRow} (hmem : resource_id ∈ resources_of db.rows target.id)
    (hprior : PriorState db.rows target resource_id d) : ∃ r ∈ reverted, r.resource_id = resource_id := by
  refine (hanswer.mem.mp hmem).resolve_right fun horphan => ?_
  obtain ⟨e, o, hbefore, -⟩ := (hfiled _ hmem).2 d hprior
  exact prior_state_none hconsistent htarget (hanswer.unchosen _ horphan) e o hbefore

variable (hnames : ∀ resource_id ∈ resources_of db.rows target.id, NamesWithin crates db.rows target resource_id)
include hnames

/-- A reverted resource names reverted resources whose prior states outlast its own. -/
private theorem reverted_names {r : ResourceForRouting} (hr : r ∈ reverted) :
    ∃ d deps, PriorState db.rows target r.resource_id d ∧ depsort.read_depends_on crates r.resource_json = .ok deps ∧
      ∀ dep_id ∈ deps, ∃ named ∈ reverted, named.resource_id = dep_id ∧
        ∃ e, PriorState db.rows target dep_id e ∧ Outlasts db.rows d e := by
  obtain ⟨d, hprior, hcarried⟩ := prior_of_filed hhistoric hconsistent htarget hanswer hfiled hr
  have hspec : r.resource_json = d.spec_json := (Prod.mk.inj (Prod.mk.inj hcarried).2).2
  obtain ⟨t, ⟨-, ⟨hd, -⟩, -⟩, -⟩ := id hprior
  obtain ⟨deps, hdeps, -⟩ := hhistoric.closed d hd
  refine ⟨d, deps, hprior, hspec ▸ hdeps, fun dep_id hdep => ?_⟩
  obtain ⟨e, hprior', houtlasts⟩ := hprior.dependency hhistoric hconsistent hdeps hdep
  have hmem := hnames _ (hanswer.mem.mpr (.inl ⟨r, hr, rfl⟩)) d deps hprior hdeps dep_id hdep
  obtain ⟨named, hnamed, hname⟩ := reverted_of_prior hconsistent htarget hanswer hfiled hmem hprior'
  exact ⟨named, hnamed, hname, e, hprior', houtlasts⟩

private theorem reverted_well_formed : depsort.WellFormed crates reverted := by
  intro r hr
  obtain ⟨d, deps, hprior, hdeps, hnamed⟩ := reverted_names hhistoric hconsistent htarget hanswer hfiled hnames hr
  obtain ⟨hdeclares, hnodup⟩ := depsort.read_depends_on_ok_iff.mp hdeps
  refine ⟨deps, hdeclares, hnodup, fun dep_id hdep => ?_⟩
  obtain ⟨named, hmem, rfl, e, hprior', houtlasts⟩ := hnamed dep_id hdep
  refine ⟨named, hmem, rfl, ?_⟩
  rintro rfl
  rw [hprior.unique hhistoric hprior'] at houtlasts
  exact houtlasts.irrefl hconsistent

private theorem reverted_acyclic : Acyclic (depsort.needs crates) reverted := by
  have hstep : ∀ r named, (r ∈ reverted ∧ named ∈ reverted ∧ depsort.needs crates r named) →
      ∃ d e, PriorState db.rows target r.resource_id d ∧ PriorState db.rows target named.resource_id e ∧
        Outlasts db.rows d e := by
    rintro r named ⟨hr, -, hneeds⟩
    obtain ⟨d, deps, hprior, hdeps, hnamed⟩ := reverted_names hhistoric hconsistent htarget hanswer hfiled hnames hr
    have hdep := (depsort.needs_iff (depsort.read_depends_on_ok_iff.mp hdeps).1).mp hneeds
    obtain ⟨-, -, -, e, hprior', houtlasts⟩ := hnamed _ hdep
    exact ⟨d, e, hprior, hprior', houtlasts⟩
  intro r hcycle
  have hall : ∀ last, Relation.TransGen (fun r named => r ∈ reverted ∧ named ∈ reverted ∧ depsort.needs crates r named)
      r last → ∃ d e, PriorState db.rows target r.resource_id d ∧ PriorState db.rows target last.resource_id e ∧
        Outlasts db.rows d e := by
    intro last hpath
    induction hpath with
    | single hneeds => exact hstep _ _ hneeds
    | tail _ hneeds ih =>
      obtain ⟨d, e, hprior, hprior', houtlasts⟩ := ih
      obtain ⟨e', f, hmiddle, hlast, houtlasts'⟩ := hstep _ _ hneeds
      obtain rfl := hprior'.unique hhistoric hmiddle
      exact ⟨d, f, hprior, hlast, houtlasts.trans hhistoric hconsistent houtlasts'⟩
  obtain ⟨d, e, hprior, hprior', houtlasts⟩ := hall r hcycle
  rw [hprior.unique hhistoric hprior'] at houtlasts
  exact houtlasts.irrefl hconsistent

private theorem exact_of_filed : ExactRollback crates db.rows target reverted orphaned where
  partition := hanswer.partition
  priors r hr := prior_of_filed hhistoric hconsistent htarget hanswer hfiled hr
  orphans resource_id horphan d hprior := by
    obtain ⟨e, o, hbefore, -⟩ := (hfiled _ (hanswer.mem.mpr (.inr horphan))).2 d hprior
    exact prior_state_none hconsistent htarget (hanswer.unchosen _ horphan) e o hbefore
  submittable _ := (depsort.topo_sort_accepts_iff (hanswer.distinct hhistoric)).mpr
    ⟨reverted_well_formed hhistoric hconsistent htarget hanswer hfiled hnames,
      reverted_acyclic hhistoric hconsistent htarget hanswer hfiled hnames⟩

end Answers

/-- A rejected operation is not rolled back. -/
private theorem not_exact_of_rejected {crates : Crates} {scan : Scan DesiredStateRow} {db : Store} {target : OperationRow}
    (hconsistent : Consistent db) (htarget : target ∈ db.rows .operations) (hstatus : target.status = .rejected) :
    ¬ RollsBackExactly crates scan db target := by
  rintro ⟨reverted, orphaned, hrun, -⟩
  rw [prepare_rollback, run_bind_ok (run_query _ _), find_key_of_mem hconsistent.operation_ids htarget] at hrun
  simp only [hstatus, rolled_out, Bool.false_eq_true, if_false] at hrun
  cases (Prod.mk.inj hrun).1

private theorem rolled_out_of_terminal {status : OperationStatus} (h : status.terminal = true) (hstatus : status ≠ .rejected) :
    rolled_out status = true := by
  cases status with
  | succeeded | partially_applied | failed => rfl
  | rejected => exact absurd rfl hstatus
  | pending | pending_approval | running => cases h

section Samples

def noon : jiff.Timestamp := ⟨midnight.nanos + 43200000000000, by decide⟩

def dropped_crates : Crates := crates_on [manifest "a" [], manifest "a" ["r0"]]

/-- Two resources are applied, the second after the first; at noon the second
one is applied again and does not depend on the first any more. -/
def dropped_calls : List Call :=
  [.register_agent (registration "a"),
    .create_operation (submission [resource "r0" "a" [], resource "r1" "a" ["r0"]] none),
    .fetch_pending_assignments 300 midnight "a", .complete_assignment (report "a" "0" .Succeeded),
    .fetch_pending_assignments 300 midnight "a", .complete_assignment (report "a" "1" .Succeeded),
    .create_operation { submission [resource "r1" "a" []] none with
      op_id := "noon", now := noon, ulid := fun n => "noon" ++ toString n },
    .fetch_pending_assignments 300 noon "a", .complete_assignment (report "a" "noon0" .Succeeded)]

def dropped : Store := call_all dropped_crates dropped_calls migrated

private theorem dropped_target : ∃ target ∈ dropped.rows .operations,
    target.id = "noon" ∧ target.status.terminal = true ∧ target.created_at = noon.to_string := by
  have hstatus : ((dropped.rows .operations).find? fun op => op.id == "noon").map
      (fun op => op.status.terminal && op.created_at == noon.to_string) = some true := by
    set_option maxRecDepth 2000 in decide
  obtain ⟨target, hfind, hended⟩ := Option.map_eq_some_iff.mp hstatus
  rw [Bool.and_eq_true, beq_iff_eq] at hended
  exact ⟨target, List.mem_of_find?_eq_some hfind, by simpa using List.find?_some hfind, hended⟩

private theorem dropped_era : InEra dropped.rows := by
  have htimes : ∀ o ∈ dropped.rows .operations, o.created_at = midnight.to_string ∨ o.created_at = noon.to_string := by
    set_option maxRecDepth 2000 in decide
  intro o ho t ht
  obtain hcreated | hcreated := htimes o ho
  · rw [← jiff.to_string_injective (hcreated.symm.trans ht)]
    decide
  · rw [← jiff.to_string_injective (hcreated.symm.trans ht)]
    decide

end Samples

end iac_controlplane.store
