import Iac.Controlplane.Store.Consistent
import Iac.Core.Timestamp.Order

open iac_core.protocol sql

namespace iac_controlplane.store

/-- How a call hands assignments out: with which lease, at which time, and whose. -/
structure Dispatch where
  lease : Int
  now : jiff.Timestamp
  serves : String → Bool

def Call.dispatch : Call → Option Dispatch
  | .fetch_pending_assignments lease now agent_id => some ⟨lease, now, (· == agent_id)⟩
  | .claim_ssh_pending lease now _ target_ids => some ⟨lease, now, target_ids.contains⟩
  | _ => none

/-- The ids of the assignments that a call hands out. -/
def Call.handed_out (crates : Crates) (db : Store) : Call → List String
  | .fetch_pending_assignments lease now agent_id =>
    match ((store.fetch_pending_assignments crates lease now agent_id).exec db).1 with
    | .ok out => out.map AssignmentEnvelope.assignment_id
    | .error _ => []
  | .claim_ssh_pending lease now scan target_ids =>
    match ((store.claim_ssh_pending lease now scan target_ids).exec db).1 with
    | .ok (some (id, _, _)) => [id]
    | _ => []
  | _ => []

/-- The claims that a call gives back. -/
def Call.reverted : Call → List String
  | .revert_assignment_claims assignment_ids => assignment_ids
  | _ => []

/-- A store with the time of the last dispatch and, for each assignment, the
time at which its current claim was made. -/
structure Leased where
  db : Store
  clock : jiff.Timestamp
  claimed : String → Option jiff.Timestamp

def Leased.after (crates : Crates) (s : Leased) (call : Call) : Leased where
  db := call.after crates s.db
  clock := (call.dispatch.map Dispatch.now).getD s.clock
  claimed id :=
    if id ∈ call.handed_out crates s.db then call.dispatch.map Dispatch.now
    else if id ∈ call.reverted then none
    else s.claimed id

/-- The clock of a dispatch does not go back. -/
def Leased.on_time (s : Leased) (call : Call) : Prop :=
  ∀ d ∈ call.dispatch, s.clock.nanos ≤ d.now.nanos

/-- One call of a serial run under a clock that does not go back. -/
def LeasedStep (crates : Crates) (allowed : Leased → Call → Prop) (s after : Leased) : Prop :=
  ∃ call, s.on_time call ∧ allowed s call ∧ after = s.after crates call

abbrev LeasedRun (crates : Crates) (allowed : Leased → Call → Prop) : Leased → Leased → Prop :=
  Relation.ReflTransGen (LeasedStep crates allowed)

def leased_from (start : jiff.Timestamp) : Leased := ⟨migrated, start, fun _ => none⟩

/-- The claim, if there is one, is older than the lease. -/
def lease_over (lease : Int) (now : jiff.Timestamp) (claim : Option jiff.Timestamp) : Bool :=
  claim.any fun claimed => claimed.nanos + lease * jiff.nanos_per_second < now.nanos

/-- What a dispatch may hand out: an assignment of whom it serves that is
pending and in nobody's claim, or fetched under a claim whose lease is over. -/
def MayDispatch (d : Dispatch) (s : Leased) (id : String) : Prop :=
  ∃ a ∈ s.db.rows .assignments, a.id = id ∧ d.serves a.agent_id = true ∧
    (a.status = .pending ∧ (s.claimed id).isNone = true ∨ a.status = .fetched ∧ lease_over d.lease d.now (s.claimed id) = true)

instance (d : Dispatch) (s : Leased) (id : String) : Decidable (MayDispatch d s id) :=
  inferInstanceAs (Decidable (∃ a ∈ s.db.rows .assignments, _ ∧ _ ∧ (_ ∨ _)))

/-- No fetched assignment that the call could take was claimed in the very
second of the lease cutoff, with the cutoff's digits and more. -/
def sharp_cutoff (s : Leased) (call : Call) : Bool :=
  call.dispatch.all fun d => (d.now.minus_seconds d.lease).all fun cutoff =>
    (s.db.rows .assignments).all fun a => !(a.status == .fetched && d.serves a.agent_id) ||
      (s.claimed a.id).all fun claimed => !decide (jiff.Truncates cutoff claimed)

/-- A change of an assignment that hands nothing out: none, or to its end, or on from its wait. -/
def Progressed (a b : AssignmentRow) : Prop :=
  b = a ∨ b.id = a.id ∧
    (layer_running b.status = false ∨ waiting a.status = true ∧ b.status = .pending)

theorem Progressed.trans {a b c : AssignmentRow} (hab : Progressed a b) (hbc : Progressed b c) : Progressed a c := by
  obtain rfl | ⟨hid, hdone | ⟨hwaits, hpending⟩⟩ := hab
  · exact hbc
  · obtain rfl | ⟨hid', hend | ⟨hwaits, -⟩⟩ := hbc
    · exact .inr ⟨hid, .inl hdone⟩
    · exact .inr ⟨hid'.trans hid, .inl hend⟩
    · cases hstatus : b.status <;> simp_all [layer_running, waiting]
  · obtain rfl | ⟨hid', hend | ⟨hwaits', -⟩⟩ := hbc
    · exact .inr ⟨hid, .inr ⟨hwaits, hpending⟩⟩
    · exact .inr ⟨hid'.trans hid, .inl hend⟩
    · rw [hpending] at hwaits'
      cases hwaits'

private theorem progressed_update {which : AssignmentRow → Bool} {change : AssignmentRow → AssignmentRow}
    (h : ∀ a, which a = true → Progressed a (change a)) (a : AssignmentRow) : Progressed a (updated which change a) := by
  cases hwhich : which a with
  | false => exact .inl (updated_of_false hwhich)
  | true => exact updated_of_true hwhich ▸ h a hwhich

private theorem progressed_cancel (now : String) (a : AssignmentRow) : Progressed a (AssignmentRow.cancel now a) :=
  .inr ⟨rfl, .inl rfl⟩

private theorem progressed_canary {op_id now : String} {rows after : List AssignmentRow}
    (h : CanaryGate op_id now rows after) : ∃ g, after = rows.map g ∧ ∀ a, Progressed a (g a) := by
  cases h with
  | settled | running => exact ⟨id, (List.map_id _).symm, fun _ => .inl rfl⟩
  | cancel => exact ⟨_, rfl, progressed_update fun a _ => progressed_cancel now a⟩
  | promote =>
    refine ⟨_, rfl, progressed_update fun a hwhich => .inr ⟨rfl, .inr ⟨?_, rfl⟩⟩⟩
    rw [(promoted_after_canary_iff.mp hwhich).2.2]
    rfl

private theorem progressed_layer {op_id now : String} {rows after : List AssignmentRow}
    (h : LayerGate op_id now rows after) : ∃ g, after = rows.map g ∧ ∀ a, Progressed a (g a) := by
  cases h with
  | settled | running => exact ⟨id, (List.map_id _).symm, fun _ => .inl rfl⟩
  | cancel => exact ⟨_, rfl, progressed_update fun a _ => progressed_cancel now a⟩
  | promote =>
    refine ⟨_, rfl, progressed_update fun a hwhich => .inr ⟨rfl, .inr ⟨?_, rfl⟩⟩⟩
    rw [(promoted_after_layer_iff.mp hwhich).2.2]
    rfl

/-- A report hands nothing out. -/
theorem reported_progressed (crates : Crates) {rep : Report} {rows : List AssignmentRow} {a : AssignmentRow}
    (hids : (rows.map AssignmentRow.id).Nodup) (hshape : Shaped rows) (ha : a ∈ rows)
    (haccepts : accepts_result rep a = true) :
    ∃ g, reported crates rep a.operation_id rows = rows.map g ∧ ∀ b, Progressed b (g b) := by
  obtain ⟨recorded, canaried, hstages⟩ := report_stages crates hids hshape ha haccepts
  obtain ⟨g, hg, hcanary⟩ := progressed_canary hstages.canary
  obtain ⟨g', hg', hlayer⟩ := progressed_layer hstages.layer
  refine ⟨fun b => g' (g (updated (fun b => b.id == rep.assignment_id) (AssignmentRow.complete crates rep) b)), ?_, ?_⟩
  · rw [hg', hg, hstages.recorded_eq, List.map_map, List.map_map]
    rfl
  · intro b
    refine Progressed.trans ?_ ((hcanary _).trans (hlayer _))
    refine progressed_update (fun b _ => ?_) b
    exact .inr ⟨rfl, .inl (result_status_terminal rep.result.status)⟩

/-- The columns of the assignments agree with the claims that are out. -/
structure Tracked (s : Leased) : Prop where
  era : 0 ≤ s.clock.nanos
  fetched : ∀ a ∈ s.db.rows .assignments, a.status = .fetched →
    ∃ t, s.claimed a.id = some t ∧ a.fetched_at = some t.to_string ∧ 0 ≤ t.nanos
  unclaimed : ∀ a ∈ s.db.rows .assignments, a.status = .pending ∨ waiting a.status = true → s.claimed a.id = none
  known : ∀ id, s.claimed id ≠ none → ∃ a ∈ s.db.rows .assignments, a.id = id

/-- A dispatch that hands anything out marks exactly that, and takes it from
what it serves and finds claimable. -/
theorem dispatch_spec {crates : Crates} {db : Store} (hids : ((db.rows .assignments).map AssignmentRow.id).Nodup)
    {call : Call} {d : Dispatch} (hd : call.dispatch = some d) :
    (call.handed_out crates db = [] ∧ (call.after crates db).rows .assignments = db.rows .assignments) ∨
      ∃ cutoff which, d.now.minus_seconds d.lease = some cutoff ∧
        (∀ a ∈ db.rows .assignments, which a = true →
          d.serves a.agent_id = true ∧ claimable cutoff.to_string a = true) ∧
        (∀ id, id ∈ call.handed_out crates db ↔ ∃ a ∈ db.rows .assignments, a.id = id ∧ which a = true) ∧
        (call.after crates db).rows .assignments =
          (db.rows .assignments).map (updated which (AssignmentRow.fetch d.now.to_string)) := by
  cases call with
  | fetch_pending_assignments lease now agent_id =>
    obtain rfl := Option.some.inj hd
    rcases exec_cases (fetch_pending_assignments crates lease now agent_id) db with
      ⟨e, herror, hrows⟩ | ⟨out, after, hrun, hexec⟩
    · exact .inl ⟨by simp [Call.handed_out, herror], congrFun hrows _⟩
    · obtain ⟨cutoff, hcutoff, hassignments, hout, -, -⟩ := fetch_pending_assignments_spec hrun
      refine .inr ⟨cutoff, fun a => a.agent_id == agent_id && claimable cutoff.to_string a, hcutoff,
        fun a _ ha => by simpa using ha, fun id => ?_, ?_⟩
      · simp only [Call.handed_out, hexec, hout.mem_iff, List.mem_map, List.mem_filter]
        constructor
        · rintro ⟨a, ⟨ha, hwhich⟩, hid⟩
          exact ⟨a, ha, hid, hwhich⟩
        · rintro ⟨a, ha, hid, hwhich⟩
          exact ⟨a, ⟨ha, hwhich⟩, hid⟩
      · rw [Call.after, hexec, hassignments]
  | claim_ssh_pending lease now scan target_ids =>
    obtain rfl := Option.some.inj hd
    rcases exec_cases (claim_ssh_pending lease now scan target_ids) db with
      ⟨e, herror, hrows⟩ | ⟨out, after, hrun, hexec⟩
    · exact .inl ⟨by simp [Call.handed_out, herror], congrFun hrows _⟩
    · rcases claim_ssh_pending_spec hids hrun with
        ⟨rfl, hrows⟩ | ⟨cutoff, hcutoff, a, ha, htarget, hclaimable, rfl, hassignments, -, -⟩
      · refine .inl ⟨by simp [Call.handed_out, hexec], ?_⟩
        rw [Call.after, hexec]
        exact congrFun hrows _
      · refine .inr ⟨cutoff, fun b => b.id == a.id, hcutoff, fun b hb hid => ?_, fun id => ?_, ?_⟩
        · obtain rfl : b = a := eq_of_key_eq hids hb ha (by simpa using hid)
          exact ⟨by simpa using htarget, hclaimable⟩
        · simp only [Call.handed_out, hexec, List.mem_singleton, beq_iff_eq]
          constructor
          · intro hid
            exact ⟨a, ha, hid.symm, rfl⟩
          · rintro ⟨b, _, hid, hsame⟩
            exact hid.symm.trans hsame
        · rw [Call.after, hexec, hassignments]
  | _ => cases hd

private theorem handed_out_of_no_dispatch {crates : Crates} {db : Store} {call : Call} (h : call.dispatch = none) :
    call.handed_out crates db = [] := by
  cases call <;> first | rfl | cases h

/-- What a dispatch hands out it may hand out, if its cutoff is sharp. -/
theorem may_dispatch {crates : Crates} {s : Leased} (hids : ((s.db.rows .assignments).map AssignmentRow.id).Nodup)
    (htracked : Tracked s) {call : Call} (hsharp : sharp_cutoff s call = true) {d : Dispatch}
    (hd : call.dispatch = some d) {id : String} (hid : id ∈ call.handed_out crates s.db) : MayDispatch d s id := by
  obtain ⟨hnone, -⟩ | ⟨cutoff, which, hcutoff, hwhich, hout, -⟩ := dispatch_spec hids hd
  · rw [hnone] at hid
    cases hid
  · obtain ⟨a, ha, rfl, hchosen⟩ := (hout id).mp hid
    obtain ⟨hserves, hclaimable⟩ := hwhich a ha hchosen
    refine ⟨a, ha, rfl, hserves, ?_⟩
    simp only [claimable, Bool.or_eq_true, Bool.and_eq_true, beq_iff_eq] at hclaimable
    obtain hpending | ⟨hfetched, hearlier⟩ := hclaimable
    · exact .inl ⟨hpending, by simp [htracked.unclaimed a ha (.inl hpending)]⟩
    · obtain ⟨claimed, hclaimed, htext, hera⟩ := htracked.fetched a ha hfetched
      have hlt : claimed.to_string < cutoff.to_string := by simpa [htext] using hearlier
      have hkept : ¬ jiff.Truncates cutoff claimed := by
        simp only [sharp_cutoff, hd, hcutoff, Option.all_some, List.all_eq_true] at hsharp
        simpa [hfetched, hserves, hclaimed] using hsharp a ha
      have hexpired := (jiff.lt_of_to_string_lt hera hlt).resolve_right hkept
      have hshift := jiff.minus_seconds_nanos hcutoff
      refine .inr ⟨hfetched, ?_⟩
      simp only [lease_over, hclaimed, Option.any_some, decide_eq_true_eq]
      omega

private theorem Tracked.progressed {s after : Leased} (h : Tracked s) (hera : 0 ≤ after.clock.nanos)
    (hclaimed : after.claimed = s.claimed) {g : AssignmentRow → AssignmentRow}
    (hrows : after.db.rows .assignments = (s.db.rows .assignments).map g) (hg : ∀ a, Progressed a (g a)) :
    Tracked after := by
  have hid (a : AssignmentRow) : (g a).id = a.id := by
    obtain heq | ⟨hid, -⟩ := hg a
    · rw [heq]
    · exact hid
  refine ⟨hera, ?_, ?_, ?_⟩
  · rw [hrows, hclaimed]
    simp only [List.forall_mem_map]
    intro a ha hfetched
    obtain heq | ⟨-, hdone | ⟨-, hpending⟩⟩ := hg a
    · rw [heq] at hfetched ⊢
      exact h.fetched a ha hfetched
    · rw [hfetched] at hdone
      cases hdone
    · rw [hfetched] at hpending
      cases hpending
  · rw [hrows, hclaimed]
    simp only [List.forall_mem_map]
    intro a ha hopen
    obtain heq | ⟨-, hdone | ⟨hwaits, -⟩⟩ := hg a
    · rw [heq] at hopen ⊢
      exact h.unclaimed a ha hopen
    · cases hstatus : (g a).status <;> simp_all [layer_running, waiting]
    · rw [hid]
      exact h.unclaimed a ha (.inr hwaits)
  · rw [hrows, hclaimed]
    intro id hid_claimed
    obtain ⟨a, ha, rfl⟩ := h.known id hid_claimed
    exact ⟨g a, List.mem_map_of_mem ha, hid a⟩

private theorem Tracked.added {s after : Leased} (h : Tracked s) (hera : 0 ≤ after.clock.nanos)
    (hclaimed : after.claimed = s.claimed) {new : List AssignmentRow}
    (hrows : after.db.rows .assignments = s.db.rows .assignments ++ new)
    (hids : ((after.db.rows .assignments).map AssignmentRow.id).Nodup)
    (hnew : ∀ a ∈ new, a.status = initial_assignment_status a.layer a.batch) : Tracked after := by
  refine ⟨hera, ?_, ?_, ?_⟩
  · rw [hrows, hclaimed]
    intro a ha hfetched
    obtain hold | hadded := List.mem_append.mp ha
    · exact h.fetched a hold hfetched
    · rw [hnew a hadded] at hfetched
      simp only [initial_assignment_status] at hfetched
      split_ifs at hfetched
      split at hfetched <;> cases hfetched
  · rw [hrows, hclaimed]
    intro a ha hopen
    obtain hold | hadded := List.mem_append.mp ha
    · exact h.unclaimed a hold hopen
    · by_contra hsome
      obtain ⟨b, hb, hid⟩ := h.known a.id hsome
      rw [hrows, List.map_append] at hids
      exact (List.nodup_append.mp hids).2.2 _ (List.mem_map_of_mem hb) _ (List.mem_map_of_mem hadded) hid
  · rw [hrows, hclaimed]
    intro id hsome
    obtain ⟨a, ha, rfl⟩ := h.known id hsome
    exact ⟨a, List.mem_append_left _ ha, rfl⟩

/-- A claim of the rows that `which` picks, and of no others. -/
private theorem Tracked.claim {s after : Leased} (h : Tracked s) {now : jiff.Timestamp} (hnow : 0 ≤ now.nanos)
    (hclock : after.clock = now) {which : AssignmentRow → Bool}
    (hclaimed : ∀ a ∈ s.db.rows .assignments, after.claimed a.id = if which a then some now else s.claimed a.id)
    (hothers : ∀ id, (∀ a ∈ s.db.rows .assignments, a.id ≠ id) → after.claimed id = none)
    (hrows : after.db.rows .assignments =
      (s.db.rows .assignments).map (updated which (AssignmentRow.fetch now.to_string))) : Tracked after := by
  refine ⟨hclock ▸ hnow, ?_, ?_, fun id hsome => ?_⟩
  · rw [hrows]
    simp only [List.forall_mem_map]
    intro a ha hfetched
    have hclaim := hclaimed a ha
    cases hwhich : which a with
    | false =>
      rw [updated_of_false hwhich] at hfetched ⊢
      rw [hclaim, hwhich]
      exact h.fetched a ha hfetched
    | true =>
      rw [hwhich] at hclaim
      rw [updated_of_true hwhich]
      exact ⟨now, hclaim, rfl, hnow⟩
  · rw [hrows]
    simp only [List.forall_mem_map]
    intro a ha hopen
    cases hwhich : which a with
    | false =>
      rw [updated_of_false hwhich] at hopen ⊢
      rw [hclaimed a ha, hwhich]
      exact h.unclaimed a ha hopen
    | true =>
      rw [updated_of_true hwhich] at hopen
      simp [AssignmentRow.fetch, waiting] at hopen
  · by_contra hnone
    rw [hrows] at hnone
    push Not at hnone
    refine hsome (hothers id fun a ha => ?_)
    have hne := hnone _ (List.mem_map_of_mem ha)
    simp only [updated] at hne
    split_ifs at hne <;> exact hne

private def reverts (ids : List String) (a : AssignmentRow) : Bool :=
  ids.contains a.id && a.status == .fetched

private theorem Tracked.reverted {s after : Leased} (h : Tracked s) (hclock : after.clock = s.clock)
    {ids : List String} (hclaimed : ∀ id, after.claimed id = if id ∈ ids then none else s.claimed id)
    (hrows : after.db.rows .assignments =
      (s.db.rows .assignments).map (updated (reverts ids) AssignmentRow.unclaim)) : Tracked after := by
  have hid (a : AssignmentRow) : (updated (reverts ids) AssignmentRow.unclaim a).id = a.id := by
    simp only [updated]
    split_ifs <;> rfl
  refine ⟨hclock ▸ h.era, ?_, ?_, fun id hsome => ?_⟩
  · rw [hrows]
    simp only [List.forall_mem_map]
    intro a ha hfetched
    cases hchosen : reverts ids a with
    | true =>
      rw [updated_of_true hchosen] at hfetched
      cases hfetched
    | false =>
      rw [updated_of_false hchosen] at hfetched ⊢
      have hkept : a.id ∉ ids := by simpa [reverts, hfetched] using hchosen
      rw [hclaimed, if_neg hkept]
      exact h.fetched a ha hfetched
  · rw [hrows]
    simp only [List.forall_mem_map]
    intro a ha hopen
    rw [hid, hclaimed]
    split_ifs with hgiven
    · rfl
    · rw [updated_of_false (by simp [reverts, hgiven])] at hopen
      exact h.unclaimed a ha hopen
  · rw [hclaimed] at hsome
    split_ifs at hsome
    · exact absurd rfl hsome
    · obtain ⟨a, ha, rfl⟩ := h.known id hsome
      exact ⟨_, hrows ▸ List.mem_map_of_mem ha, hid a⟩

/-- Every call under a clock that does not go back keeps the claims tracked. -/
theorem tracked_after {crates : Crates} {s : Leased} (hconsistent : Consistent s.db) (h : Tracked s) {call : Call}
    (htime : s.on_time call) : Tracked (s.after crates call) := by
  have hids := hconsistent.assignment_ids
  cases hd : call.dispatch with
  | some d =>
    have hnow : 0 ≤ d.now.nanos := h.era.trans (htime d hd)
    have hnone_reverted : call.reverted = [] := by cases call <;> first | rfl | cases hd
    have hclock : (s.after crates call).clock = d.now := by simp [Leased.after, hd]
    have hclaimed (id : String) : (s.after crates call).claimed id =
        if id ∈ call.handed_out crates s.db then some d.now else s.claimed id := by
      simp [Leased.after, hnone_reverted, hd]
    obtain ⟨hnone, hrows⟩ | ⟨cutoff, which, -, -, hout, hrows⟩ := dispatch_spec hids hd
    · refine h.progressed (hclock ▸ hnow) ?_ (hrows.trans (List.map_id _).symm) fun _ => .inl rfl
      funext id
      rw [hclaimed, hnone, if_neg (List.not_mem_nil)]
    · refine h.claim hnow hclock (fun a ha => ?_) (fun id hunknown => ?_) hrows
      · rw [hclaimed]
        refine if_congr ?_ rfl rfl
        rw [hout]
        refine ⟨fun ⟨b, hb, hid, hwhich⟩ => ?_, fun hwhich => ⟨a, ha, rfl, hwhich⟩⟩
        rwa [← eq_of_key_eq hids hb ha hid]
      · rw [hclaimed, if_neg fun hid => ?_]
        · by_contra hsome
          obtain ⟨a, ha, hid⟩ := h.known id hsome
          exact hunknown a ha hid
        · obtain ⟨a, ha, hid, -⟩ := (hout id).mp hid
          exact hunknown a ha hid
  | none =>
    have hclock : (s.after crates call).clock = s.clock := by simp [Leased.after, hd]
    have hclaimed (id : String) :
        (s.after crates call).claimed id = if id ∈ call.reverted then none else s.claimed id := by
      simp [Leased.after, handed_out_of_no_dispatch hd]
    by_cases hrevert : ∃ ids, call = .revert_assignment_claims ids
    · obtain ⟨ids, rfl⟩ := hrevert
      refine h.reverted hclock hclaimed ?_
      simp only [Leased.after, Call.after, exec_of_run_ok (run_revert_assignment_claims ids s.db), Db.set_rows_self]
      rfl
    · have hkept : (s.after crates call).claimed = s.claimed := by
        funext id
        rw [hclaimed, if_neg]
        cases call <;> simp_all [Call.reverted]
      have hera : 0 ≤ (s.after crates call).clock.nanos := hclock ▸ h.era
      cases assignment_effect crates hconsistent call with
      | unchanged hafter => exact h.progressed hera hkept (hafter.trans (List.map_id _).symm) fun _ => .inl rfl
      | added op_id new _ hnew hafter =>
        exact h.added hera hkept hafter (hconsistent.after call).assignment_ids hnew.status
      | dispatched g hcall => cases call <;> simp_all [Call.dispatch, Call.redispatches]
      | completed rep a ha haccepts hafter =>
        obtain ⟨g, hg, hprogressed⟩ := reported_progressed crates hids hconsistent.shaped ha haccepts
        exact h.progressed hera hkept (hafter.trans hg) hprogressed

private theorem leased_run_run {crates : Crates} {allowed : Leased → Call → Prop} {s after : Leased}
    (h : LeasedRun crates allowed s after) : Run crates any_call s.db after.db := by
  induction h with
  | refl => exact .refl
  | tail _ hstep ih =>
    obtain ⟨call, -, -, rfl⟩ := hstep
    exact ih.tail ⟨call, trivial, rfl⟩

private theorem run_tracked {crates : Crates} {allowed : Leased → Call → Prop} {start : jiff.Timestamp} {s : Leased}
    (hera : 0 ≤ start.nanos) (h : LeasedRun crates allowed (leased_from start) s) : Tracked s := by
  induction h with
  | refl => exact ⟨hera, by simp [leased_from, migrated], by simp [leased_from, migrated], by simp [leased_from]⟩
  | tail hrun hstep ih =>
    obtain ⟨call, htime, -, rfl⟩ := hstep
    exact tracked_after (consistent_migrated.run (leased_run_run hrun)) ih htime

/-- No call hands an assignment out twice at once. -/
theorem handed_out_nodup {crates : Crates} {db : Store} (hids : ((db.rows .assignments).map AssignmentRow.id).Nodup)
    (call : Call) : (call.handed_out crates db).Nodup := by
  cases call with
  | fetch_pending_assignments lease now agent_id =>
    rcases exec_cases (fetch_pending_assignments crates lease now agent_id) db with
      ⟨e, herror, -⟩ | ⟨out, after, hrun, hexec⟩
    · simp [Call.handed_out, herror]
    · obtain ⟨cutoff, -, -, hout, -, -⟩ := fetch_pending_assignments_spec hrun
      simp only [Call.handed_out, hexec]
      exact hout.nodup_iff.mpr (hids.sublist (List.filter_sublist.map _))
  | claim_ssh_pending lease now scan target_ids =>
    simp only [Call.handed_out]
    split <;> simp
  | _ => exact List.nodup_nil

/-- Under a clock that does not go back and cutoffs that are sharp, terminal
assignments never change, and every assignment handed out is one of whom the
call serves that was pending in nobody's claim or under a claim whose lease is over. -/
theorem assignments_are_leased {crates : Crates} {start : jiff.Timestamp} {s : Leased} (hera : 0 ≤ start.nanos)
    (hreach : LeasedRun crates (fun s call => sharp_cutoff s call = true) (leased_from start) s) :
    (∀ after, LeasedRun crates (fun s call => sharp_cutoff s call = true) s after →
      ∀ a ∈ s.db.rows .assignments, terminal_assignment a.status = true → a ∈ after.db.rows .assignments) ∧
    ∀ call d, s.on_time call → sharp_cutoff s call = true → call.dispatch = some d →
      (call.handed_out crates s.db).Nodup ∧ ∀ id ∈ call.handed_out crates s.db, MayDispatch d s id := by
  have hconsistent := consistent_migrated.run (leased_run_run hreach)
  refine ⟨fun after hrun a ha hterminal => ?_, fun call d htime hsharp hd => ⟨?_, fun id hid => ?_⟩⟩
  · exact terminal_run hconsistent (leased_run_run hrun) ha ((terminal_assignment_iff _).mp hterminal)
  · exact handed_out_nodup hconsistent.assignment_ids call
  · exact may_dispatch hconsistent.assignment_ids (run_tracked hera hreach) hsharp hd hid

/-- The store and the claims after a list of calls. -/
def leased_all (crates : Crates) (calls : List Call) (s : Leased) : Leased :=
  calls.foldl (fun s call => s.after crates call) s

instance (s : Leased) (call : Call) : Decidable (s.on_time call) :=
  inferInstanceAs (Decidable (∀ d ∈ call.dispatch, _))

/-- Each call of the list is on time and admitted in the state it comes to. -/
def AllOnTime (crates : Crates) (allowed : Leased → Call → Prop) : List Call → Leased → Prop
  | [], _ => True
  | call :: calls, s => s.on_time call ∧ allowed s call ∧ AllOnTime crates allowed calls (s.after crates call)

theorem leased_run_all {crates : Crates} {allowed : Leased → Call → Prop} (calls : List Call) {s : Leased}
    (h : AllOnTime crates allowed calls s) : LeasedRun crates allowed s (leased_all crates calls s) := by
  induction calls generalizing s with
  | nil => exact .refl
  | cons call calls ih => exact .head ⟨call, h.1, h.2.1, rfl⟩ (ih h.2.2)

/-- Midnight and so many milliseconds. -/
def after_midnight (millis : Fin 86400000) : jiff.Timestamp where
  nanos := midnight.nanos + millis * 1000000
  in_range := by
    have hlt := millis.isLt
    simp only [midnight, jiff.min_nanos, jiff.max_nanos]
    omega

/-- An assignment is fetched half a second after midnight. -/
def half_second_claim : List Call :=
  [.register_agent (registration "a"), .create_operation (submission [resource "r0" "a" []] none),
   .fetch_pending_assignments 60 (after_midnight 500) "a"]

def half_second_claim_crates : Crates := crates_on [manifest "a" []]

theorem half_second_claim_is_leased :
    (Call.fetch_pending_assignments 60 (after_midnight 61000) "a").handed_out half_second_claim_crates
        (leased_all half_second_claim_crates half_second_claim (leased_from midnight)).db = ["0"] ∧
      MayDispatch ⟨60, after_midnight 61000, (· == "a")⟩
        (leased_all half_second_claim_crates half_second_claim (leased_from midnight)) "0" := by
  have hout : (Call.fetch_pending_assignments 60 (after_midnight 61000) "a").handed_out half_second_claim_crates
      (leased_all half_second_claim_crates half_second_claim (leased_from midnight)).db = ["0"] := by
    set_option maxRecDepth 2000 in decide
  refine ⟨hout, ((assignments_are_leased (by decide) (leased_run_all half_second_claim ?_)).2
    (.fetch_pending_assignments 60 (after_midnight 61000) "a") _ ?_ ?_ rfl).2 "0" ?_⟩
  · simp only [half_second_claim, AllOnTime]
    decide
  · decide
  · decide
  · rw [hout]
    decide

/-- The claim of half a second after midnight is handed out again at one
minute after midnight, half a second before its lease is over. -/
theorem half_second_claim_is_reclaimed_early :
    ¬ ∀ (crates : Crates) (start : jiff.Timestamp) (s : Leased), 0 ≤ start.nanos →
      LeasedRun crates (fun _ _ => True) (leased_from start) s →
      ∀ call d, s.on_time call → call.dispatch = some d → ∀ id ∈ call.handed_out crates s.db, MayDispatch d s id := by
  intro hall
  have hrun : LeasedRun half_second_claim_crates (fun _ _ => True) (leased_from midnight)
      (leased_all half_second_claim_crates half_second_claim (leased_from midnight)) := by
    refine leased_run_all half_second_claim ?_
    simp only [half_second_claim, AllOnTime]
    decide
  have hmay := hall half_second_claim_crates midnight _ (by decide) hrun
    (.fetch_pending_assignments 60 (after_midnight 60000) "a") _ (by set_option maxRecDepth 2000 in decide) rfl "0" (by decide +kernel)
  revert hmay
  decide

end iac_controlplane.store
