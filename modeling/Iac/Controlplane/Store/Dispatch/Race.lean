import Iac.Controlplane.Store.Lease
import Iac.Sql.ReadCommitted.Take
import Mathlib.Data.Fintype.Basic

open iac_core.protocol jiff sql

namespace iac_controlplane.store

/-- A call that claims assignments. -/
inductive Claim where
  | fetch_pending_assignments (now : jiff.Timestamp) (agent_id : String)
  | claim_ssh_pending (now : jiff.Timestamp) (scan : Scan AssignmentRow) (target_ids : List String)

def Claim.now : Claim → jiff.Timestamp
  | .fetch_pending_assignments now _ => now
  | .claim_ssh_pending now _ _ => now

/-- The transaction of a claim, answering with the ids of the assignments it hands out. -/
def Claim.tx (crates : Crates) (lease : Int) : Claim → Tx (List String)
  | .fetch_pending_assignments now agent_id => do
    let out ← store.fetch_pending_assignments crates lease now agent_id
    return out.map AssignmentEnvelope.assignment_id
  | .claim_ssh_pending now scan target_ids => do
    let claimed ← store.claim_ssh_pending lease now scan target_ids
    return (claimed.map Prod.fst).toList

private theorem leaves_start_operation (op_id now : String) : (start_operation op_id now).leaves .assignments :=
  leaves_bind (leaves_update_where (by decide) _ _) fun _ => leaves_pure _

private theorem leaves_dispatch_rows (crates : Crates) (now : String) (rows : List AssignmentRow) (seen : List String)
    (out : List AssignmentEnvelope) : (dispatch_rows crates now rows seen out).leaves .assignments := by
  induction rows generalizing seen out with
  | nil => exact leaves_pure _
  | cons row rows ih =>
    refine leaves_bind (leaves_ofExcept _) fun value => leaves_bind (leaves_ofExcept _) fun payload => ?_
    split
    · exact ih _ _
    · exact leaves_bind (leaves_start_operation _ _) fun _ => ih _ _

private theorem returns_dispatch_rows (crates : Crates) (now : String) (rows : List AssignmentRow) (seen : List String)
    (out : List AssignmentEnvelope) : (dispatch_rows crates now rows seen out).returns fun out' =>
      out'.map AssignmentEnvelope.assignment_id =
        out.map AssignmentEnvelope.assignment_id ++ rows.map AssignmentRow.id := by
  induction rows generalizing seen out with
  | nil => exact (List.append_nil _).symm
  | cons row rows ih =>
    refine returns_bind (returns_any _) fun value _ => returns_bind (returns_any _) fun payload _ => ?_
    split
    · exact returns_mono (ih _ _) fun out' hids => by simpa [envelope] using hids
    · refine returns_bind (returns_any _) fun _ _ => ?_
      exact returns_mono (ih _ _) fun out' hids => by simpa [envelope] using hids

/-- The claim picks its assignment by a sub-select of its own. -/
def Claim.sub_selects : Claim → Bool
  | .fetch_pending_assignments .. => false
  | .claim_ssh_pending .. => true

/-- The assignment is pending, or its lease is over for this claim. -/
def Claim.ready (lease : Int) (claim : Claim) (a : AssignmentRow) : Prop :=
  ∃ cutoff ∈ claim.now.minus_seconds lease, claimable cutoff.to_string a = true

/-- The row that the sub-select names is one of those it has read, and claimable. -/
private theorem claim_candidate_ready {scan : Scan AssignmentRow} {cutoff : String} {target_ids : List String}
    {rows : List AssignmentRow} (hids : (rows.map AssignmentRow.id).Nodup) {a : AssignmentRow} (ha : a ∈ rows)
    (hwhich : (some a.id == claim_candidate scan cutoff target_ids rows) = true) : claimable cutoff a = true := by
  obtain ⟨picked, hpicked, hid⟩ := Option.map_eq_some_iff.mp (eq_of_beq hwhich).symm
  have hmem := (List.perm_insertionSort _ _).subset (List.mem_of_head? hpicked)
  obtain ⟨hread, hready⟩ := List.mem_filter.mp ((scan.perm _).subset hmem)
  obtain rfl := List.inj_on_of_nodup_map hids hread ha hid
  exact (Bool.and_eq_true_iff.mp hready).2

/-- A claim marks assignments that are ready for it in one UPDATE, and hands out only those. -/
theorem takes_claim (crates : Crates) (lease : Int) (claim : Claim) :
    (claim.tx crates lease).takes .assignments AssignmentRow.id (AssignmentRow.fetch claim.now.to_string)
      (claim.ready lease) (claim.sub_selects = true) fun _ => True := by
  cases claim with
  | fetch_pending_assignments now agent_id =>
    rw [Claim.tx, store.fetch_pending_assignments]
    cases hcutoff : now.minus_seconds lease with
    | none => exact takes_throw _
    | some cutoff =>
      simp only [Prog.bind_assoc]
      refine takes_update (fun a _ hwhich => ?_) (fun rows => ?_) fun rows => ?_
      · exact ⟨cutoff, hcutoff, (Bool.and_eq_true_iff.mp hwhich).2⟩
      · exact leaves_bind (leaves_dispatch_rows _ _ _ _ _) fun _ => leaves_pure _
      · refine returns_bind (returns_dispatch_rows _ _ _ _ _) fun out hids id hid => ?_
        have hperm :=
          (List.perm_insertionSort (fun a b => a.created_at ≤ b.created_at) out).map AssignmentEnvelope.assignment_id
        rw [hids, List.map_nil, List.nil_append] at hperm
        exact List.mem_map.mp (hperm.mem_iff.mp hid)
  | claim_ssh_pending now scan target_ids =>
    rw [Claim.tx, store.claim_ssh_pending]
    split
    · exact rfl
    · cases hcutoff : now.minus_seconds lease with
      | none => exact takes_throw _
      | some cutoff =>
        simp only [Prog.bind_assoc]
        refine takes_query fun read hids => takes_update (fun a hread hwhich => ?_) (fun rows => ?_) fun rows => ?_
        · exact ⟨cutoff, hcutoff, claim_candidate_ready hids (hread rfl) hwhich⟩
        · cases rows.head? with
          | none => exact leaves_pure _
          | some row =>
            exact leaves_bind (leaves_bind (leaves_start_operation _ _) fun _ => leaves_pure _) fun _ => leaves_pure _
        · cases hhead : rows.head? with
          | none => exact fun id hid => by cases hid
          | some row =>
            have hclaimed (claimed : Option (String × String × String))
              (h : some (row.id, row.agent_id, row.payload_json) = claimed) :
                ∀ id ∈ (claimed.map Prod.fst).toList, ∃ row ∈ rows, row.id = id := by
              rw [← h]
              exact fun id hid => ⟨row, List.mem_of_head? hhead, (by simpa using hid : id = row.id).symm⟩
            exact returns_bind (returns_bind (returns_any _) fun _ _ => rfl) hclaimed

/-- The calls are made from the year 0 on, and none in the very second of the
lease cutoff of another, with the cutoff's digits and more. -/
def SharpCutoffs {ι : Type} (lease : Int) (claims : ι → Claim) : Prop :=
  ∀ i j, 0 ≤ (claims i).now.nanos ∧ ∀ cutoff ∈ (claims j).now.minus_seconds lease, ¬ jiff.Truncates cutoff (claims i).now

instance {ι : Type} [Fintype ι] (lease : Int) (claims : ι → Claim) : Decidable (SharpCutoffs lease claims) := by
  unfold SharpCutoffs
  infer_instance

/-- The claims of two calls, if the first is the earlier one, are more than a lease apart. -/
def LeaseApart (lease : Int) (now later : jiff.Timestamp) : Prop :=
  now.nanos + lease * jiff.nanos_per_second < later.nanos

/-- A claim for which an assignment is ready that another call marked comes a lease after that call. -/
private theorem lease_apart {ι : Type} {lease : Int} {claims : ι → Claim} (hsharp : SharpCutoffs lease claims) {i j : ι}
    {row : AssignmentRow} (hready : (claims i).ready lease (AssignmentRow.fetch (claims j).now.to_string row)) :
    LeaseApart lease (claims j).now (claims i).now := by
  obtain ⟨cutoff, hcutoff, hclaimable⟩ := hready
  obtain ⟨hera, hsharp⟩ := hsharp j i
  have hearlier : (claims j).now.to_string < cutoff.to_string := by
    simpa [claimable, AssignmentRow.fetch] using hclaimable
  have hlt := (lt_of_to_string_lt hera hearlier).resolve_right (hsharp cutoff hcutoff)
  rw [minus_seconds_nanos hcutoff] at hlt
  unfold LeaseApart
  omega

/-- No call commits its mark of an assignment that a `claim_ssh_pending` has
picked and not marked yet. -/
def picks_stand {ι : Type} [DecidableEq ι] (claims : ι → Claim) (w : World ι Row ApiError (List String))
    (a : Action ι ApiError) : Prop :=
  ∀ i, a = .advance i → w.spares .assignments (fun j => (claims j).sub_selects = true) i

/-- Whatever calls claim assignments at once, two that commit with the same
assignment are more than a lease apart, as long as nobody commits between the
pick and the mark of a `claim_ssh_pending` what it has picked. -/
theorem claims_are_exclusive {ι : Type} [DecidableEq ι] (crates : Crates) {db : Store}
    (hreachable : Reachable crates any_call db) (lease : Int) {claims : ι → Claim} (hsharp : SharpCutoffs lease claims)
    {w : World ι Row ApiError (List String)}
    (hrun : Interleaving (picks_stand claims) (World.start db fun i => (claims i).tx crates lease) w)
    {i j : ι} (hne : i ≠ j) {ids ids' : List String} (hi : w.sessions i = .finished (.ok ids))
    (hj : w.sessions j = .finished (.ok ids')) {id : String} (hid : id ∈ ids) (hid' : id ∈ ids') :
    LeaseApart lease (claims i).now (claims j).now ∨ LeaseApart lease (claims j).now (claims i).now := by
  by_cases hlease : lease < 0
  · unfold LeaseApart nanos_per_second
    omega
  · refine taken_in_turn (reachable_consistent hreachable).assignment_ids (fun i => takes_claim crates lease (claims i))
      (fun _ _ => rfl)
      (fun i j k hij hjk => ?_) (fun i j row => lease_apart hsharp) hrun hne hi hj hid hid'
    unfold LeaseApart nanos_per_second at hij hjk ⊢
    omega

/-- Two workers claim for the same target, the second one so many milliseconds later. -/
def two_workers (millis : Fin 86400000) (second : Bool) : Claim :=
  .claim_ssh_pending (if second then after_midnight millis else midnight) .insertion ["a"]

def two_workers_calls : List Call :=
  [.register_agent (registration "a"), .create_operation (submission [resource "r0" "a" []] none)]

def two_workers_crates : Crates := crates_on [manifest "a" []]

def two_workers_start (millis : Fin 86400000) : World Bool Row ApiError (List String) :=
  World.start (call_all two_workers_crates two_workers_calls migrated) fun i => (two_workers millis i).tx two_workers_crates 60

/-- Both workers have claimed the assignment "0" and committed. -/
def both_claimed (w : World Bool Row ApiError (List String)) : Bool :=
  [false, true].all fun i => match w.sessions i with
    | .finished (.ok ids) => ids == ["0"]
    | _ => false

private theorem both_claimed_iff {w : World Bool Row ApiError (List String)} (h : both_claimed w = true) (i : Bool) :
    w.sessions i = .finished (.ok ["0"]) := by
  have hi : (match w.sessions i with
    | .finished (.ok ids) => ids == ["0"]
    | _ => false) = true := List.all_eq_true.mp h i (by cases i <;> simp)
  split at hi
  · next ids hids => rw [hids, eq_of_beq hi]
  · cases hi

theorem second_worker_waits : ∃ w : World Bool Row ApiError (List String),
    w.sessions false = .finished (.ok ["0"]) ∧ w.sessions true = .finished (.ok ["0"]) ∧
      (LeaseApart 60 (two_workers 61000 false).now (two_workers 61000 true).now ∨
        LeaseApart 60 (two_workers 61000 true).now (two_workers 61000 false).now) := by
  have hfollow : ((two_workers_start 61000).follow
      (fun w a => match a with
        | .advance i => decide (w.spares .assignments (fun j => (two_workers 61000 j).sub_selects = true) i)
        | .abort _ _ => true)
      (List.replicate 6 (.advance false) ++ List.replicate 6 (.advance true))).any both_claimed = true := by
    set_option maxRecDepth 2000 in decide
  obtain ⟨w, hrun, hends⟩ : ∃ w, Interleaving (picks_stand (two_workers 61000)) (two_workers_start 61000) w ∧
      both_claimed w = true :=
    interleaving_of_follow (fun w a ha i hi => by simpa [hi] using ha) hfollow
  have hfinished := both_claimed_iff hends
  exact ⟨w, hfinished false, hfinished true, claims_are_exclusive two_workers_crates
    (reachable_call_all _ two_workers_calls) 60 (by decide) hrun (by decide) (hfinished false) (hfinished true)
    (List.mem_singleton_self _) (List.mem_singleton_self _)⟩

/-- The second worker waits for the row it has picked, and claims it again when the first one commits. -/
theorem two_workers_claim_one_assignment :
    ¬ ∀ (crates : Crates) (db : Store), Reachable crates any_call db → ∀ (lease : Int) (claims : Bool → Claim)
      (w : World Bool Row ApiError (List String)),
      Interleaving (fun _ _ => True) (World.start db fun i => (claims i).tx crates lease) w →
      ∀ ids ids' id, w.sessions false = .finished (.ok ids) → w.sessions true = .finished (.ok ids') → id ∈ ids → id ∈ ids' →
        LeaseApart lease (claims false).now (claims true).now ∨ LeaseApart lease (claims true).now (claims false).now := by
  intro hall
  have hfollow : ((two_workers_start 0).follow any_step
      (List.replicate 2 (.advance false) ++ List.replicate 2 (.advance true) ++ List.replicate 4 (.advance false) ++
        List.replicate 4 (.advance true))).any both_claimed = true := by
    decide
  obtain ⟨w, hrun, hends⟩ := interleaving_of_follow (fun _ _ _ => trivial) hfollow
  have hfinished := both_claimed_iff hends
  have hapart := hall two_workers_crates _ (reachable_call_all _ two_workers_calls) 60 (two_workers 0) w hrun ["0"] ["0"] "0"
    (hfinished false) (hfinished true) (List.mem_singleton_self _) (List.mem_singleton_self _)
  revert hapart
  unfold LeaseApart
  decide

end iac_controlplane.store
