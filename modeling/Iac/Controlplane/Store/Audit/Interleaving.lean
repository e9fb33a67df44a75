import Iac.Controlplane.Retention
import Iac.Controlplane.Store.Audit.Evidence
import Iac.Sql.ReadCommitted.Tail
import Mathlib.Data.Fintype.Basic

open sql

namespace iac_controlplane.store

/-- A call that writes audit rows or deletes them. -/
inductive AuditCall where
  | record_audit (now : String) (rec : AuditRecord)
  | prune (now later : jiff.Timestamp) (days : Nat)

def AuditCall.tx (crates : Crates) : AuditCall → Tx Unit
  | .record_audit now rec => record_audit_on crates now rec
  | .prune now later days => do
    let _ ← retention.delete_older_than .audit_events AuditEventRow.timestamp now later days
    return ()

def AuditCall.prunes : AuditCall → Bool
  | .record_audit .. => false
  | .prune .. => true

variable {ι : Type} [DecidableEq ι]

/-- When the client commits deletions, no row that stays follows a row it has
deleted, and every recording has ended. -/
def prunes_the_end (calls : ι → AuditCall) (w : World ι Row ApiError Unit) (i : ι) : Prop :=
  match w.sessions i with
  | .running (.done (.ok _)) => (w.slots .audit_events).any (Slot.erased i) = true →
    ((w.slots .audit_events).Pairwise fun s later =>
      s.erased i = true → later.committed.isSome = true → later.erased i = true) ∧
    ∀ j, (calls j).prunes = false → (w.sessions j).todo.isNone = true
  | _ => True

/-- The step commits no deletion but of the end of the chain, after the last recording. -/
def keeps_the_end (calls : ι → AuditCall) (w : World ι Row ApiError Unit) (a : Action ι ApiError) : Prop :=
  ∀ i, a = .advance i → prunes_the_end calls w i

def is_tip (tip : AuditChainTip) : Bool := tip.id == 1

/-- Client `i` holds the lock of the tip, which it has not written yet or has written as `tip`. -/
def Locks (w : World ι Row ApiError Unit) (i : ι) (committed tip : AuditChainTip) : Prop :=
  w.slots .audit_chain_tip = [⟨some committed, some (i, some tip)⟩]

/-- What is left of a recording once it holds the tip. -/
def record_row (crates : Crates) (now : String) (rec : AuditRecord) (prev_hash : String) : Tx Unit := do
  let inserted ← sql_insert .audit_events (audit_row crates now prev_hash rec)
  let _ ← sql_update .audit_chain_tip is_tip fun tip =>
    { tip with last_id := inserted.id, last_hash := inserted.row_hash.getD "", updated_at := now }
  return ()

/-- The tip's UPDATE at the end of a recording. -/
structure TipsTo (row : AuditEventRow) (change : AuditChainTip → AuditChainTip) : Prop where
  id : ∀ tip, (change tip).id = tip.id
  last_hash : ∀ tip, (change tip).last_hash = row.row_hash.getD ""

/-- How far a client has come. `tail` is the row that is being inserted. -/
inductive Phase (crates : Crates) (w : World ι Row ApiError Unit) (tail : Option (ι × AuditEventRow)) (call : AuditCall)
    (i : ι) : Prop where
  | fresh (hs : w.sessions i = .running (call.tx crates)) (hunlocked : ∀ committed tip, ¬ Locks w i committed tip)
      (hfree : ∀ row, tail ≠ some (i, row))
  | locking (now : String) (rec : AuditRecord) (targets : Nat → Bool) (hcall : call.prunes = false)
      (hs : w.sessions i = .updating .audit_chain_tip targets is_tip (fun tip => some tip) fun tips =>
        record_row crates now rec ((tips.head?.map AuditChainTip.last_hash).getD ""))
      (htarget : targets 0 = true) (hunlocked : ∀ committed tip, ¬ Locks w i committed tip)
      (hfree : ∀ row, tail ≠ some (i, row))
  | locked (now : String) (rec : AuditRecord) (tip : AuditChainTip) (hcall : call.prunes = false)
      (hs : w.sessions i = .running (record_row crates now rec tip.last_hash)) (hlock : Locks w i tip tip)
      (hfree : ∀ row, tail ≠ some (i, row))
  | inserted (row : AuditEventRow) (change : AuditChainTip → AuditChainTip) (hcall : call.prunes = false)
      (hs : w.sessions i = .running (.update .audit_chain_tip is_tip (fun tip => some (change tip)) fun _ => .done (.ok ())))
      (hchange : TipsTo row change) (htail : tail = some (i, row))
  | tipping (row : AuditEventRow) (change : AuditChainTip → AuditChainTip) (targets : Nat → Bool) (hcall : call.prunes = false)
      (hs : w.sessions i = .updating .audit_chain_tip targets is_tip (fun tip => some (change tip)) fun _ => .done (.ok ()))
      (htarget : targets 0 = true) (hchange : TipsTo row change) (htail : tail = some (i, row))
  | recorded (row : AuditEventRow) (committed tip : AuditChainTip) (hcall : call.prunes = false)
      (hs : w.sessions i = .running (.done (.ok ()))) (hlock : Locks w i committed tip)
      (hhash : tip.last_hash = row.row_hash.getD "") (htail : tail = some (i, row))
  | picking (targets : Nat → Bool) (which : AuditEventRow → Bool) (hcall : call.prunes = true)
      (hs : w.sessions i = .updating .audit_events targets which (fun _ => none) fun _ => .done (.ok ()))
      (hfree : ∀ row, tail ≠ some (i, row))
  | pruned (hcall : call.prunes = true) (hs : w.sessions i = .running (.done (.ok ()))) (hfree : ∀ row, tail ≠ some (i, row))
  | ended (result : Except ApiError Unit) (hs : w.sessions i = .finished result) (hfree : ∀ row, tail ≠ some (i, row))

/-- The table of the tip holds its one row. -/
def TipRow (slots : List (Slot ι AuditChainTip)) : Prop :=
  ∃ s, slots = [s] ∧ (∃ tip, s.committed = some tip ∧ is_tip tip = true) ∧
    ∀ i new, s.pending = some (i, new) → ∃ tip, new = some tip ∧ is_tip tip = true

/-- A recording has not ended. -/
def recording (calls : ι → AuditCall) (w : World ι Row ApiError Unit) : Prop :=
  ∃ j, (calls j).prunes = false ∧ (w.sessions j).todo.isSome = true

/-- The committed rows are chained and end with the hash in the tip, unless
nobody is going to record any more; what an open transaction inserts follows
that hash. -/
structure AuditChain (crates : Crates) (calls : ι → AuditCall) (w : World ι Row ApiError Unit)
    (tail : Option (ι × AuditEventRow)) : Prop where
  tip : TipRow (w.slots .audit_chain_tip)
  holder : ∀ s ∈ w.slots .audit_chain_tip, ∀ i new, s.pending = some (i, new) → (calls i).prunes = false
  shape : Tail (fun i => (calls i).prunes = true) (w.slots .audit_events) tail
  ids : ((w.slots .audit_events).filterMap Slot.stored).Pairwise fun a b => a.id < b.id
  rows : ∀ row ∈ (w.slots .audit_events).filterMap Slot.stored,
    0 < row.id ∧ row.id < w.seq .audit_events ∧ row.row_hash.isSome = true
  seq : 0 < w.seq .audit_events
  chained : Chained crates "" (w.committed .audit_events)
  ends : recording calls w → ∀ s ∈ w.slots .audit_chain_tip, ∀ tip ∈ s.committed,
    tip.last_hash = chain_end "" (w.committed .audit_events)
  next : ∀ i row, tail = some (i, row) → ∃ committed tip, Locks w i committed tip ∧ Chained crates committed.last_hash [row]
  phase : ∀ i, Phase crates w tail (calls i) i

section Chain

variable {crates : Crates} {calls : ι → AuditCall} {w u : World ι Row ApiError Unit} {i j : ι}
variable {tail tail' : Option (ι × AuditEventRow)}

omit [DecidableEq ι] in
/-- A client stays where it is when it keeps what it has. -/
private theorem Phase.keep {call : AuditCall} (h : Phase crates w tail call j) (hs : u.sessions j = w.sessions j)
    (hlock : ∀ committed tip, Locks u j committed tip ↔ Locks w j committed tip)
    (htail : ∀ row, tail' = some (j, row) ↔ tail = some (j, row)) : Phase crates u tail' call j := by
  have hstill (hfree : ∀ row, tail ≠ some (j, row)) (row : AuditEventRow) : tail' ≠ some (j, row) :=
    fun heq => hfree row ((htail row).mp heq)
  cases h with
  | fresh hs' hunlocked hfree =>
    exact .fresh (hs.trans hs') (fun committed tip hold => hunlocked _ _ ((hlock committed tip).mp hold)) (hstill hfree)
  | locking now rec targets hcall hs' htarget hunlocked hfree =>
    exact .locking now rec targets hcall (hs.trans hs') htarget
      (fun committed tip hold => hunlocked _ _ ((hlock committed tip).mp hold)) (hstill hfree)
  | locked now rec tip hcall hs' hlock' hfree =>
    exact .locked now rec tip hcall (hs.trans hs') ((hlock _ _).mpr hlock') (hstill hfree)
  | inserted row change hcall hs' hchange htail' =>
    exact .inserted row change hcall (hs.trans hs') hchange ((htail row).mpr htail')
  | tipping row change targets hcall hs' htarget hchange htail' =>
    exact .tipping row change targets hcall (hs.trans hs') htarget hchange ((htail row).mpr htail')
  | recorded row committed tip hcall hs' hlock' hhash htail' =>
    exact .recorded row committed tip hcall (hs.trans hs') ((hlock _ _).mpr hlock') hhash ((htail row).mpr htail')
  | picking targets which hcall hs' hfree => exact .picking targets which hcall (hs.trans hs') (hstill hfree)
  | pruned hcall hs' hfree => exact .pruned hcall (hs.trans hs') (hstill hfree)
  | ended result hs' hfree => exact .ended result (hs.trans hs') (hstill hfree)

omit [DecidableEq ι] in
private theorem locks_congr (h : u.slots .audit_chain_tip = w.slots .audit_chain_tip) (j : ι) (committed tip : AuditChainTip) :
    Locks u j committed tip ↔ Locks w j committed tip := by
  rw [Locks, Locks, h]

omit [DecidableEq ι] in
private theorem locks_inj {k : ι} {committed committed' tip tip' : AuditChainTip} (h : Locks w i committed tip)
    (h' : Locks w k committed' tip') : i = k ∧ committed = committed' := by
  obtain ⟨hcommitted, hpending⟩ := Slot.mk.inj (List.singleton_inj.mp (h.symm.trans h'))
  exact ⟨(Prod.mk.inj (Option.some.inj hpending)).1, Option.some.inj hcommitted⟩

omit [DecidableEq ι] in
/-- Who makes a step has not ended before. -/
private theorem recording_of (hsessions : ∀ j, j ≠ i → u.sessions j = w.sessions j) (hs : (w.sessions i).todo.isSome = true)
    (h : recording calls u) : recording calls w := by
  obtain ⟨j, hcall, htodo⟩ := h
  by_cases hj : j = i
  · exact ⟨i, hj ▸ hcall, hs⟩
  · exact ⟨j, hcall, hsessions j hj ▸ htodo⟩

/-- A step that leaves the storage alone. -/
private theorem AuditChain.ask (h : AuditChain crates calls w tail) (hs : (w.sessions i).todo.isSome = true)
    {session : Session Row ApiError Unit} (hu : u = w.set_session i session)
    (hphase : Phase crates u tail (calls i) i) : AuditChain crates calls u tail := by
  have hsessions := sessions_of_set hu rfl
  subst hu
  refine ⟨h.tip, h.holder, h.shape, h.ids, h.rows, h.seq, h.chained, fun hopen => h.ends (recording_of hsessions hs hopen),
    h.next, fun j => ?_⟩
  by_cases hj : j = i
  · exact hj ▸ hphase
  · exact (h.phase j).keep (hsessions j hj) (locks_congr rfl j) fun _ => .rfl

/-- A recording writes the tip, which nobody else has written. -/
private theorem AuditChain.write_tip (h : AuditChain crates calls w tail) (hcall : (calls i).prunes = false)
    (hs : (w.sessions i).todo.isSome = true) {committed tip : AuditChainTip} {pending : Option (ι × Option AuditChainTip)}
    (htips : w.slots .audit_chain_tip = [⟨some committed, pending⟩]) (hmine : ∀ k new, pending = some (k, new) → k = i)
    (htip : is_tip tip = true) {session : Session Row ApiError Unit}
    (hu : u = (w.set_slots .audit_chain_tip [⟨some committed, some (i, some tip)⟩]).set_session i session)
    (hphase : Locks u i committed tip → Phase crates u tail (calls i) i) : AuditChain crates calls u tail := by
  have hevents : u.slots .audit_events = w.slots .audit_events := by
    rw [hu, slots_set_session, slots_set_slots_of_ne _ (by decide)]
  have hlock : Locks u i committed tip := by
    rw [Locks, hu, slots_set_session, slots_set_slots]
  have hsessions := sessions_of_set hu rfl
  have hlock_of_ne {j : ι} (hj : j ≠ i) (c t : AuditChainTip) : Locks u j c t ↔ Locks w j c t := by
    refine iff_of_false (fun hold => hj (locks_inj hold hlock).1) fun hold => ?_
    obtain ⟨-, hpending⟩ := Slot.mk.inj (List.singleton_inj.mp (htips.symm.trans hold))
    exact hj (hmine _ _ hpending)
  have hcommitted : u.committed .audit_events = w.committed .audit_events := by
    rw [World.committed, hevents]
    rfl
  have hseq : u.seq = w.seq := by rw [hu]; rfl
  refine ⟨⟨_, hlock, ?_, fun k new hk => ?_⟩, fun s hmem k new hk => ?_, hevents ▸ h.shape, hevents ▸ h.ids, ?_, hseq ▸ h.seq,
    hcommitted ▸ h.chained, fun hopen s hmem t ht => ?_, fun k row hk => ?_, fun j => ?_⟩
  · obtain ⟨s, hslots, hrow, -⟩ := h.tip
    obtain rfl : s = _ := List.singleton_inj.mp (hslots.symm.trans htips)
    exact hrow
  · obtain ⟨-, rfl⟩ := Prod.mk.inj (Option.some.inj hk)
    exact ⟨tip, rfl, htip⟩
  · rw [hlock] at hmem
    obtain rfl := List.mem_singleton.mp hmem
    obtain ⟨rfl, -⟩ := Prod.mk.inj (Option.some.inj hk)
    exact hcall
  · rw [hevents, hseq]
    exact h.rows
  · rw [hlock] at hmem
    obtain rfl := List.mem_singleton.mp hmem
    rw [hcommitted]
    exact h.ends (recording_of hsessions hs hopen) ⟨some committed, pending⟩ (htips ▸ List.mem_singleton_self _) t ht
  · obtain ⟨c, t, hold, hnext⟩ := h.next k row hk
    obtain ⟨hc, hpending⟩ := Slot.mk.inj (List.singleton_inj.mp (htips.symm.trans hold))
    obtain rfl := hmine _ _ hpending
    obtain rfl := Option.some.inj hc
    exact ⟨committed, tip, hlock, hnext⟩
  · by_cases hj : j = i
    · exact hj ▸ hphase hlock
    · exact (h.phase j).keep (hsessions j hj) (hlock_of_ne hj) fun _ => .rfl

/-- A row inserted under the lock of the tip follows the hash in it. -/
private theorem AuditChain.insert (h : AuditChain crates calls w tail) (hcall : (calls i).prunes = false)
    (hs : (w.sessions i).todo.isSome = true) {now : String} {rec : AuditRecord} {tip : AuditChainTip}
      (hlock : Locks w i tip tip)
    (hfree : ∀ row, tail ≠ some (i, row)) {row : AuditEventRow}
    (hrow : row = audit_row crates now tip.last_hash rec (w.seq .audit_events)) {session : Session Row ApiError Unit}
    (hu : u = ((w.next_id .audit_events).set_slots .audit_events
      (w.slots .audit_events ++ [⟨none, some (i, some row)⟩])).set_session i session)
    (hphase : Phase crates u (some (i, row)) (calls i) i) : AuditChain crates calls u (some (i, row)) := by
  obtain rfl : tail = none := by
    cases htail : tail with
    | none => rfl
    | some inserted =>
      obtain ⟨committed, tip', hold, -⟩ := h.next inserted.1 inserted.2 htail
      have hsame : i = inserted.1 := (locks_inj hlock hold).1
      exact absurd (htail.trans (by rw [hsame])) (hfree inserted.2)
  have hevents : u.slots .audit_events = w.slots .audit_events ++ [⟨none, some (i, some row)⟩] := by
    rw [hu, slots_set_session, slots_set_slots]
  have htips : u.slots .audit_chain_tip = w.slots .audit_chain_tip := by
    have hne : Table.audit_chain_tip ≠ .audit_events := by decide
    rw [hu, slots_set_session, slots_set_slots_of_ne _ hne, slots_next_id]
  have hsessions := sessions_of_set hu rfl
  have hcommitted : u.committed .audit_events = w.committed .audit_events := by
    simp [World.committed, hevents]
  have hstored : (u.slots .audit_events).filterMap Slot.stored = (w.slots .audit_events).filterMap Slot.stored ++ [row] := by
    simp [hevents, Slot.stored]
  have hseq : u.seq .audit_events = w.seq .audit_events + 1 := by
    simp [hu, World.set_session, World.set_slots, World.next_id]
  refine ⟨htips ▸ h.tip, htips ▸ h.holder, ?_, ?_, ?_, by omega, hcommitted ▸ h.chained, fun hopen => ?_, fun k row' hk => ?_,
    fun j => ?_⟩
  · rw [hevents]
    exact h.shape.insert (by simp [hcall]) row
  · rw [hstored]
    refine List.pairwise_append.mpr ⟨h.ids, List.pairwise_singleton _ _, fun a ha b hb => ?_⟩
    obtain rfl := List.mem_singleton.mp hb
    rw [hrow]
    exact (h.rows a ha).2.1
  · rw [hstored, hseq]
    intro a ha
    obtain hold | hnew := List.mem_append.mp ha
    · obtain ⟨hpos, hlt, hhash⟩ := h.rows a hold
      exact ⟨hpos, by omega, hhash⟩
    · obtain rfl := List.mem_singleton.mp hnew
      have hpos := h.seq
      exact ⟨hrow ▸ hpos, by rw [hrow]; exact Nat.lt_succ_self _, by rw [hrow]; rfl⟩
  · rw [htips, hcommitted]
    exact h.ends (recording_of hsessions hs hopen)
  · obtain ⟨rfl, rfl⟩ := Prod.mk.inj (Option.some.inj hk)
    refine ⟨tip, tip, (locks_congr htips i tip tip).mpr hlock, ?_⟩
    rw [hrow]
    exact (chained_audit_row ..).mpr trivial
  · by_cases hj : j = i
    · exact hj ▸ hphase
    · refine (h.phase j).keep (hsessions j hj) (locks_congr htips j) fun row' => ?_
      exact iff_of_false (fun heq => hj (Prod.mk.inj (Option.some.inj heq)).1.symm) fun heq => by cases heq

/-- The DELETE of a prune commits nothing yet. -/
private theorem AuditChain.delete (h : AuditChain crates calls w tail) (hcall : (calls i).prunes = true)
    (hs : (w.sessions i).todo.isSome = true) {targets : Nat → Bool} {which : AuditEventRow → Bool}
    (hfree : ∀ row, tail ≠ some (i, row)) (hwaits : waits i targets (w.slots .audit_events) = false)
    (hu : u = (w.set_slots .audit_events (rewrite_slots i targets which (fun _ => none) (w.slots .audit_events))).set_session i
      (.running (.done (.ok ())))) : AuditChain crates calls u tail := by
  obtain ⟨hshape, hstored⟩ := h.shape.delete hcall which hwaits
  have hevents : u.slots .audit_events = rewrite_slots i targets which (fun _ => none) (w.slots .audit_events) := by
    rw [hu, slots_set_session, slots_set_slots]
  have htips : u.slots .audit_chain_tip = w.slots .audit_chain_tip := by
    have hne : Table.audit_chain_tip ≠ .audit_events := by decide
    rw [hu, slots_set_session, slots_set_slots_of_ne _ hne]
  have hsessions := sessions_of_set hu rfl
  have hcommitted : u.committed .audit_events = w.committed .audit_events := by
    have hsame := congrArg (List.filterMap id)
      (map_committed_rewrite_slots i targets which (fun _ => none) (w.slots .audit_events))
    rw [List.filterMap_map, List.filterMap_map] at hsame
    rw [World.committed, hevents]
    exact hsame
  have hseq : u.seq = w.seq := by rw [hu]; rfl
  refine ⟨htips ▸ h.tip, htips ▸ h.holder, hevents ▸ hshape, ?_, ?_, hseq ▸ h.seq, hcommitted ▸ h.chained, fun hopen => ?_,
    fun k row hk => ?_, fun j => ?_⟩
  · rw [hevents, hstored]
    exact h.ids
  · rw [hevents, hstored, hseq]
    exact h.rows
  · rw [htips, hcommitted]
    exact h.ends (recording_of hsessions hs hopen)
  · obtain ⟨committed, tip, hlock, hnext⟩ := h.next k row hk
    exact ⟨committed, tip, (locks_congr htips k committed tip).mpr hlock, hnext⟩
  · by_cases hj : j = i
    · exact hj ▸ .pruned hcall (by rw [hu, sessions_set_session]) hfree
    · exact (h.phase j).keep (hsessions j hj) (locks_congr htips j) fun _ => .rfl

theorem settle_commit {R : Type} (i : ι) (s : Slot ι R) : s.commit i = s ∨
    ∃ new, s.pending = some (i, new) ∧ (s.commit i = ⟨new, none⟩ ∨ s.commit i = ⟨s.committed, none⟩) := by
  cases hp : s.pending with
  | none => exact .inl (by simp [Slot.commit, hp])
  | some p =>
    by_cases hi : p.1 = i
    · exact .inr ⟨p.2, by rw [← hi], .inl (by simp [Slot.commit, hp, hi])⟩
    · exact .inl (by simp [Slot.commit, hp, hi])

theorem settle_rollback {R : Type} (i : ι) (s : Slot ι R) : s.rollback i = s ∨
    ∃ new, s.pending = some (i, new) ∧ (s.rollback i = ⟨new, none⟩ ∨ s.rollback i = ⟨s.committed, none⟩) := by
  cases hp : s.pending with
  | none => exact .inl (by simp [Slot.rollback, hp])
  | some p =>
    by_cases hi : p.1 = i
    · exact .inr ⟨p.2, by rw [← hi], .inr (by simp [Slot.rollback, hp, hi])⟩
    · exact .inl (by simp [Slot.rollback, hp, hi])

/-- The end of a transaction, `settle` being what it does to the tip. -/
private theorem AuditChain.finish (h : AuditChain crates calls w tail) {settle : Slot ι AuditChainTip → Slot ι AuditChainTip}
    (hsettle : ∀ s, settle s = s ∨ ∃ new, s.pending = some (i, new) ∧ (settle s = ⟨new, none⟩ ∨ settle s = ⟨s.committed, none⟩))
    (htips : u.slots .audit_chain_tip = (w.slots .audit_chain_tip).map settle)
    (hsessions : ∀ j, j ≠ i → u.sessions j = w.sessions j) (hover : ∃ result, u.sessions i = .finished result)
    (hseq : u.seq = w.seq) (hshape : Tail (fun i => (calls i).prunes = true) (u.slots .audit_events) tail')
    (hstored : ((u.slots .audit_events).filterMap Slot.stored).Sublist ((w.slots .audit_events).filterMap Slot.stored))
    (hchained : Chained crates "" (u.committed .audit_events))
    (hends : recording calls u → ∀ s ∈ u.slots .audit_chain_tip, ∀ tip ∈ s.committed,
      tip.last_hash = chain_end "" (u.committed .audit_events))
    (hfree : ∀ row, tail' ≠ some (i, row)) (htail : ∀ j row, j ≠ i → (tail' = some (j, row) ↔ tail = some (j, row))) :
    AuditChain crates calls u tail' := by
  have hlocks {k : ι} (hk : k ≠ i) (committed tip : AuditChainTip) : Locks u k committed tip ↔ Locks w k committed tip := by
    obtain ⟨s, hs, -⟩ := h.tip
    rw [Locks, Locks, htips, hs, List.map_singleton, List.singleton_inj, List.singleton_inj]
    obtain hsame | ⟨new, hpending, hcommit | hrollback⟩ := hsettle s
    · rw [hsame]
    · rw [hcommit]
      refine iff_of_false (fun heq => ?_) fun heq => ?_
      · cases (Slot.mk.inj heq).2
      · rw [heq] at hpending
        exact hk (Prod.mk.inj (Option.some.inj hpending)).1
    · rw [hrollback]
      refine iff_of_false (fun heq => ?_) fun heq => ?_
      · cases (Slot.mk.inj heq).2
      · rw [heq] at hpending
        exact hk (Prod.mk.inj (Option.some.inj hpending)).1
  refine ⟨?_, fun s hs k new hk => ?_, hshape, h.ids.sublist hstored, fun row hrow => ?_, hseq ▸ h.seq, hchained, hends,
    fun k row hk => ?_, fun j => ?_⟩
  · obtain ⟨s, hs, ⟨tip, htip, his_tip⟩, hpending⟩ := h.tip
    rw [htips, hs]
    refine ⟨settle s, rfl, ?_⟩
    obtain hsame | ⟨new, hnew, hcommit | hrollback⟩ := hsettle s
    · rw [hsame]
      exact ⟨⟨tip, htip, his_tip⟩, hpending⟩
    · obtain ⟨tip', rfl, htip'⟩ := hpending i new hnew
      rw [hcommit]
      exact ⟨⟨tip', rfl, htip'⟩, fun _ _ hp => by cases hp⟩
    · rw [hrollback]
      exact ⟨⟨tip, htip, his_tip⟩, fun _ _ hp => by cases hp⟩
  · rw [htips] at hs
    obtain ⟨old, hold, rfl⟩ := List.mem_map.mp hs
    obtain hsame | ⟨_, -, hcommit | hrollback⟩ := hsettle old
    · rw [hsame] at hk
      exact h.holder old hold k new hk
    · rw [hcommit] at hk
      cases hk
    · rw [hrollback] at hk
      cases hk
  · rw [hseq]
    exact h.rows row (hstored.subset hrow)
  · have hne : k ≠ i := fun heq => hfree row (heq ▸ hk)
    obtain ⟨committed, tip, hlock, hnext⟩ := h.next k row ((htail k row hne).mp hk)
    exact ⟨committed, tip, (hlocks hne committed tip).mpr hlock, hnext⟩
  · by_cases hj : j = i
    · obtain ⟨result, hresult⟩ := hover
      exact hj ▸ .ended result hresult hfree
    · exact (h.phase j).keep (hsessions j hj) (hlocks hj) fun row => htail j row hj

omit [DecidableEq ι] in
/-- Whoever records after the end of a transaction has been recording before. -/
private theorem recording_of_over (hsessions : ∀ j, j ≠ i → u.sessions j = w.sessions j)
    (hover : ∃ result, u.sessions i = .finished result) (h : recording calls u) :
    ∃ j, j ≠ i ∧ (calls j).prunes = false ∧ (w.sessions j).todo.isSome = true := by
  obtain ⟨j, hcall, htodo⟩ := h
  have hj : j ≠ i := by
    rintro rfl
    obtain ⟨result, hresult⟩ := hover
    rw [hresult] at htodo
    cases htodo
  exact ⟨j, hj, hcall, hsessions j hj ▸ htodo⟩

private theorem AuditChain.stop (h : AuditChain crates calls w tail) {e : ApiError} (hu : u = w.finish i (.error e)) :
    ∃ tail', AuditChain crates calls u tail' := by
  have hevents : u.slots .audit_events = (w.slots .audit_events).map (Slot.rollback i) := by rw [hu]; rfl
  have htips : u.slots .audit_chain_tip = (w.slots .audit_chain_tip).map (Slot.rollback i) := by rw [hu]; rfl
  have hcommitted : u.committed .audit_events = w.committed .audit_events := by
    rw [World.committed, hevents, List.filterMap_map]
    exact List.filterMap_congr fun s _ => committed_rollback
  have hsessions := sessions_of_set hu rfl
  have hover : ∃ result, u.sessions i = .finished result := ⟨.error e, by rw [hu]; exact Function.update_self _ _ _⟩
  have hends : recording calls u → ∀ s ∈ u.slots .audit_chain_tip, ∀ tip ∈ s.committed,
      tip.last_hash = chain_end "" (u.committed .audit_events) := by
    intro hopen s hs
    obtain ⟨j, -, hrecording⟩ := recording_of_over hsessions hover hopen
    rw [htips] at hs
    obtain ⟨old, hold, rfl⟩ := List.mem_map.mp hs
    rw [committed_rollback, hcommitted]
    exact h.ends ⟨j, hrecording⟩ old hold
  have finish {tail' : Option (ι × AuditEventRow)}
      (hshape : Tail (fun i => (calls i).prunes = true) (u.slots .audit_events) tail')
      (hfree : ∀ row, tail' ≠ some (i, row)) (htail : ∀ j row, j ≠ i → (tail' = some (j, row) ↔ tail = some (j, row))) :
      AuditChain crates calls u tail' :=
    h.finish (settle_rollback i) htips hsessions hover (by rw [hu]; rfl) hshape (hevents ▸ h.shape.stored_finish.2)
      (hcommitted ▸ h.chained) hends hfree htail
  by_cases howner : ∃ row, tail = some (i, row)
  · obtain ⟨row, rfl⟩ := howner
    refine ⟨none, finish (hevents ▸ h.shape.rollback_inserting) (by simp) fun j row' hj => ?_⟩
    exact iff_of_false (by simp) fun heq => hj (Prod.mk.inj (Option.some.inj heq)).1.symm
  · have hfree (row : AuditEventRow) : tail ≠ some (i, row) := fun heq => howner ⟨row, heq⟩
    exact ⟨tail, finish (hevents ▸ (h.shape.finish hfree).2) hfree fun _ _ _ => .rfl⟩

/-- A prune commits: what it has deleted is at the end, and nobody will record any more. -/
private theorem AuditChain.commit_prune (h : AuditChain crates calls w tail) (hcall : (calls i).prunes = true)
    (hs : w.sessions i = .running (.done (.ok ()))) (hfree : ∀ row, tail ≠ some (i, row)) (hprunes : prunes_the_end calls w i)
    (hu : u = w.finish i (.ok ())) : AuditChain crates calls u tail := by
  have hevents : u.slots .audit_events = (w.slots .audit_events).map (Slot.commit i) := by rw [hu]; rfl
  have htips : u.slots .audit_chain_tip = (w.slots .audit_chain_tip).map (Slot.commit i) := by rw [hu]; rfl
  have htips_same : u.slots .audit_chain_tip = w.slots .audit_chain_tip := by
    rw [htips]
    conv_rhs => rw [← List.map_id (w.slots .audit_chain_tip)]
    refine List.map_congr_left fun s hmem => ?_
    obtain hsame | ⟨new, hpending, -⟩ := settle_commit i s
    · exact hsame
    · rw [h.holder s hmem i new hpending] at hcall
      cases hcall
  have hsessions := sessions_of_set hu rfl
  have hover : ∃ result, u.sessions i = .finished result := ⟨.ok (), by rw [hu]; exact Function.update_self _ _ _⟩
  have finish (hchained : Chained crates "" (u.committed .audit_events))
      (hends : recording calls u → u.committed .audit_events = w.committed .audit_events) : AuditChain crates calls u tail := by
    refine h.finish (settle_commit i) htips hsessions hover (by rw [hu]; rfl) (hevents ▸ (h.shape.finish hfree).1)
      (hevents ▸ h.shape.stored_finish.1) hchained (fun hopen => ?_) hfree fun _ _ _ => .rfl
    obtain ⟨j, -, hrecording⟩ := recording_of_over hsessions hover hopen
    rw [htips_same, hends hopen]
    exact h.ends ⟨j, hrecording⟩
  by_cases herased : (w.slots .audit_events).any (Slot.erased i) = true
  · rw [prunes_the_end, hs] at hprunes
    obtain ⟨hend, hover'⟩ := hprunes herased
    obtain ⟨rest, hrest⟩ := h.shape.commit_deleting hfree hend
    refine finish ?_ fun hopen => ?_
    · have hchained := h.chained
      rw [World.committed, hrest, chained_append] at hchained
      rw [World.committed, hevents]
      exact hchained.1
    · obtain ⟨j, -, hcall_j, htodo⟩ := recording_of_over hsessions hover hopen
      rw [Option.isNone_iff_eq_none.mp (hover' j hcall_j)] at htodo
      cases htodo
  · have hsame : u.committed .audit_events = w.committed .audit_events := by
      rw [World.committed, hevents, h.shape.commit_nothing hfree (Bool.eq_false_iff.mpr herased)]
      rfl
    exact finish (hsame ▸ h.chained) fun _ => hsame

/-- A recording commits: its row follows the last one, and its hash is in the tip. -/
private theorem AuditChain.commit_record (h : AuditChain crates calls w tail) (hcall : (calls i).prunes = false)
    (hs : w.sessions i = .running (.done (.ok ()))) {row : AuditEventRow} {committed tip : AuditChainTip}
    (hlock : Locks w i committed tip) (hhash : tip.last_hash = row.row_hash.getD "") (htail : tail = some (i, row))
    (hu : u = w.finish i (.ok ())) : AuditChain crates calls u none := by
  subst htail
  have hevents : u.slots .audit_events = (w.slots .audit_events).map (Slot.commit i) := by rw [hu]; rfl
  have htips : u.slots .audit_chain_tip = (w.slots .audit_chain_tip).map (Slot.commit i) := by rw [hu]; rfl
  have hsessions := sessions_of_set hu rfl
  have hover : ∃ result, u.sessions i = .finished result := ⟨.ok (), by rw [hu]; exact Function.update_self _ _ _⟩
  obtain ⟨hshape, hrow⟩ := h.shape.commit_inserting
  have hcommitted : u.committed .audit_events = w.committed .audit_events ++ [row] := by
    rw [World.committed, hevents, hrow]
    rfl
  have hended : committed.last_hash = chain_end "" (w.committed .audit_events) :=
    h.ends ⟨i, hcall, by rw [hs]; rfl⟩ _ (hlock ▸ List.mem_singleton_self _) committed rfl
  obtain ⟨committed', tip', hlock', hnext⟩ := h.next i row rfl
  obtain ⟨-, rfl⟩ := locks_inj hlock hlock'
  refine h.finish (settle_commit i) htips hsessions hover (by rw [hu]; rfl) (hevents ▸ hshape)
    (hevents ▸ h.shape.stored_finish.1)
    ?_ (fun _ s hmem t ht => ?_) (by simp) fun j row' hj => ?_
  · rw [hcommitted]
    exact chained_append.mpr ⟨h.chained, hended ▸ hnext⟩
  · rw [htips, hlock, List.map_singleton] at hmem
    obtain rfl := List.mem_singleton.mp hmem
    obtain rfl : tip = t := by simpa [Slot.commit] using ht
    rw [hcommitted, hhash]
    simp [chain_end]
  · exact iff_of_false (by simp) fun heq => hj (Prod.mk.inj (Option.some.inj heq)).1.symm

/-- A recording gets the lock of the tip, and reads what is committed there. -/
private theorem AuditChain.lock (h : AuditChain crates calls w tail) (hcall : (calls i).prunes = false) {now : String}
    {rec : AuditRecord} {targets : Nat → Bool} (htarget : targets 0 = true) (hs : (w.sessions i).todo.isSome = true)
    (hunlocked : ∀ committed tip, ¬ Locks w i committed tip) (hfree : ∀ row, tail ≠ some (i, row))
    (hwaits : waits i targets (w.slots .audit_chain_tip) = false)
    (hu : u = (w.set_slots .audit_chain_tip (rewrite_slots i targets is_tip (fun tip => some tip)
      (w.slots .audit_chain_tip))).set_session i (.running (record_row crates now rec
        (((rewritten i targets is_tip (fun tip => some tip)
          (w.slots .audit_chain_tip)).head?.map AuditChainTip.last_hash).getD "")))) :
    AuditChain crates calls u tail := by
  obtain ⟨s, htips, ⟨tip, hcommitted, htip⟩, hpending⟩ := h.tip
  obtain ⟨committed, pending⟩ := s
  obtain rfl : committed = some tip := hcommitted
  obtain rfl : pending = none := by
    cases pending with
    | none => rfl
    | some p =>
      obtain ⟨k, new⟩ := p
      obtain ⟨tip', rfl, -⟩ := hpending k new rfl
      have hmine : (⟨some tip, some (k, some tip')⟩ : Slot ι AuditChainTip).locked i = false :=
        free_of_not_waits hwaits (n := 0) (by rw [htips]; rfl) htarget
      obtain rfl : k = i := by simpa [Slot.locked] using hmine
      exact absurd htips (hunlocked tip tip')
  have hrewritten : rewritten i targets is_tip (fun tip => some tip) (w.slots .audit_chain_tip) = [tip] := by
    rw [htips]
    simp [rewritten, htarget, Slot.visible, htip, answer, Option.filter, List.reduceOption]
  have hslots : rewrite_slots i targets is_tip (fun tip => some tip) (w.slots .audit_chain_tip) =
      [⟨some tip, some (i, some tip)⟩] := by
    rw [htips]
    simp [rewrite_slots, htarget, Slot.rewrite, Slot.visible, htip]
  rw [hrewritten, hslots] at hu
  refine h.write_tip hcall hs htips (by simp) htip hu fun hlock => ?_
  refine .locked now rec tip hcall ?_ hlock hfree
  rw [hu, sessions_set_session]
  rfl

/-- A recording writes its hash to the tip. -/
private theorem AuditChain.write_hash (h : AuditChain crates calls w tail) (hcall : (calls i).prunes = false)
    (hs : (w.sessions i).todo.isSome = true) {row : AuditEventRow} {change : AuditChainTip → AuditChainTip}
      {targets : Nat → Bool}
    (htarget : targets 0 = true) (hchange : TipsTo row change) (htail : tail = some (i, row))
    (hu : u = (w.set_slots .audit_chain_tip (rewrite_slots i targets is_tip (fun tip => some (change tip))
      (w.slots .audit_chain_tip))).set_session i (.running (.done (.ok ())))) : AuditChain crates calls u tail := by
  obtain ⟨committed, tip, hlock, -⟩ := h.next i row htail
  have htip : is_tip tip = true := by
    obtain ⟨s, htips, -, hpending⟩ := h.tip
    obtain rfl := List.singleton_inj.mp (htips.symm.trans hlock)
    obtain ⟨tip', hnew, htip⟩ := hpending i (some tip) rfl
    exact Option.some.inj hnew ▸ htip
  have hslots : rewrite_slots i targets is_tip (fun tip => some (change tip)) (w.slots .audit_chain_tip) =
      [⟨some committed, some (i, some (change tip))⟩] := by
    rw [hlock]
    simp [rewrite_slots, htarget, Slot.rewrite, Slot.visible, htip]
  rw [hslots] at hu
  have hchanged : is_tip (change tip) = true := by
    rw [is_tip, hchange.id]
    exact htip
  refine h.write_tip hcall hs hlock (fun k new hk => (Prod.mk.inj (Option.some.inj hk)).1.symm) hchanged hu fun hlock' => ?_
  exact .recorded row committed (change tip) hcall (by rw [hu, sessions_set_session]) hlock' (hchange.last_hash tip) htail

private theorem AuditChain.targets_tip (h : AuditChain crates calls w tail) (i : ι) :
    w.targets i .audit_chain_tip is_tip 0 = true := by
  obtain ⟨s, hs, ⟨tip, hcommitted, htip⟩, hpending⟩ := h.tip
  cases hp : s.pending with
  | none => simp [World.targets, hs, Slot.visible, hp, hcommitted, htip]
  | some p =>
    obtain ⟨k, new⟩ := p
    obtain ⟨tip', rfl, htip'⟩ := hpending k new hp
    by_cases hk : k = i
    · simp [World.targets, hs, Slot.visible, hp, hk, htip']
    · simp [World.targets, hs, Slot.visible, hp, hk, hcommitted, htip]

private theorem AuditChain.step (h : AuditChain crates calls w tail) {a : Action ι ApiError}
    (hallowed : keeps_the_end calls w a)
    (hstep : w.step a = some u) : ∃ tail', AuditChain crates calls u tail' := by
  cases a with
  | abort i e =>
    simp only [World.step] at hstep
    split at hstep
    · cases hstep
    · exact h.stop (Option.some.inj hstep).symm
  | advance i =>
    have hprunes := hallowed i rfl
    change w.advance i = some u at hstep
    unfold World.advance at hstep
    cases h.phase i with
    | fresh hs hunlocked hfree =>
      have htodo : (w.sessions i).todo.isSome = true := by rw [hs]; rfl
      rw [hs] at hstep
      cases hcall : calls i with
      | record_audit now rec =>
        rw [hcall] at hstep
        have hu := (Option.some.inj hstep).symm
        refine ⟨tail, h.ask htodo hu (.locking now rec _ (by rw [hcall]; rfl) (by rw [hu, sessions_set_session]; rfl)
          (h.targets_tip i) (fun committed tip hold => hunlocked committed tip ?_) hfree)⟩
        rw [hu] at hold
        exact hold
      | prune now later days =>
        rw [hcall] at hstep
        have hu := (Option.some.inj hstep).symm
        exact ⟨tail, h.ask htodo hu (.picking _ _ (by rw [hcall]; rfl) (by rw [hu, sessions_set_session]; rfl) hfree)⟩
    | locking now rec targets hcall hs htarget hunlocked hfree =>
      have htodo : (w.sessions i).todo.isSome = true := by rw [hs]; rfl
      simp only [hs] at hstep
      split_ifs at hstep with hwaits
      exact ⟨tail, h.lock hcall htarget htodo hunlocked hfree (Bool.eq_false_iff.mpr hwaits) (Option.some.inj hstep).symm⟩
    | locked now rec tip hcall hs hlock hfree =>
      have htodo : (w.sessions i).todo.isSome = true := by rw [hs]; rfl
      obtain ⟨next, hprog, hnext⟩ : ∃ next, record_row crates now rec tip.last_hash =
          .insert .audit_events (audit_row crates now tip.last_hash rec) next ∧ ∀ row, next (some row) =
          .update .audit_chain_tip is_tip (fun tip => some { tip with
            last_id := row.id, last_hash := row.row_hash.getD "", updated_at := now }) fun _ => .done (.ok ()) :=
        ⟨_, rfl, fun _ => rfl⟩
      rw [hprog] at hs
      simp only [hs] at hstep
      split_ifs at hstep with hundecided hclash
      · simp [clash] at hclash
      · have hu := (Option.some.inj hstep).symm
        have hsession : u.sessions i =
            .running (next (some (audit_row crates now tip.last_hash rec (w.seq .audit_events)))) := by
          rw [hu, sessions_set_session]
        rw [hnext] at hsession
        exact ⟨_, h.insert hcall htodo hlock hfree rfl hu (.inserted _ _ hcall hsession ⟨fun _ => rfl, fun _ => rfl⟩ rfl)⟩
    | inserted row change hcall hs hchange htail =>
      have htodo : (w.sessions i).todo.isSome = true := by rw [hs]; rfl
      rw [hs] at hstep
      have hu := (Option.some.inj hstep).symm
      refine ⟨tail, h.ask htodo hu (.tipping row change _ hcall ?_ (h.targets_tip i) hchange htail)⟩
      rw [hu, sessions_set_session]
    | tipping row change targets hcall hs htarget hchange htail =>
      have htodo : (w.sessions i).todo.isSome = true := by rw [hs]; rfl
      simp only [hs] at hstep
      split_ifs at hstep
      exact ⟨tail, h.write_hash hcall htodo htarget hchange htail (Option.some.inj hstep).symm⟩
    | recorded row committed tip hcall hs hlock hhash htail =>
      have hcommit := hstep
      rw [hs] at hcommit
      exact ⟨none, h.commit_record hcall hs hlock hhash htail (Option.some.inj hcommit).symm⟩
    | picking targets which hcall hs hfree =>
      have htodo : (w.sessions i).todo.isSome = true := by rw [hs]; rfl
      simp only [hs] at hstep
      split_ifs at hstep with hwaits
      exact ⟨tail, h.delete hcall htodo hfree (Bool.eq_false_iff.mpr hwaits) (Option.some.inj hstep).symm⟩
    | pruned hcall hs hfree =>
      have hcommit := hstep
      rw [hs] at hcommit
      exact ⟨tail, h.commit_prune hcall hs hfree hprunes (Option.some.inj hcommit).symm⟩
    | ended result hs hfree =>
      rw [hs] at hstep
      cases hstep

omit [DecidableEq ι] in
private theorem audit_chain_start (crates : Crates) (calls : ι → AuditCall) :
    AuditChain crates calls (World.start migrated fun i => (calls i).tx crates) none where
  tip := ⟨_, rfl, ⟨_, rfl, rfl⟩, fun _ _ hp => by cases hp⟩
  holder := fun s hs i new hp => by
    obtain rfl := List.mem_singleton.mp hs
    cases hp
  shape := fun s hs => by cases hs
  ids := .nil
  rows := fun row hrow => by cases hrow
  seq := Nat.one_pos
  chained := trivial
  ends := fun _ s hs tip htip => by
    obtain rfl := List.mem_singleton.mp hs
    obtain rfl := Option.some.inj htip
    rfl
  next := fun _ _ hk => by cases hk
  phase i := .fresh rfl (fun committed tip hold => by
    obtain ⟨-, hpending⟩ := Slot.mk.inj (List.singleton_inj.mp hold)
    cases hpending) (by simp)

omit [DecidableEq ι] in
/-- The committed rows are the hashed ones, in the order of their ids. -/
private theorem AuditChain.verifies (h : AuditChain crates calls w tail) :
    audit_verify_chain crates (w.committed .audit_events) = none := by
  have hsublist := committed_sublist_stored (w.slots .audit_events)
  have hascends : (w.committed .audit_events).Pairwise fun a b => a.id < b.id := h.ids.sublist hsublist
  have hall : hashed_rows (w.committed .audit_events) = w.committed .audit_events := by
    rw [hashed_rows, hashed_after, List.filter_eq_self.mpr]
    · exact (hascends.imp Nat.le_of_lt).insertionSort_eq
    · intro row hrow
      obtain ⟨hpos, -, hhash⟩ := h.rows row (hsublist.subset hrow)
      simpa [hhash] using hpos
  rw [audit_verify_chain_eq_none_iff _ (List.pairwise_map.mpr (hascends.imp Nat.ne_of_lt))]
  rw [hall]
  exact h.chained

end Chain

/-- Whatever calls record audit rows and prune them at once, the chain
verifies in every state, as long as prunes only commit deletions of its end,
and those only when all recordings are over. -/
theorem audit_chain_verifies (crates : Crates) {calls : ι → AuditCall} {w : World ι Row ApiError Unit}
    (hrun : Interleaving (keeps_the_end calls) (World.start migrated fun i => (calls i).tx crates) w) :
    audit_verify_chain crates (w.committed .audit_events) = none := by
  suffices hchain : ∃ tail, AuditChain crates calls w tail by
    obtain ⟨tail, h⟩ := hchain
    exact h.verifies
  induction hrun with
  | start => exact ⟨none, audit_chain_start crates calls⟩
  | step _ hallowed hstep ih =>
    obtain ⟨tail, h⟩ := ih
    exact h.step hallowed hstep

instance [Fintype ι] (calls : ι → AuditCall) (w : World ι Row ApiError Unit) (i : ι) :
    Decidable (prunes_the_end calls w i) := by
  unfold prunes_the_end
  split <;> infer_instance

theorem next_day_in_range (seconds : Fin 86400) : jiff.min_nanos ≤ 62167305600000000000 + seconds * 1000000000 ∧
    62167305600000000000 + seconds * 1000000000 ≤ jiff.max_nanos := by
  have hlt := seconds.isLt
  simp only [jiff.min_nanos, jiff.max_nanos]
  omega

/-- So many seconds after the start of 1970-01-02. -/
def next_day (seconds : Fin 86400) : jiff.Timestamp where
  nanos := 62167305600000000000 + seconds * 1000000000
  in_range := next_day_in_range seconds

/-- Two recordings and a prune of what is older than a day. -/
def two_events (prune_at : Fin 86400) (i : Fin 3) : AuditCall :=
  match i with
  | 0 => .record_audit "1970-01-01T00:00:00Z" { actor := "user:alice", kind := "operation.submitted" }
  | 1 => .record_audit "1970-01-01T00:01:00Z" { actor := "user:bob", kind := "operation.approved" }
  | 2 => .prune (next_day prune_at) (next_day prune_at) 1

/-- The second recording and the prune pick their rows while the first recording is open. -/
def two_events_schedule : List (Action (Fin 3) ApiError) :=
  .advance 0 :: .advance 1 :: List.replicate 5 (.advance 0) ++ List.replicate 5 (.advance 1) ++ List.replicate 3 (.advance 2)

def two_events_start (prune_at : Fin 86400) : World (Fin 3) Row ApiError Unit :=
  World.start migrated fun i => (two_events prune_at i).tx digest_crates

theorem two_events_verify : ∃ w : World (Fin 3) Row ApiError Unit, (w.committed .audit_events).map AuditEventRow.id = [1, 2] ∧
    audit_verify_chain digest_crates (w.committed .audit_events) = none := by
  have hfollow : ((two_events_start 0).follow
      (fun w a => match a with
        | .advance i => decide (prunes_the_end (two_events 0) w i)
        | .abort _ _ => true) two_events_schedule).any
      (fun w => (w.committed .audit_events).map AuditEventRow.id == [1, 2]) = true := by
    set_option maxRecDepth 2000 in decide
  obtain ⟨w, hrun, hrows⟩ : ∃ w, Interleaving (keeps_the_end (two_events 0)) (two_events_start 0) w ∧
      ((w.committed .audit_events).map AuditEventRow.id == [1, 2]) = true :=
    interleaving_of_follow (fun w a ha i hi => by simpa [hi] using ha) hfollow
  exact ⟨w, eq_of_beq hrows, audit_chain_verifies digest_crates hrun⟩

/-- The prune deletes the first row, and the second one follows nothing. -/
theorem pruned_chain_is_broken :
    ¬ ∀ (crates : Crates) (calls : Fin 3 → AuditCall) (w : World (Fin 3) Row ApiError Unit),
      Interleaving (fun _ _ => True) (World.start migrated fun i => (calls i).tx crates) w →
      audit_verify_chain crates (w.committed .audit_events) = none := by
  intro hall
  have hfollow : ((two_events_start 30).follow any_step two_events_schedule).any
      (fun w => audit_verify_chain digest_crates (w.committed .audit_events) == some 2) = true := by
    set_option maxRecDepth 2000 in decide
  obtain ⟨w, hrun, hbroken⟩ := interleaving_of_follow (fun _ _ _ => trivial) hfollow
  rw [hall digest_crates (two_events 30) w hrun] at hbroken
  cases hbroken

end iac_controlplane.store
