import Iac.Controlplane.Store.Audit.Interleaving
import Iac.Sql.ReadCommitted.Tail

open sql

namespace iac_controlplane.store

variable {ι α β : Type}

/-- A transaction that inserts audit rows only while it holds the tip, changes
none and deletes none. The flag says whether it already holds it. -/
inductive UnderTip : Bool → Tx α → Prop where
  | done (held : Bool) (result : Except ApiError α) : UnderTip held (.done result)
  | select {held : Bool} {next : Rows Row → Tx α} (hnext : ∀ rows, UnderTip held (next rows)) : UnderTip held (.select next)
  | update {held : Bool} {t : Table} (hevents : t ≠ .audit_events) (htip : t ≠ .audit_chain_tip) {which : Row t → Bool}
      {change : Row t → Option (Row t)} {next : List (Row t) → Tx α} (hnext : ∀ out, UnderTip held (next out)) :
      UnderTip held (.update t which change next)
  | insert {held : Bool} {t : Table} (hevents : t ≠ .audit_events) (htip : t ≠ .audit_chain_tip) {values : Nat → Row t}
      {next : Option (Row t) → Tx α} (hnext : ∀ out, UnderTip held (next out)) : UnderTip held (.insert t values next)
  | tip {held : Bool} {change : AuditChainTip → AuditChainTip} (hchange : ∀ tip, (change tip).id = tip.id)
      {next : List AuditChainTip → Tx α} (hnext : ∀ out, UnderTip true (next out)) :
      UnderTip held (.update .audit_chain_tip is_tip (fun tip => some (change tip)) next)
  | record {values : Nat → AuditEventRow} (hvalues : ∀ id, (values id).id = id) {next : Option AuditEventRow → Tx α}
      (hnext : ∀ out, UnderTip true (next out)) : UnderTip true (.insert .audit_events values next)

/-- Recording takes the tip before it inserts its row. -/
theorem record_audit_under_tip (crates : Crates) (now : String) (rec : AuditRecord) (held : Bool) :
    UnderTip held (record_audit_on crates now rec) := by
  refine .tip (fun _ => rfl) fun tips => ?_
  refine .record (fun _ => rfl) fun inserted => ?_
  cases inserted with
  | none => exact .done _ _
  | some row =>
    have hid : ∀ tip : AuditChainTip, ({ tip with
        last_id := row.id, last_hash := row.row_hash.getD "", updated_at := now } : AuditChainTip).id = tip.id :=
      fun _ => rfl
    exact .tip hid fun _ => .done _ _

/-- Who has written the tip and not ended. -/
def tip_holder (w : World ι Row ApiError α) : Option ι :=
  ((w.slots .audit_chain_tip).head?.bind Slot.pending).map Prod.fst

/-- How far a client has come. -/
inductive Progress (w : World ι Row ApiError α) (i : ι) : Prop where
  | running {held : Bool} {p : Tx α} (hs : w.sessions i = .running p) (hp : UnderTip held p)
      (hheld : held = true → tip_holder w = some i)
  | updating {held : Bool} {t : Table} {targets : Nat → Bool} {which : Row t → Bool} {change : Row t → Option (Row t)}
      {next : List (Row t) → Tx α} (hs : w.sessions i = .updating t targets which change next)
      (hevents : t ≠ .audit_events) (htip : t ≠ .audit_chain_tip) (hnext : ∀ out, UnderTip held (next out))
      (hheld : held = true → tip_holder w = some i)
  | tipping {targets : Nat → Bool} {change : AuditChainTip → AuditChainTip} {next : List AuditChainTip → Tx α}
      (hs : w.sessions i = .updating .audit_chain_tip targets is_tip (fun tip => some (change tip)) next)
      (htarget : targets 0 = true) (hchange : ∀ tip, (change tip).id = tip.id) (hnext : ∀ out, UnderTip true (next out))
  | ended {result : Except ApiError α} (hs : w.sessions i = .finished result)

/-- The rows of the audit table are stored in the order of their ids, those of
the holder of the tip after all that are committed. -/
structure InOrder (w : World ι Row ApiError α) : Prop where
  tip : TipRow (w.slots .audit_chain_tip)
  ids : ((w.slots .audit_events).filterMap Slot.stored).Pairwise fun a b => a.id < b.id
  below : ∀ row ∈ (w.slots .audit_events).filterMap Slot.stored, row.id < w.seq .audit_events
  appended : Appended (tip_holder w) (w.slots .audit_events)
  progress : ∀ i, Progress w i

section Steps

variable [DecidableEq ι] {w u : World ι Row ApiError α} {i : ι}

omit [DecidableEq ι] in
/-- A client stays where it is when it keeps its session and what it holds. -/
private theorem Progress.keep {j : ι} (h : Progress w j) (hs : u.sessions j = w.sessions j)
    (hholder : tip_holder w = some j → tip_holder u = some j) : Progress u j := by
  cases h with
  | running hs' hp hheld => exact .running (hs.trans hs') hp fun htrue => hholder (hheld htrue)
  | updating hs' hevents htip hnext hheld =>
    exact .updating (hs.trans hs') hevents htip hnext fun htrue => hholder (hheld htrue)
  | tipping hs' htarget hchange hnext => exact .tipping (hs.trans hs') htarget hchange hnext
  | ended hs' => exact .ended (hs.trans hs')

omit [DecidableEq ι] in
private theorem tip_holder_congr (h : u.slots .audit_chain_tip = w.slots .audit_chain_tip) : tip_holder u = tip_holder w := by
  rw [tip_holder, h, tip_holder]

/-- A step that leaves the tip and the audit table alone. -/
private theorem InOrder.elsewhere (h : InOrder w) (i : ι) (htips : u.slots .audit_chain_tip = w.slots .audit_chain_tip)
    (hevents : u.slots .audit_events = w.slots .audit_events) (hseq : u.seq .audit_events = w.seq .audit_events)
    (hsessions : ∀ j, j ≠ i → u.sessions j = w.sessions j) (hprogress : Progress u i) : InOrder u where
  tip := htips ▸ h.tip
  ids := hevents ▸ h.ids
  below := by
    rw [hevents, hseq]
    exact h.below
  appended := by
    rw [tip_holder_congr htips, hevents]
    exact h.appended
  progress j := by
    by_cases hj : j = i
    · exact hj ▸ hprogress
    · exact (h.progress j).keep (hsessions j hj) fun hheld => (tip_holder_congr htips).trans hheld

private theorem visible_tip {slots : List (Slot ι AuditChainTip)} (h : TipRow slots) (i : ι) :
    ∃ s tip, slots = [s] ∧ s.visible i = some tip ∧ is_tip tip = true := by
  obtain ⟨s, hs, ⟨tip, hcommitted, htip⟩, hpending⟩ := h
  cases hp : s.pending with
  | none => exact ⟨s, tip, hs, by simp [Slot.visible, hp, hcommitted], htip⟩
  | some p =>
    obtain ⟨k, new⟩ := p
    obtain ⟨tip', rfl, htip'⟩ := hpending k new hp
    by_cases hk : k = i
    · exact ⟨s, tip', hs, by simp [Slot.visible, hp, hk], htip'⟩
    · exact ⟨s, tip, hs, by simp [Slot.visible, hp, hk, hcommitted], htip⟩

/-- The lock of the tip is taken, or kept. -/
private theorem InOrder.write_tip (h : InOrder w) {targets : Nat → Bool} {change : AuditChainTip → AuditChainTip}
    {session : Session Row ApiError α} (htarget : targets 0 = true) (hchange : ∀ tip, (change tip).id = tip.id)
    (hfree : ∀ n s, (w.slots .audit_chain_tip)[n]? = some s → targets n = true → s.locked i = false)
    (hu : u = (w.set_slots .audit_chain_tip (rewrite_slots i targets is_tip (fun tip => some (change tip))
      (w.slots .audit_chain_tip))).set_session i session)
    (hprogress : tip_holder u = some i → Progress u i) : InOrder u := by
  obtain ⟨s, tip, hs, hvisible, htip⟩ := visible_tip h.tip i
  have hunlocked : s.locked i = false := hfree 0 s (by rw [hs]; rfl) htarget
  have htips : u.slots .audit_chain_tip = [{ s with pending := some (i, some (change tip)) }] := by
    rw [hu, slots_set_session, slots_set_slots, hs]
    simp [rewrite_slots, htarget, Slot.rewrite, hvisible, htip]
  have hevents : u.slots .audit_events = w.slots .audit_events := by
    rw [hu, slots_set_session, slots_set_slots_of_ne _ (by decide)]
  have hholder : tip_holder u = some i := by
    simp [tip_holder, htips]
  have hbefore : tip_holder w = none ∨ tip_holder w = some i := by
    cases hp : s.pending with
    | none => exact .inl (by simp [tip_holder, hs, hp])
    | some p =>
      have hp1 : p.1 = i := by simpa [Slot.locked, hp] using hunlocked
      exact .inr (by simp [tip_holder, hs, hp, hp1])
  refine ⟨?_, hevents ▸ h.ids, ?_, ?_, fun j => ?_⟩
  · obtain ⟨s', hs', hcommitted, -⟩ := h.tip
    obtain rfl : s' = s := List.singleton_inj.mp (hs'.symm.trans hs)
    refine ⟨_, htips, hcommitted, fun k new hk => ?_⟩
    obtain ⟨rfl, rfl⟩ := Prod.mk.inj (Option.some.inj hk)
    refine ⟨change tip, rfl, ?_⟩
    rw [is_tip, hchange]
    exact htip
  · rw [hevents, show u.seq = w.seq by rw [hu]; rfl]
    exact h.below
  · rw [hholder, hevents]
    have happended := h.appended
    cases hbefore with
    | inl hnone => exact (hnone ▸ happended).lock
    | inr hmine => exact hmine ▸ happended
  · by_cases hj : j = i
    · exact hj ▸ hprogress hholder
    · refine (h.progress j).keep ?_ fun hheld => ?_
      · rw [hu]
        exact Function.update_of_ne hj _ _
      · rw [hheld] at hbefore
        cases hbefore with
        | inl hnone => cases hnone
        | inr hmine => exact absurd (Option.some.inj hmine) hj

/-- A row recorded under the lock of the tip. -/
private theorem InOrder.record (h : InOrder w) (hheld : tip_holder w = some i) {row : AuditEventRow}
    (hrow : row.id = w.seq .audit_events) {session : Session Row ApiError α}
    (hu : u = ((w.next_id .audit_events).set_slots .audit_events
      (w.slots .audit_events ++ [⟨none, some (i, some row)⟩])).set_session i session)
    (hprogress : tip_holder u = some i → Progress u i) : InOrder u := by
  have htips : u.slots .audit_chain_tip = w.slots .audit_chain_tip := by
    have hne : Table.audit_chain_tip ≠ .audit_events := by decide
    rw [hu, slots_set_session, slots_set_slots_of_ne _ hne, slots_next_id]
  have hevents : u.slots .audit_events = w.slots .audit_events ++ [⟨none, some (i, some row)⟩] := by
    rw [hu, slots_set_session, slots_set_slots]
  have hstored : (u.slots .audit_events).filterMap Slot.stored = (w.slots .audit_events).filterMap Slot.stored ++ [row] := by
    simp [hevents, Slot.stored]
  have hseq : u.seq .audit_events = w.seq .audit_events + 1 := by
    simp [hu, World.set_session, World.set_slots, World.next_id]
  have hholder : tip_holder u = some i := (tip_holder_congr htips).trans hheld
  refine ⟨htips ▸ h.tip, ?_, ?_, ?_, fun j => ?_⟩
  · rw [hstored]
    refine List.pairwise_append.mpr ⟨h.ids, List.pairwise_singleton _ _, fun a ha b hb => ?_⟩
    rw [List.mem_singleton.mp hb, hrow]
    exact h.below a ha
  · rw [hstored, hseq]
    intro a ha
    cases List.mem_append.mp ha with
    | inl hold => exact Nat.lt_succ_of_lt (h.below a hold)
    | inr hnew =>
      rw [List.mem_singleton.mp hnew, hrow]
      exact Nat.lt_succ_self _
  · rw [hholder, hevents]
    exact (hheld ▸ h.appended).add row
  · by_cases hj : j = i
    · exact hj ▸ hprogress hholder
    · refine (h.progress j).keep ?_ fun hmine => (tip_holder_congr htips).trans hmine
      rw [hu]
      exact Function.update_of_ne hj _ _

omit [DecidableEq ι] in
private theorem tip_row_finish {slots : List (Slot ι AuditChainTip)} (h : TipRow slots)
    {settle : Slot ι AuditChainTip → Slot ι AuditChainTip}
    (hsettle : ∀ s, settle s = s ∨ ∃ new, s.pending = some (i, new) ∧ (settle s = ⟨new, none⟩ ∨ settle s = ⟨s.committed, none⟩)) :
    TipRow (slots.map settle) := by
  obtain ⟨s, rfl, ⟨tip, htip, his_tip⟩, hpending⟩ := h
  refine ⟨settle s, rfl, ?_⟩
  cases hsettle s with
  | inl hsame =>
    rw [hsame]
    exact ⟨⟨tip, htip, his_tip⟩, hpending⟩
  | inr hended =>
    obtain ⟨new, hnew, hcommit | hrollback⟩ := hended
    · obtain ⟨tip', rfl, htip'⟩ := hpending i new hnew
      rw [hcommit]
      exact ⟨⟨tip', rfl, htip'⟩, fun _ _ hp => by cases hp⟩
    · rw [hrollback]
      exact ⟨⟨tip, htip, his_tip⟩, fun _ _ hp => by cases hp⟩

/-- The end of a transaction, `settle` being what it does to the slots. -/
private theorem InOrder.finish (h : InOrder w) (settle : (R : Type) → Slot ι R → Slot ι R)
    (hsettle : ∀ (R : Type) (s : Slot ι R), settle R s = s ∨
      ∃ new, s.pending = some (i, new) ∧ (settle R s = ⟨new, none⟩ ∨ settle R s = ⟨s.committed, none⟩))
    (hslots : ∀ t, u.slots t = (w.slots t).map (settle (Row t))) (hseq : u.seq = w.seq)
    (hsessions : ∀ j, j ≠ i → u.sessions j = w.sessions j) (hended : ∃ result, u.sessions i = .finished result)
    (hstored : ((u.slots .audit_events).filterMap Slot.stored).Sublist ((w.slots .audit_events).filterMap Slot.stored))
    (hmine : tip_holder w = some i → ∀ s ∈ u.slots .audit_events, s.pending = none)
    (hother : tip_holder w ≠ some i → u.slots .audit_events = w.slots .audit_events) : InOrder u := by
  obtain ⟨s, htips, -, -⟩ := h.tip
  have htips' : u.slots .audit_chain_tip = [settle _ s] := by
    rw [hslots, htips]
    rfl
  have hkeep : ∀ j ≠ i, tip_holder w = some j → tip_holder u = some j := by
    intro j hj hheld
    simp only [tip_holder, htips, htips', List.head?_cons, Option.bind_some] at hheld ⊢
    cases hsettle _ s with
    | inl hsame => rw [hsame, hheld]
    | inr hpending =>
      obtain ⟨new, hnew, -⟩ := hpending
      rw [hnew] at hheld
      exact absurd (Option.some.inj hheld).symm hj
  refine ⟨?_, h.ids.sublist hstored, fun row hrow => ?_, ?_, fun j => ?_⟩
  · rw [hslots]
    exact tip_row_finish h.tip (hsettle _)
  · rw [hseq]
    exact h.below row (hstored.subset hrow)
  · by_cases hheld : tip_holder w = some i
    · exact .of_closed (hmine hheld)
    · rw [hother hheld]
      cases hholder : tip_holder w with
      | none => exact (hholder ▸ h.appended).lock
      | some j =>
        have hj : j ≠ i := fun heq => hheld (heq ▸ hholder)
        rw [hkeep j hj hholder, ← hholder]
        exact h.appended
  · by_cases hj : j = i
    · obtain ⟨result, hresult⟩ := hended
      exact hj ▸ .ended hresult
    · exact (h.progress j).keep (hsessions j hj) (hkeep j hj)

/-- The rows that open transactions have inserted. -/
def uncommitted_rows (w : World ι Row ApiError α) : List AuditEventRow :=
  ((w.slots .audit_events).filter fun s => s.committed.isNone).filterMap Slot.stored

/-- No row with a smaller id will be committed any more. -/
def frontier (w : World ι Row ApiError α) : Nat :=
  ((uncommitted_rows w).map AuditEventRow.id).foldr min (w.seq .audit_events)

private theorem le_foldr_min {n bound : Nat} {ids : List Nat} : n ≤ ids.foldr min bound ↔ n ≤ bound ∧ ∀ id ∈ ids, n ≤ id := by
  induction ids with
  | nil => simp
  | cons id ids ih =>
    rw [List.foldr_cons, Nat.le_min, ih, List.forall_mem_cons]
    tauto

omit [DecidableEq ι] in
theorem le_frontier_iff {n : Nat} :
    n ≤ frontier w ↔ n ≤ w.seq .audit_events ∧ ∀ row ∈ uncommitted_rows w, n ≤ row.id := by
  rw [frontier, le_foldr_min]
  simp

omit [DecidableEq ι] in
/-- What is inserted and not committed follows what is committed. -/
theorem InOrder.committed_lt_frontier (h : InOrder w) {row : AuditEventRow} (hrow : row ∈ w.committed .audit_events) :
    row.id < frontier w := by
  have hstored := committed_sublist_stored (w.slots .audit_events)
  rw [← Nat.succ_le_iff, le_frontier_iff]
  refine ⟨h.below row (hstored.subset hrow), fun later hlater => ?_⟩
  obtain ⟨front, back, hslots, hfront, hback⟩ := h.appended
  have hids := h.ids
  rw [hslots, List.filterMap_append, List.pairwise_append] at hids
  refine hids.2.2 row ?_ later ?_
  · obtain ⟨s, hs, hcommitted⟩ := List.mem_filterMap.mp hrow
    rw [hslots] at hs
    cases List.mem_append.mp hs with
    | inl hmem => exact List.mem_filterMap.mpr ⟨s, hmem, by simp [Slot.stored, hcommitted]⟩
    | inr hmem =>
      obtain rfl | ⟨j, row', -, rfl⟩ := hback s hmem <;> cases hcommitted
  · obtain ⟨s, hs, hlater⟩ := List.mem_filterMap.mp hlater
    obtain ⟨hs, hnone⟩ := List.mem_filter.mp hs
    rw [hslots] at hs
    cases List.mem_append.mp hs with
    | inl hmem =>
      have hcommitted := Option.isNone_iff_eq_none.mp hnone
      simp [Slot.stored, hcommitted, hfront s hmem] at hlater
    | inr hmem => exact List.mem_filterMap.mpr ⟨s, hmem, hlater⟩

/-- What a step adds to the audit rows. -/
structure Extends (w u : World ι Row ApiError α) : Prop where
  seq : w.seq .audit_events ≤ u.seq .audit_events
  uncommitted : ∀ row ∈ uncommitted_rows u, row ∈ uncommitted_rows w ∨ w.seq .audit_events ≤ row.id
  committed : ∃ inserted, u.committed .audit_events = w.committed .audit_events ++ inserted ∧
    ∀ row ∈ inserted, row ∈ uncommitted_rows w

omit [DecidableEq ι] in
theorem Extends.frontier_le (h : Extends w u) : frontier w ≤ frontier u := by
  obtain ⟨hseq, hrows⟩ := le_frontier_iff.mp (Nat.le_refl (frontier w))
  refine le_frontier_iff.mpr ⟨Nat.le_trans hseq h.seq, fun row hrow => ?_⟩
  cases h.uncommitted row hrow with
  | inl hold => exact hrows row hold
  | inr hnew => exact Nat.le_trans hseq hnew

omit [DecidableEq ι] in
private theorem extends_of_same (hevents : u.slots .audit_events = w.slots .audit_events)
    (hseq : w.seq .audit_events ≤ u.seq .audit_events) : Extends w u where
  seq := hseq
  uncommitted row hrow := by
    rw [uncommitted_rows, hevents] at hrow
    exact .inl hrow
  committed := ⟨[], by rw [World.committed, hevents, List.append_nil]; rfl, by simp⟩

omit [DecidableEq ι] in
private theorem uncommitted_of_closed (hclosed : ∀ s ∈ u.slots .audit_events, s.pending = none) : uncommitted_rows u = [] := by
  unfold uncommitted_rows
  rw [List.filterMap_eq_nil_iff]
  intro s hs
  obtain ⟨hs, hnone⟩ := List.mem_filter.mp hs
  simp [Slot.stored, Option.isNone_iff_eq_none.mp hnone, hclosed s hs]

private theorem InOrder.commit (h : InOrder w) {a : α} (hu : u = w.finish i (.ok a)) : InOrder u ∧ Extends w u := by
  have hevents : u.slots .audit_events = (w.slots .audit_events).map (Slot.commit i) := by rw [hu]; rfl
  have hseq : w.seq .audit_events ≤ u.seq .audit_events := by rw [hu]; exact Nat.le_refl _
  have finish := h.finish (u := u) (fun _ => Slot.commit i) (fun _ => settle_commit i) (fun t => by rw [hu]; rfl) (by rw [hu]; rfl)
    (sessions_of_set hu rfl) ⟨.ok a, by rw [hu]; exact Function.update_self _ _ _⟩
  by_cases hheld : tip_holder w = some i
  · obtain ⟨hclosed, hstored, inserted, hinserted, hrows⟩ := (hheld ▸ h.appended).commit
    rw [← hevents] at hclosed hinserted
    refine ⟨finish (by rw [hevents, hstored]) (fun _ => hclosed) (absurd hheld), hseq, ?_, inserted, hinserted, hrows⟩
    rw [uncommitted_of_closed hclosed]
    simp
  · have hsame := hevents.trans (h.appended.finish_of_ne hheld).1
    exact ⟨finish (by rw [hsame]) (absurd · hheld) fun _ => hsame, extends_of_same hsame hseq⟩

private theorem InOrder.stop (h : InOrder w) {e : ApiError} (hu : u = w.finish i (.error e)) : InOrder u ∧ Extends w u := by
  have hevents : u.slots .audit_events = (w.slots .audit_events).map (Slot.rollback i) := by rw [hu]; rfl
  have hseq : w.seq .audit_events ≤ u.seq .audit_events := by rw [hu]; exact Nat.le_refl _
  have finish := h.finish (u := u) (fun _ => Slot.rollback i) (fun _ => settle_rollback i) (fun t => by rw [hu]; rfl) (by rw [hu]; rfl)
    (sessions_of_set hu rfl) ⟨.error e, by rw [hu]; exact Function.update_self _ _ _⟩
  by_cases hheld : tip_holder w = some i
  · obtain ⟨hclosed, hstored⟩ := (hheld ▸ h.appended).rollback
    rw [← hevents] at hclosed
    refine ⟨finish (hevents ▸ hstored) (fun _ => hclosed) (absurd hheld), hseq, ?_, [], ?_, by simp⟩
    · rw [uncommitted_of_closed hclosed]
      simp
    · rw [World.committed, hevents, List.filterMap_map, List.append_nil]
      exact List.filterMap_congr fun s _ => committed_rollback
  · have hsame := hevents.trans (h.appended.finish_of_ne hheld).2
    exact ⟨finish (by rw [hsame]) (absurd · hheld) fun _ => hsame, extends_of_same hsame hseq⟩

omit [DecidableEq ι] in
/-- What a running client is about to execute. -/
private theorem Progress.of_running (h : Progress w i) {p : Tx α} (hs : w.sessions i = .running p) :
    ∃ held, UnderTip held p ∧ (held = true → tip_holder w = some i) := by
  cases h with
  | running hs' hp hheld =>
    obtain rfl := Session.running.inj (hs'.symm.trans hs)
    exact ⟨_, hp, hheld⟩
  | updating hs' | tipping hs' | ended hs' => cases hs'.symm.trans hs

private theorem InOrder.read (h : InOrder w) {next : Rows Row → Tx α} (hs : w.sessions i = .running (.select next))
    (hu : u = w.set_session i (.running (next (w.view i)))) : InOrder u := by
  have hslots : u.slots = w.slots := by rw [hu]; rfl
  refine h.elsewhere i (by rw [hslots]) (by rw [hslots]) (by rw [hu]; rfl) (sessions_of_set hu rfl) ?_
  · obtain ⟨held, hp, hheld⟩ := (h.progress i).of_running hs
    cases hp with
    | select hnext =>
      refine .running (by rw [hu, sessions_set_session]) (hnext _) fun htrue => ?_
      exact (tip_holder_congr (congrFun hslots _)).trans (hheld htrue)

private theorem InOrder.pick (h : InOrder w) {t : Table} {which : Row t → Bool} {change : Row t → Option (Row t)}
    {next : List (Row t) → Tx α} (hs : w.sessions i = .running (.update t which change next))
    (hu : u = w.set_session i (.updating t (w.targets i t which) which change next)) : InOrder u := by
  have hslots : u.slots = w.slots := by rw [hu]; rfl
  have hsession : u.sessions i = .updating t (w.targets i t which) which change next := by rw [hu, sessions_set_session]
  refine h.elsewhere i (by rw [hslots]) (by rw [hslots]) (by rw [hu]; rfl) (sessions_of_set hu rfl) ?_
  · obtain ⟨held, hp, hheld⟩ := (h.progress i).of_running hs
    cases hp with
    | update hevents htip hnext =>
      refine .updating hsession hevents htip hnext fun htrue => ?_
      exact (tip_holder_congr (congrFun hslots _)).trans (hheld htrue)
    | tip hchange hnext =>
      refine .tipping hsession ?_ hchange hnext
      obtain ⟨s, tip, htips, hvisible, his_tip⟩ := visible_tip h.tip i
      simp [World.targets, htips, hvisible, his_tip]

private theorem InOrder.write (h : InOrder w) {t : Table} {targets : Nat → Bool} {which : Row t → Bool}
    {change : Row t → Option (Row t)} {next : List (Row t) → Tx α}
    (hs : w.sessions i = .updating t targets which change next)
    (hfree : ∀ n s, (w.slots t)[n]? = some s → targets n = true → s.locked i = false)
    (hu : u = (w.set_slots t (rewrite_slots i targets which change (w.slots t))).set_session i
      (.running (next (rewritten i targets which change (w.slots t))))) : InOrder u := by
  have hsession : u.sessions i = .running (next (rewritten i targets which change (w.slots t))) := by
    rw [hu, sessions_set_session]
  cases h.progress i with
  | running hs' | ended hs' => cases hs'.symm.trans hs
  | updating hs' hevents htip hnext hheld =>
    cases hs'.symm.trans hs
    have htips : u.slots .audit_chain_tip = w.slots .audit_chain_tip := by
      rw [hu, slots_set_session, slots_set_slots_of_ne _ htip.symm]
    refine h.elsewhere i htips ?_ (by rw [hu]; rfl) (sessions_of_set hu rfl) ?_
    · rw [hu, slots_set_session, slots_set_slots_of_ne _ hevents.symm]
    · refine .running hsession (hnext _) fun htrue => ?_
      rw [tip_holder_congr htips, hheld htrue]
  | tipping hs' htarget hchange hnext =>
    cases hs'.symm.trans hs
    exact h.write_tip htarget hchange hfree hu fun hmine => .running hsession (hnext _) fun _ => hmine

private theorem InOrder.violate (h : InOrder w) {t : Table} {values : Nat → Row t} {next : Option (Row t) → Tx α}
    (hs : w.sessions i = .running (.insert t values next)) (hclash : (w.view i t).any (Schema.clash t (values (w.seq t))) = true)
    (hu : u = (w.next_id t).set_session i (.running (next none))) : InOrder u := by
  have hslots : u.slots = w.slots := by rw [hu]; rfl
  obtain ⟨held, hp, hheld⟩ := (h.progress i).of_running hs
  cases hp with
  | insert hevents htip hnext =>
    refine h.elsewhere i (by rw [hslots]) (by rw [hslots]) ?_ (sessions_of_set hu rfl) ?_
    · rw [hu]
      exact Function.update_of_ne hevents.symm _ _
    · refine .running (by rw [hu, sessions_set_session]) (hnext _) fun htrue => ?_
      exact (tip_holder_congr (congrFun hslots _)).trans (hheld htrue)
  | record hvalues hnext => simp [clash] at hclash

private theorem InOrder.insert (h : InOrder w) {t : Table} {values : Nat → Row t} {next : Option (Row t) → Tx α}
    (hs : w.sessions i = .running (.insert t values next))
    (hu : u = ((w.next_id t).set_slots t (w.slots t ++ [⟨none, some (i, some (values (w.seq t)))⟩])).set_session i
      (.running (next (some (values (w.seq t)))))) : InOrder u := by
  have hsession : u.sessions i = .running (next (some (values (w.seq t)))) := by rw [hu, sessions_set_session]
  obtain ⟨held, hp, hheld⟩ := (h.progress i).of_running hs
  cases hp with
  | insert hevents htip hnext =>
    have htips : u.slots .audit_chain_tip = w.slots .audit_chain_tip := by
      rw [hu, slots_set_session, slots_set_slots_of_ne _ htip.symm, slots_next_id]
    refine h.elsewhere i htips ?_ ?_ (sessions_of_set hu rfl) ?_
    · rw [hu, slots_set_session, slots_set_slots_of_ne _ hevents.symm, slots_next_id]
    · rw [hu]
      exact Function.update_of_ne hevents.symm _ _
    · refine .running hsession (hnext _) fun htrue => ?_
      rw [tip_holder_congr htips, hheld htrue]
  | record hvalues hnext => exact h.record (hheld rfl) (hvalues _) hu fun hmine => .running hsession (hnext _) fun _ => hmine

omit [DecidableEq ι] in
/-- Nobody updates the audit rows. -/
private theorem InOrder.not_events_of_updating (h : InOrder w) {t : Table} {targets : Nat → Bool} {which : Row t → Bool}
    {change : Row t → Option (Row t)} {next : List (Row t) → Tx α}
    (hs : w.sessions i = .updating t targets which change next) : t ≠ .audit_events := by
  cases h.progress i with
  | running hs' | ended hs' => cases hs'.symm.trans hs
  | updating hs' hevents =>
    cases hs'.symm.trans hs
    exact hevents
  | tipping hs' =>
    cases hs'.symm.trans hs
    decide

private theorem extends_of_insert {row : AuditEventRow} (hid : row.id = w.seq .audit_events) {session : Session Row ApiError α}
    (hu : u = ((w.next_id .audit_events).set_slots .audit_events
      (w.slots .audit_events ++ [⟨none, some (i, some row)⟩])).set_session i session) : Extends w u := by
  have hevents : u.slots .audit_events = w.slots .audit_events ++ [⟨none, some (i, some row)⟩] := by
    rw [hu, slots_set_session, slots_set_slots]
  refine ⟨?_, fun row' hrow' => ?_, [], by simp [World.committed, hevents], by simp⟩
  · have hseq : u.seq .audit_events = w.seq .audit_events + 1 := by
      simp [hu, World.set_session, World.set_slots, World.next_id]
    omega
  · have hrows : uncommitted_rows u = uncommitted_rows w ++ [row] := by
      simp [uncommitted_rows, hevents, Slot.stored]
    rw [hrows] at hrow'
    cases List.mem_append.mp hrow' with
    | inl hold => exact .inl hold
    | inr hnew => exact .inr (by rw [List.mem_singleton.mp hnew, hid])

/-- A step of a client keeps the order, and what it adds to the committed rows
follows those that were. -/
theorem InOrder.step (h : InOrder w) {a : Action ι ApiError} (hstep : w.step a = some u) : InOrder u ∧ Extends w u := by
  have hmoved := moved_of_step hstep
  generalize a.client = i at hmoved
  cases hmoved with
  | commit a hs hu => exact h.commit hu
  | stop e hs hu => exact h.stop hu
  | read next hs hu => exact ⟨h.read hs hu, extends_of_same (by rw [hu]; rfl) (by rw [hu]; exact Nat.le_refl _)⟩
  | pick t which change next hs hu => exact ⟨h.pick hs hu, extends_of_same (by rw [hu]; rfl) (by rw [hu]; exact Nat.le_refl _)⟩
  | write t targets which change next hs hfree hu =>
    refine ⟨h.write hs hfree hu, extends_of_same ?_ (by rw [hu]; exact Nat.le_refl _)⟩
    rw [hu, slots_set_session, slots_set_slots_of_ne _ (h.not_events_of_updating hs).symm]
  | violate t values next hs hclash hu =>
    refine ⟨h.violate hs hclash hu, extends_of_same (by rw [hu]; rfl) ?_⟩
    rw [hu]
    change w.seq .audit_events ≤ Function.update w.seq t (w.seq t + 1) .audit_events
    by_cases ht : Table.audit_events = t
    · subst ht
      rw [Function.update_self]
      exact Nat.le_succ _
    · rw [Function.update_of_ne ht]
  | add t values next hs hclash hu =>
    refine ⟨h.insert hs hu, ?_⟩
    obtain ⟨held, hp, -⟩ := (h.progress i).of_running hs
    cases hp with
    | insert hevents htip hnext =>
      refine extends_of_same ?_ ?_
      · rw [hu, slots_set_session, slots_set_slots_of_ne _ hevents.symm, slots_next_id]
      · rw [hu]
        exact Nat.le_of_eq (Function.update_of_ne hevents.symm _ _).symm
    | record hvalues hnext => exact extends_of_insert (hvalues _) hu

omit [DecidableEq ι] in
theorem InOrder.committed_ids (h : InOrder w) : (w.committed .audit_events).Pairwise fun a b => a.id < b.id :=
  h.ids.sublist (committed_sublist_stored _)

/-- The committed rows grow by rows that come after all that were, and no earlier one is still to come. -/
theorem InOrder.grows (h : InOrder w) {a : Action ι ApiError} (hstep : w.step a = some u) : InOrder u ∧
    ∃ inserted, u.committed .audit_events = w.committed .audit_events ++ inserted ∧
      (inserted.Pairwise fun a b => a.id < b.id) ∧ (∀ row ∈ inserted, frontier w ≤ row.id ∧ row.id < frontier u) ∧
      frontier w ≤ frontier u := by
  obtain ⟨horder, hextends⟩ := h.step hstep
  obtain ⟨inserted, hcommitted, hinserted⟩ := hextends.committed
  refine ⟨horder, inserted, hcommitted, ?_, fun row hrow => ⟨?_, ?_⟩, hextends.frontier_le⟩
  · have hids := horder.committed_ids
    rw [hcommitted, List.pairwise_append] at hids
    exact hids.2.1
  · exact (le_frontier_iff.mp (Nat.le_refl (frontier w))).2 row (hinserted row hrow)
  · exact horder.committed_lt_frontier (hcommitted ▸ List.mem_append_right _ hrow)

end Steps

/-- The clients at the start, over a store whose audit rows are in order. -/
theorem in_order_start {db : Store} {progs : ι → Tx α} (hprogs : ∀ i, UnderTip false (progs i))
    (htip : ∃ tip, db.rows .audit_chain_tip = [tip] ∧ is_tip tip = true)
    (hids : (db.rows .audit_events).Pairwise fun a b => a.id < b.id)
    (hbelow : ∀ row ∈ db.rows .audit_events, row.id < db.seq .audit_events) : InOrder (World.start db progs) := by
  have hstored : ((World.start db progs).slots .audit_events).filterMap Slot.stored = db.rows .audit_events := by
    simp [World.start, List.filterMap_map, Function.comp_def, Slot.stored]
  refine ⟨?_, hstored ▸ hids, ?_, .of_closed ?_, fun i => .running rfl (hprogs i) (by simp)⟩
  · obtain ⟨tip, hrows, his_tip⟩ := htip
    exact ⟨⟨some tip, none⟩, by simp [World.start, hrows], ⟨tip, rfl, his_tip⟩, fun _ _ hp => by cases hp⟩
  · rw [hstored]
    exact hbelow
  · simp [World.start]

/-- At the start nothing is inserted that is not committed. -/
theorem frontier_start {db : Store} {progs : ι → Tx α} : frontier (World.start db progs) = db.seq .audit_events := by
  have hnone : uncommitted_rows (World.start db progs) = [] := by
    unfold uncommitted_rows
    rw [List.filterMap_eq_nil_iff]
    intro s hs
    obtain ⟨hs, hcommitted⟩ := List.mem_filter.mp hs
    obtain ⟨row, -, rfl⟩ := List.mem_map.mp hs
    cases hcommitted
  rw [frontier, hnone]
  rfl

end iac_controlplane.store
