import Iac.Sql.ReadCommitted.Slots

namespace sql

variable {T ι : Type} {Row : T → Type} {ε α β : Type} {t₀ : T} {guard : Row t₀ → Bool}

/-- The program cannot end ok before an UPDATE or a DELETE of rows that `guard`
holds of has answered with one of them. What it does besides is free. -/
def Prog.consumes (t₀ : T) (guard : Row t₀ → Bool) : Prog Row ε α → Prop
  | .done (.ok _) => False
  | .done (.error _) => True
  | .select next => ∀ rows, (next rows).consumes t₀ guard
  | .update t which _ next =>
    ∀ out, (∀ h : t = t₀, (∀ row, which row = true → guard (h ▸ row) = true) → out = []) → (next out).consumes t₀ guard
  | .insert _ _ next => ∀ out, (next out).consumes t₀ guard

/-- No write leaves a row that `guard` holds of. -/
def unguarding (t₀ : T) (guard : Row t₀ → Bool) : Rights Row where
  select := True
  update t _ new := ∀ h : t = t₀, ∀ row, new = some row → guard (h ▸ row) = false
  insert t row := ∀ h : t = t₀, guard (h ▸ row) = false

theorem unguarding_closed (t₀ : T) (guard : Row t₀ → Bool) : (unguarding t₀ guard).Closed where
  update _ _ _ _ _ hlater := hlater
  insert _ _ _ _ hupdate := fun h => hupdate h _ rfl

section Programs

variable {p : Prog Row ε α} {k : α → Prog Row ε β}

theorem consumes_throw (e : ε) : (Prog.throw e : Prog Row ε α).consumes t₀ guard := trivial

/-- What comes before does not matter. -/
theorem consumes_bind (hk : ∀ a, (k a).consumes t₀ guard) : (p >>= k).consumes t₀ guard := by
  change (p.bind k).consumes t₀ guard
  induction p with
  | done result =>
    cases result with
    | ok a => exact hk a
    | error e => trivial
  | select next ih => exact fun rows => ih rows
  | update t which change next ih => exact fun out _ => ih out
  | insert t values next ih => exact fun out => ih out

/-- What comes after does not matter either. -/
theorem consumes_then (hp : p.consumes t₀ guard) : (p >>= k).consumes t₀ guard := by
  change (p.bind k).consumes t₀ guard
  induction p with
  | done result =>
    cases result with
    | ok a => exact absurd hp id
    | error e => trivial
  | select next ih => exact fun rows => ih rows (hp rows)
  | update t which change next ih => exact fun out hnone => ih out (hp out hnone)
  | insert t values next ih => exact fun out => ih out (hp out)

/-- The DELETE whose count the program checks. -/
theorem consumes_delete_where {which : Row t₀ → Bool} {k : List (Row t₀) → Prog Row ε β}
    (hguard : ∀ row, which row = true → guard row = true) (hnone : (k []).consumes t₀ guard) :
    (Prog.delete_where t₀ which >>= k).consumes t₀ guard := by
  intro out hout
  obtain rfl := hout rfl hguard
  exact hnone

theorem unguarding_delete_where (t : T) (which : Row t → Bool) :
    (Prog.delete_where t which : Prog Row ε _).within (unguarding t₀ guard) :=
  within_delete_where fun _ _ _ _ hnone => by cases hnone

theorem unguarding_update_where {t : T} (h : t ≠ t₀) (which : Row t → Bool) (change : Row t → Row t) :
    (Prog.update_where t which change : Prog Row ε _).within (unguarding t₀ guard) :=
  within_update_where fun _ _ heq => absurd heq h

theorem unguarding_insert_into {t : T} (h : t ≠ t₀) (violation : ε) (values : Nat → Row t) :
    (Prog.insert_into violation t values : Prog Row ε _).within (unguarding t₀ guard) :=
  within_insert_into fun _ heq => absurd heq h

end Programs

variable [DecidableEq ι]

/-- Client `i` has written a row that `guard` holds of in the committed database. -/
def World.consuming (w : World ι Row ε α) (t₀ : T) (guard : Row t₀ → Bool) (i : ι) : Prop :=
  ∃ (n : Nat) (s : Slot ι (Row t₀)), (w.slots t₀)[n]? = some s ∧ s.owned i = true ∧ s.committed.any guard = true

/-- What holds while clients consume the one guarded row. -/
structure ConsumeInvariant (t₀ : T) (guard : Row t₀ → Bool) (gate : ι → Prop) (w : World ι Row ε α) : Prop where
  rights : ∀ i p, (w.sessions i).todo = some p → p.within (unguarding t₀ guard)
  pending : ∀ t, ∀ s ∈ w.slots t, s.within t fun _ => unguarding t₀ guard
  one : ∀ (n m : Nat) (s s' : Slot ι (Row t₀)), (w.slots t₀)[n]? = some s → (w.slots t₀)[m]? = some s' →
    s.committed.any guard = true → s'.committed.any guard = true → n = m
  before : ∀ i p, gate i → (w.sessions i).todo = some p → p.consumes t₀ guard ∨ w.consuming t₀ guard i
  after : ∀ i, gate i → w.succeeded i → ∀ s ∈ w.slots t₀, s.committed.any guard = false

section Invariant

variable {gate : ι → Prop} {w u : World ι Row ε α} {i j : ι}

omit [DecidableEq ι] in
private theorem pending_unguarded {s : Slot ι (Row t₀)} {new : Option (Row t₀)}
    (hs : s.within t₀ fun _ => unguarding t₀ guard) (hpending : s.pending = some (i, new)) : new.any guard = false := by
  cases new with
  | none => rfl
  | some row =>
    obtain ⟨hupdate, hinsert⟩ := hs i (some row) hpending
    cases hcommitted : s.committed with
    | none => exact hinsert hcommitted row rfl rfl
    | some old => exact hupdate old hcommitted rfl row rfl

variable [DecidableEq T] [Schema Row]

/-- A guarded row was one before the step. -/
private theorem guarded_before (hpending : ∀ s ∈ w.slots t₀, s.within t₀ fun _ => unguarding t₀ guard)
    (hmove : w.Moved j u) {n : Nat} {s : Slot ι (Row t₀)} (hs : (u.slots t₀)[n]? = some s)
    (hguard : s.committed.any guard = true) : ∃ r, (w.slots t₀)[n]? = some r ∧ r.committed.any guard = true := by
  cases slot_step_of_moved hmove hs with
  | same s hbefore => exact ⟨s, hbefore, hguard⟩
  | commit before new hbefore hnew hdone =>
    rw [pending_unguarded (hpending before (List.mem_of_getElem? hbefore)) hnew] at hguard
    cases hguard
  | rollback before hbefore howned => exact ⟨before, hbefore, hguard⟩
  | write before hbefore targets which change next hsession htarget hfree row hvisible hwhich =>
    exact ⟨before, hbefore, hguard⟩
  | add values next hsession id hn => cases hguard

omit [DecidableEq T] [Schema Row] in
private theorem owned_rewrite_self {t : T} {which : Row t → Bool} {change : Row t → Option (Row t)} {s : Slot ι (Row t)}
    (howned : s.owned i = true) : (s.rewrite i which change).owned i = true := by
  cases hrow : s.visible i with
  | none => simpa [Slot.rewrite, hrow] using howned
  | some row =>
    cases hwhich : which row with
    | false => simpa [Slot.rewrite, hrow, hwhich] using howned
    | true => simp [Slot.rewrite, hrow, hwhich, Slot.owned]

omit [DecidableEq T] [Schema Row] in
private theorem rewrite_slots_owned {t : T} {targets : Nat → Bool} {which : Row t → Bool} {change : Row t → Option (Row t)}
    {slots : List (Slot ι (Row t))} {n : Nat} {s : Slot ι (Row t)} (hs : slots[n]? = some s) (howned : s.owned i = true) :
    ∃ r, (rewrite_slots i targets which change slots)[n]? = some r ∧ r.owned i = true ∧ r.committed = s.committed := by
  rw [rewrite_slots, List.getElem?_mapIdx, hs]
  refine ⟨_, rfl, ?_, ?_⟩
  · split_ifs
    · exact owned_rewrite_self howned
    · exact howned
  · split_ifs
    · exact committed_rewrite
    · rfl

/-- Who has written a guarded row still has while its transaction goes on. -/
private theorem consuming_of_self (h : w.consuming t₀ guard i) (hmove : w.Moved i u) {p : Prog Row ε α}
    (hp : (u.sessions i).todo = some p) : u.consuming t₀ guard i := by
  obtain ⟨n, s, hs, howned, hguard⟩ := h
  cases hmove with
  | commit a hs hu | stop e hs hu =>
    rw [hu] at hp
    simp [World.finish, World.set_session, Session.todo] at hp
  | read next hs' hu | pick t which change next hs' hu | violate t values next hs' hclash hu =>
    exact ⟨n, s, by rw [hu]; exact hs, howned, hguard⟩
  | write t targets which change next hs' hfree hu =>
    by_cases ht : t₀ = t
    · subst ht
      obtain ⟨r, hr, hr_owned, hr_committed⟩ := @rewrite_slots_owned _ _ _ _ i t₀ targets which change _ n s hs howned
      refine ⟨n, r, ?_, hr_owned, hr_committed ▸ hguard⟩
      rw [hu, slots_set_session, slots_set_slots]
      exact hr
    · refine ⟨n, s, ?_, howned, hguard⟩
      rw [hu, slots_set_session, slots_set_slots_of_ne _ ht]
      exact hs
  | add t values next hs' hclash hu =>
    refine ⟨n, s, ?_, howned, hguard⟩
    rw [hu, slots_set_session]
    by_cases ht : t₀ = t
    · subst ht
      rw [slots_set_slots, List.getElem?_append_left (List.getElem?_eq_some_iff.mp hs).1]
      exact hs
    · rw [slots_set_slots_of_ne _ ht]
      exact hs

omit [DecidableEq T] [Schema Row] in
/-- A statement that answers with a guarded row has written it. -/
private theorem consuming_of_write {targets : Nat → Bool} {which : Row t₀ → Bool} {change : Row t₀ → Option (Row t₀)}
    (hpending : ∀ s ∈ w.slots t₀, s.within t₀ fun _ => unguarding t₀ guard)
    (hguard : ∀ row, which row = true → guard row = true) (hslots : u.slots t₀ = rewrite_slots i targets which change (w.slots t₀))
    (hsome : rewritten i targets which change (w.slots t₀) ≠ []) : u.consuming t₀ guard i := by
  obtain ⟨out, hout⟩ := List.exists_mem_of_ne_nil _ hsome
  rw [rewritten, List.reduceOption_mem_iff, List.mem_iff_getElem?] at hout
  obtain ⟨n, hn⟩ := hout
  rw [List.getElem?_mapIdx] at hn
  obtain ⟨s, hs, hn⟩ := Option.map_eq_some_iff.mp hn
  split_ifs at hn with htarget
  obtain ⟨row, hrow, -⟩ := Option.map_eq_some_iff.mp hn
  obtain ⟨hvisible, hwhich⟩ := Option.filter_eq_some_iff.mp hrow
  have howned : s.owned i = false := by
    by_contra howned
    obtain ⟨new, hnew⟩ := pending_of_owned (by simpa using howned)
    have hclean := pending_unguarded (hpending s (List.mem_of_getElem? hs)) hnew
    obtain rfl : new = some row := by simpa [Slot.visible, hnew] using hvisible
    simp [hguard row hwhich] at hclean
  have hcommitted : s.committed = some row := (visible_of_not_owned howned).symm.trans hvisible
  refine ⟨n, s.rewrite i which change, ?_, ?_, ?_⟩
  · rw [hslots, rewrite_slots, List.getElem?_mapIdx, hs]
    simp [htarget]
  · simp [Slot.rewrite, hvisible, hwhich, Slot.owned]
  · rw [committed_rewrite, hcommitted]
    exact hguard row hwhich

/-- A step of a client takes it on towards its guarded row, or it has written one. -/
private theorem consumes_of_self (hpending : ∀ s ∈ w.slots t₀, s.within t₀ fun _ => unguarding t₀ guard)
    (h : ∀ p, (w.sessions i).todo = some p → p.consumes t₀ guard ∨ w.consuming t₀ guard i) (hmove : w.Moved i u) :
    ∀ p, (u.sessions i).todo = some p → p.consumes t₀ guard ∨ u.consuming t₀ guard i := by
  intro p hp
  have hkept (p' : Prog Row ε α) (hp' : (w.sessions i).todo = some p') (hnext : p'.consumes t₀ guard →
      p.consumes t₀ guard ∨ u.consuming t₀ guard i) : p.consumes t₀ guard ∨ u.consuming t₀ guard i := by
    obtain hconsumes | hconsuming := h p' hp'
    · exact hnext hconsumes
    · exact .inr (consuming_of_self hconsuming hmove hp)
  cases hmove with
  | commit a hs hu | stop e hs hu =>
    rw [hu] at hp
    simp [World.finish, World.set_session, Session.todo] at hp
  | read next hs hu =>
    rw [hu, sessions_set_session] at hp
    obtain rfl := Option.some.inj hp
    exact hkept (.select next) (by rw [hs]; rfl) fun hconsumes => .inl (hconsumes _)
  | pick t which change next hs hu =>
    rw [hu, sessions_set_session] at hp
    obtain rfl := Option.some.inj hp
    exact hkept _ (by rw [hs]; rfl) .inl
  | write t targets which change next hs hfree hu =>
    rw [hu, sessions_set_session] at hp
    obtain rfl := Option.some.inj hp
    refine hkept (.update t which change next) (by rw [hs]; rfl) fun hconsumes => ?_
    by_cases hanswer : ∀ h : t = t₀, (∀ row, which row = true → guard (h ▸ row) = true) →
        rewritten i targets which change (w.slots t) = []
    · exact .inl (hconsumes _ hanswer)
    · push Not at hanswer
      obtain ⟨rfl, hguard, hsome⟩ := hanswer
      refine .inr (consuming_of_write hpending hguard ?_ hsome)
      rw [hu, slots_set_session, slots_set_slots]
  | violate t values next hs hclash hu | add t values next hs hclash hu =>
    rw [hu, sessions_set_session] at hp
    obtain rfl := Option.some.inj hp
    exact hkept (.insert t values next) (by rw [hs]; rfl) fun hconsumes => .inl (hconsumes _)

omit [DecidableEq T] [Schema Row] in
/-- When a client commits that had to consume the guarded row, no row is guarded any more. -/
private theorem none_guarded_of_commit (h : ConsumeInvariant t₀ guard gate w) (hgate : gate i) {a : α}
    (hs : w.sessions i = .running (.done (.ok a))) : ∀ s ∈ (w.finish i (.ok a)).slots t₀, s.committed.any guard = false := by
  obtain hconsumes | ⟨n, taken, htaken, howned, hguard⟩ := h.before i (.done (.ok a)) hgate (by rw [hs]; rfl)
  · exact absurd hconsumes id
  · intro s hmem
    obtain ⟨r, hr, rfl⟩ := List.mem_map.mp (show s ∈ (w.slots t₀).map (Slot.commit i) from hmem)
    cases hr_owned : r.owned i with
    | true =>
      obtain ⟨new, hnew⟩ := pending_of_owned hr_owned
      have hcommit : (r.commit i).committed = new := by simp [Slot.commit, hnew]
      rw [hcommit]
      exact pending_unguarded (h.pending t₀ r hr) hnew
    | false =>
      rw [commit_of_not_owned hr_owned]
      by_contra hr_guard
      obtain ⟨m, hm⟩ := List.mem_iff_getElem?.mp hr
      obtain rfl := h.one n m taken r htaken hm hguard (by simpa using hr_guard)
      obtain rfl := Option.some.inj (htaken.symm.trans hm)
      rw [howned] at hr_owned
      cases hr_owned

theorem ConsumeInvariant.moved (h : ConsumeInvariant t₀ guard gate w) (hmove : w.Moved i u) :
    ConsumeInvariant t₀ guard gate u := by
  have hother {j : ι} (hne : j ≠ i) : u.sessions j = w.sessions j := sessions_of_ne hmove hne
  have hguarded {n : Nat} {s : Slot ι (Row t₀)} (hs : (u.slots t₀)[n]? = some s) (hguard : s.committed.any guard = true) :=
    guarded_before (h.pending t₀) hmove hs hguard
  refine ⟨fun j => ?_, ?_, fun n m s s' hs hs' hguard hguard' => ?_, fun j p hgate => ?_, fun j hgate hdone => ?_⟩
  · by_cases hne : j = i
    · exact hne ▸ todo_within_of_moved (h.rights i) hmove
    · rw [hother hne]
      exact h.rights j
  · exact fun t => within_of_moved h.pending (unguarding_closed t₀ guard) (writes_within_of_todo (h.rights i)) hmove t
  · obtain ⟨r, hr, hr_guard⟩ := hguarded hs hguard
    obtain ⟨r', hr', hr_guard'⟩ := hguarded hs' hguard'
    exact h.one n m r r' hr hr' hr_guard hr_guard'
  · by_cases hne : j = i
    · subst hne
      exact consumes_of_self (h.pending t₀) (fun p => h.before j p hgate) hmove p
    · rw [hother hne]
      intro hp
      refine (h.before j p hgate hp).imp_right ?_
      rintro ⟨n, s, hs, howned, hguard⟩
      exact ⟨n, s, (owned_slot_of_ne hmove (Ne.symm hne) howned).mpr hs, howned, hguard⟩
  · by_cases hbefore : w.succeeded j
    · intro s hmem
      by_contra hguard
      obtain ⟨n, hn⟩ := List.mem_iff_getElem?.mp hmem
      obtain ⟨r, hr, hr_guard⟩ := hguarded hn (by simpa using hguard)
      rw [h.after j hgate hbefore r (List.mem_of_getElem? hr)] at hr_guard
      cases hr_guard
    · obtain rfl : j = i := by
        by_contra hne
        exact hbefore (by rwa [World.succeeded, ← hother hne])
      obtain ⟨a, ha⟩ := hdone
      obtain ⟨hs, rfl⟩ := commit_of_succeeded hmove ha
      exact none_guarded_of_commit h hgate hs

omit [DecidableEq T] [Schema Row] in
/-- Who commits is the first to: after one that had to consume the row no other can. -/
private theorem not_succeeded_twice (h : ConsumeInvariant t₀ guard gate w) (hi : gate i) (hj : gate j) (hdone : w.succeeded j)
    {a : α} (hs : w.sessions i = .running (.done (.ok a))) : False := by
  obtain hconsumes | ⟨n, s, hn, -, hguard⟩ := h.before i (.done (.ok a)) hi (by rw [hs]; rfl)
  · exact hconsumes
  · rw [h.after j hj hdone s (List.mem_of_getElem? hn)] at hguard
    cases hguard

omit [DecidableEq T] [Schema Row] in
private theorem consume_start {db : Db Row} {progs : ι → Prog Row ε α}
    (hone : ∀ (n m : Nat) (row row' : Row t₀), (db.rows t₀)[n]? = some row → (db.rows t₀)[m]? = some row' →
      guard row = true → guard row' = true → n = m)
    (hgate : ∀ i, gate i → (progs i).consumes t₀ guard) (hrights : ∀ i, (progs i).within (unguarding t₀ guard)) :
    ConsumeInvariant t₀ guard gate (World.start db progs) := by
  have hslot {t : T} {n : Nat} {s : Slot ι (Row t)} (hs : ((World.start db progs).slots t)[n]? = some s) :
      ∃ row, (db.rows t)[n]? = some row ∧ s = ⟨some row, none⟩ := by
    rw [World.start, List.getElem?_map] at hs
    obtain ⟨row, hrow, rfl⟩ := Option.map_eq_some_iff.mp hs
    exact ⟨row, hrow, rfl⟩
  refine ⟨fun i p hp => ?_, fun t s hmem => ?_, fun n m s s' hs hs' hguard hguard' => ?_, fun i p hi hp => .inl ?_, ?_⟩
  · obtain rfl := Option.some.inj hp
    exact hrights i
  · obtain ⟨n, hn⟩ := List.mem_iff_getElem?.mp hmem
    obtain ⟨row, -, rfl⟩ := hslot hn
    exact within_of_free rfl
  · obtain ⟨row, hrow, rfl⟩ := hslot hs
    obtain ⟨row', hrow', rfl⟩ := hslot hs'
    exact hone n m row row' hrow hrow' hguard hguard'
  · obtain rfl := Option.some.inj hp
    exact hgate i hi
  · rintro i - ⟨a, ha⟩
    cases ha

/-- Of the clients that commit only once they have consumed the one guarded row
at most one commits, whatever the others do beside them as long as nobody
writes a guarded row; after it no row is guarded. -/
theorem consumed_once {db : Db Row} {progs : ι → Prog Row ε α} {allowed : World ι Row ε α → Action ι ε → Prop}
    (hone : ∀ (n m : Nat) (row row' : Row t₀), (db.rows t₀)[n]? = some row → (db.rows t₀)[m]? = some row' →
      guard row = true → guard row' = true → n = m) (hgate : ∀ i, gate i → (progs i).consumes t₀ guard)
    (hrights : ∀ i, (progs i).within (unguarding t₀ guard)) (hrun : Interleaving allowed (World.start db progs) w) :
    (∀ i j, gate i → gate j → w.succeeded i → w.succeeded j → i = j) ∧
      ∀ i, gate i → w.succeeded i → ∀ row ∈ w.committed t₀, guard row = false := by
  suffices h : ConsumeInvariant t₀ guard gate w ∧ ∀ i j, gate i → gate j → w.succeeded i → w.succeeded j → i = j by
    refine ⟨h.2, fun i hi hdone row hrow => ?_⟩
    obtain ⟨s, hs, hcommitted⟩ := List.mem_filterMap.mp hrow
    simpa [hcommitted] using h.1.after i hi hdone s hs
  induction hrun with
  | start =>
    refine ⟨consume_start hone hgate hrights, ?_⟩
    rintro i j - - ⟨a, ha⟩
    cases ha
  | @step v u a hrun hallowed hstep ih =>
    have hmove := moved_of_step hstep
    refine ⟨ih.1.moved hmove, fun i j hi hj hdone hdone' => ?_⟩
    have hfirst {i j : ι} (hi : gate i) (hj : gate j) (hdone : u.succeeded i) (hdone' : u.succeeded j)
        (hbefore : v.succeeded j) : v.succeeded i := by
      by_contra hnot
      have hself : a.client = i := by
        by_contra hne
        exact hnot (by rwa [World.succeeded, ← sessions_of_ne hmove (Ne.symm hne)])
      subst hself
      obtain ⟨b, hb⟩ := hdone
      exact not_succeeded_twice ih.1 hi hj hbefore (commit_of_succeeded hmove hb).1
    by_cases hi' : v.succeeded i
    · exact ih.2 i j hi hj hi' (hfirst hj hi hdone' hdone hi')
    · by_cases hj' : v.succeeded j
      · exact absurd (hfirst hi hj hdone hdone' hj') hi'
      · have hclient {k : ι} (hdone : u.succeeded k) (hnot : ¬ v.succeeded k) : k = a.client := by
          by_contra hne
          exact hnot (by rwa [World.succeeded, ← sessions_of_ne hmove hne])
        rw [hclient hdone hi', hclient hdone' hj']

/-- Where all clients consume the guarded row, the one that commits does what it
would do alone. Until then the committed rows are the old ones. -/
theorem consuming_interleaving {db : Db Row} {progs : ι → Prog Row ε α} {Q : ι → α → Rows Row → Prop}
    {allowed : World ι Row ε α → Action ι ε → Prop}
    (hone : ∀ (n m : Nat) (row row' : Row t₀), (db.rows t₀)[n]? = some row → (db.rows t₀)[m]? = some row' →
      guard row = true → guard row' = true → n = m) (hconsumes : ∀ i, (progs i).consumes t₀ guard)
    (hrights : ∀ i, (progs i).within (unguarding t₀ guard)) (hends : ∀ i, (progs i).wp db.rows (Q i))
    (hrun : Interleaving allowed (World.start db progs) w) :
    (w.committed = db.rows ∧ ∀ i a, w.sessions i ≠ .finished (.ok a)) ∨
      ∃ i a, Q i a w.committed ∧ ∀ j b, w.sessions j = .finished (.ok b) ↔ j = i ∧ b = a := by
  suffices h : ConsumeInvariant t₀ guard (fun _ => True) w ∧
      (((∀ i, w.ends i (Q i)) ∧ w.committed = db.rows ∧ ∀ i a, w.sessions i ≠ .finished (.ok a)) ∨
        ∃ i a, Q i a w.committed ∧ ∀ j b, w.sessions j = .finished (.ok b) ↔ j = i ∧ b = a) from
    h.2.imp_left And.right
  induction hrun with
  | start =>
    refine ⟨consume_start hone (fun i _ => hconsumes i) hrights, .inl ⟨fun i => ends_start (hends i), ?_, ?_⟩⟩
    · funext t
      change ((db.rows t).map fun row => (⟨some row, none⟩ : Slot ι (Row t))).filterMap Slot.committed = db.rows t
      rw [List.filterMap_map]
      exact List.filterMap_some
    · intro i a ha
      cases ha
  | @step v u a hrun hallowed hstep ih =>
    have hmove := moved_of_step hstep
    refine ⟨ih.1.moved hmove, ?_⟩
    by_cases hcommits : u.succeeded a.client
    · obtain ⟨b, hb⟩ := hcommits
      obtain ⟨hs, hu⟩ := commit_of_succeeded hmove hb
      obtain ⟨hends, -, hnobody⟩ | ⟨i, c, -, hwinner⟩ := ih.2
      · refine .inr ⟨a.client, b, ?_, fun j c => ?_⟩
        · have hQ := hends a.client
          rw [World.ends, hs] at hQ
          rw [hu, committed_finish]
          exact hQ
        · by_cases hj : j = a.client
          · subst hj
            rw [hb]
            simp [eq_comm]
          · rw [sessions_of_ne hmove hj]
            exact iff_of_false (hnobody j c) fun hself => hj hself.1
      · exact (not_succeeded_twice ih.1 trivial trivial ⟨c, (hwinner i c).mpr ⟨rfl, rfl⟩⟩ hs).elim
    · have hfinished := finished_iff_of_moved hmove hcommits
      rw [committed_of_moved hmove hcommits]
      obtain ⟨hends, hcommitted, hnobody⟩ | ⟨i, b, hQ, hwinner⟩ := ih.2
      · refine .inl ⟨fun j => ?_, hcommitted, fun j c => (hfinished j c).not.mpr (hnobody j c)⟩
        by_cases hj : a.client = j
        · exact hj ▸ ends_of_self hmove (hends _)
        · exact ends_of_ne hmove hj hcommits (hends j)
      · exact .inr ⟨i, b, hQ, fun j c => (hfinished j c).trans (hwinner j c)⟩

end Invariant

end sql
