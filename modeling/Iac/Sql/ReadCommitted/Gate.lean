import Iac.Sql.Leaves
import Iac.Sql.ReadCommitted.Local

namespace sql

variable {T ι : Type} {Row : T → Type} {ε α β : Type} {R : Type}

/-- The program cannot end ok before an UPDATE of the table has changed a row,
and its UPDATEs of the table take rows that `guard` holds of to where it does not. -/
def Prog.gated (t₀ : T) (guard : Row t₀ → Bool) : Prog Row ε α → Prop
  | .done (.ok _) => False
  | .done (.error _) => True
  | .select next => ∀ rows, (next rows).gated t₀ guard
  | .update t which change next =>
    (∀ h : t = t₀, ∀ row, which row = true → guard (h ▸ row) = true ∧
      (change row).any (fun new => guard (h ▸ new)) = false) ∧
      ∀ out, (t = t₀ → out ≠ [] → (next out).leaves t₀) ∧ ((t = t₀ → out = []) → (next out).gated t₀ guard)
  | .insert t _ next => t ≠ t₀ ∧ ∀ out, (next out).gated t₀ guard

section Programs

variable {t₀ : T} {guard : Row t₀ → Bool} {p : Prog Row ε α} {k : α → Prog Row ε β}

theorem gated_throw (e : ε) : (Prog.throw e : Prog Row ε α).gated t₀ guard := trivial

/-- What comes before the gate does not matter as long as it leaves the table alone. -/
theorem gated_bind (hp : p.leaves t₀) (hk : ∀ a, (k a).gated t₀ guard) : (p >>= k).gated t₀ guard := by
  change (p.bind k).gated t₀ guard
  induction p with
  | done result =>
    cases result with
    | ok a => exact hk a
    | error e => trivial
  | select next ih => exact fun rows => ih rows (hp rows)
  | update t which change next ih =>
    exact ⟨fun h => absurd h hp.1, fun out => ⟨fun h => absurd h hp.1, fun _ => ih out (hp.2 out)⟩⟩
  | insert t values next ih => exact ⟨hp.1, fun out => ih out (hp.2 out)⟩

/-- What comes after the gate does not matter either. -/
theorem gated_then (hp : p.gated t₀ guard) (hk : ∀ a, (k a).leaves t₀) : (p >>= k).gated t₀ guard := by
  change (p.bind k).gated t₀ guard
  induction p with
  | done result =>
    cases result with
    | ok a => exact absurd hp id
    | error e => trivial
  | select next ih => exact fun rows => ih rows (hp rows)
  | update t which change next ih =>
    exact ⟨hp.1, fun out => ⟨fun h hsome => leaves_bind ((hp.2 out).1 h hsome) hk, fun h => ih out ((hp.2 out).2 h)⟩⟩
  | insert t values next ih => exact ⟨hp.1, fun out => ih out (hp.2 out)⟩

/-- The gate itself. -/
theorem gated_update {which : Row t₀ → Bool} {change : Row t₀ → Row t₀} {k : List (Row t₀) → Prog Row ε β}
    (hguard : ∀ row, which row = true → guard row = true ∧ guard (change row) = false)
    (hopen : ∀ out, out ≠ [] → (k out).leaves t₀) (hshut : (k []).gated t₀ guard) :
    (Prog.update_where t₀ which change >>= k).gated t₀ guard := by
  refine ⟨fun _ => hguard, fun out => ⟨fun _ hsome => hopen out hsome, fun hnone => ?_⟩⟩
  obtain rfl := hnone rfl
  exact hshut

end Programs

variable [DecidableEq ι]

/-- Nobody has committed through the gate: at most one row of the table is
guarded, only such rows are being changed, and who has not changed one has the
gate before it. -/
structure GateOpen (t₀ : T) (guard : Row t₀ → Bool) (w : World ι Row ε α) : Prop where
  one : ((w.slots t₀).filter fun s => s.committed.any guard).length ≤ 1
  guarded : ∀ s ∈ w.slots t₀, ∀ p, s.pending = some p → s.committed.any guard = true ∧ p.2.any guard = false
  passed : ∀ i p, (w.sessions i).todo = some p → w.uncommitted i t₀ = true → p.leaves t₀
  before : ∀ i p, (w.sessions i).todo = some p → w.uncommitted i t₀ = false → p.gated t₀ guard
  gone : ∀ i, (w.sessions i).todo = none → w.uncommitted i t₀ = false

/-- A client has committed through the gate: no row of the table is guarded. -/
structure GateClosed (t₀ : T) (guard : Row t₀ → Bool) (w : World ι Row ε α) : Prop where
  none_guarded : ∀ s ∈ w.slots t₀, s.committed.any guard = false ∧ s.pending = none
  before : ∀ i p, (w.sessions i).todo = some p → p.gated t₀ guard

section Gate

variable {t₀ : T} {guard : Row t₀ → Bool} {w u : World ι Row ε α} {i j : ι}

private theorem owned_iff {s : Slot ι R} : s.owned i = true ↔ ∃ row, s.pending = some (i, row) := by
  cases hp : s.pending with
  | none => simp [Slot.owned, hp]
  | some p =>
    obtain ⟨k, row⟩ := p
    simp [Slot.owned, hp, eq_comm]

theorem uncommitted_iff {t : T} : w.uncommitted i t = true ↔ ∃ s ∈ w.slots t, ∃ row, s.pending = some (i, row) := by
  simp [World.uncommitted, owned_iff]

omit [DecidableEq ι] in
private theorem eq_of_length_filter_le_one {β : Type} {p : β → Bool} {xs : List β} (h : (xs.filter p).length ≤ 1) {x y : β}
    (hx : x ∈ xs) (hpx : p x = true) (hy : y ∈ xs) (hpy : p y = true) : x = y := by
  have hx' : x ∈ xs.filter p := List.mem_filter.mpr ⟨hx, hpx⟩
  have hy' : y ∈ xs.filter p := List.mem_filter.mpr ⟨hy, hpy⟩
  match hlist : xs.filter p with
  | [] => simp [hlist] at hx'
  | [z] =>
    rw [hlist] at hx' hy'
    rw [List.mem_singleton.mp hx', List.mem_singleton.mp hy']
  | _ :: _ :: _ =>
    rw [hlist] at h
    simp at h

/-- At most one client is through the gate. -/
theorem GateOpen.exclusive (h : GateOpen t₀ guard w) (hi : w.uncommitted i t₀ = true) (hj : w.uncommitted j t₀ = true) :
    i = j := by
  obtain ⟨s, hs, row, hp⟩ := uncommitted_iff.mp hi
  obtain ⟨s', hs', row', hp'⟩ := uncommitted_iff.mp hj
  obtain rfl := eq_of_length_filter_le_one h.one hs (h.guarded s hs _ hp).1 hs' (h.guarded s' hs' _ hp').1
  have heq := hp.symm.trans hp'
  simp at heq
  exact heq.1

private theorem uncommitted_congr {t : T} (h : u.slots t = w.slots t) (i : ι) : u.uncommitted i t = w.uncommitted i t := by
  rw [World.uncommitted, World.uncommitted, h]

/-- A step that leaves the table alone keeps the gate open when it moves on in the program. -/
private theorem GateOpen.progress (h : GateOpen t₀ guard w) (hslots : u.slots t₀ = w.slots t₀)
    (hothers : ∀ j, j ≠ i → u.sessions j = w.sessions j) {p p' : Prog Row ε α} (hp : (w.sessions i).todo = some p)
    (hp' : (u.sessions i).todo = some p') (hleaves : p.leaves t₀ → p'.leaves t₀)
    (hgated : p.gated t₀ guard → p'.gated t₀ guard) : GateOpen t₀ guard u := by
  have huncommitted := uncommitted_congr hslots
  refine ⟨hslots ▸ h.one, hslots ▸ h.guarded, fun j q hq hj => ?_, fun j q hq hj => ?_, fun j hq => ?_⟩
  · rw [huncommitted] at hj
    by_cases hji : j = i
    · subst hji
      obtain rfl := Option.some.inj (hp'.symm.trans hq)
      exact hleaves (h.passed j p hp hj)
    · exact h.passed j q (hothers j hji ▸ hq) hj
  · rw [huncommitted] at hj
    by_cases hji : j = i
    · subst hji
      obtain rfl := Option.some.inj (hp'.symm.trans hq)
      exact hgated (h.before j p hp hj)
    · exact h.before j q (hothers j hji ▸ hq) hj
  · rw [huncommitted]
    by_cases hji : j = i
    · subst hji
      rw [hp'] at hq
      cases hq
    · exact h.gone j (hothers j hji ▸ hq)

private theorem GateOpen.elsewhere (h : GateOpen t₀ guard w) {p : Prog Row ε α} {t : T}
    (hp : (w.sessions i).todo = some p) (hleaves : p.leaves t₀ → t ≠ t₀) (hgated : p.gated t₀ guard → t ≠ t₀) : t ≠ t₀ := by
  cases huncommitted : w.uncommitted i t₀ with
  | true => exact hleaves (h.passed i p hp huncommitted)
  | false => exact hgated (h.before i p hp huncommitted)

omit [DecidableEq ι] in
private theorem length_filter_committed {old new : List (Slot ι R)} {guard : R → Bool}
    (h : new.map Slot.committed = old.map Slot.committed) :
    (new.filter fun s => s.committed.any guard).length = (old.filter fun s => s.committed.any guard).length := by
  have hcount (slots : List (Slot ι R)) :
      (slots.filter fun s => s.committed.any guard).length = (slots.map Slot.committed).countP (Option.any guard) := by
    rw [List.countP_map, List.countP_eq_length_filter]
    rfl
  rw [hcount, hcount, h]

private theorem owned_rollback {s : Slot ι R} : (s.rollback i).owned j = (s.owned j && !decide (j = i)) := by
  cases hp : s.pending with
  | none => simp [Slot.rollback, Slot.owned, hp]
  | some p =>
    by_cases h : p.1 = i
    · by_cases hj : i = j
      · simp [Slot.rollback, Slot.owned, hp, h, hj]
      · simp [Slot.rollback, Slot.owned, hp, h, hj]
    · by_cases hj : p.1 = j
      · have hne : j ≠ i := fun heq => h (hj.trans heq)
        simp [Slot.rollback, Slot.owned, hp, hj, hne]
      · simp [Slot.rollback, Slot.owned, hp, h, hj]

private theorem uncommitted_rollback (e : ε) (t : T) :
    (w.finish i (.error e)).uncommitted j t = (w.uncommitted j t && !decide (j = i)) := by
  change ((w.slots t).map (Slot.rollback i)).any (Slot.owned j) = ((w.slots t).any (Slot.owned j) && !decide (j = i))
  rw [List.any_map]
  induction w.slots t with
  | nil => rfl
  | cons s slots ih =>
    rw [List.any_cons, List.any_cons, ih, Function.comp_apply, owned_rollback, Bool.and_or_distrib_right]

variable [DecidableEq T] [Schema Row]

private theorem GateOpen.stop (h : GateOpen t₀ guard w) (e : ε) (hmove : w.Moved i (w.finish i (.error e))) :
    GateOpen t₀ guard (w.finish i (.error e)) := by
  have hslots : (w.finish i (.error e)).slots t₀ = (w.slots t₀).map (Slot.rollback i) := rfl
  have htodo : ((w.finish i (.error e)).sessions i).todo = none := by
    simp [World.finish, World.set_session, Session.todo]
  have hothers {j : ι} (hne : j ≠ i) : (w.finish i (.error e)).uncommitted j t₀ = w.uncommitted j t₀ := by
    simp [uncommitted_rollback, hne]
  have running {j : ι} {p : Prog Row ε α} (hp : ((w.finish i (.error e)).sessions j).todo = some p) :
      j ≠ i ∧ (w.sessions j).todo = some p := by
    have hne : j ≠ i := by
      rintro rfl
      rw [htodo] at hp
      cases hp
    exact ⟨hne, by rwa [sessions_of_ne hmove hne] at hp⟩
  refine ⟨?_, ?_, fun j p hp hj => ?_, fun j p hp hj => ?_, fun j hnone => ?_⟩
  · rw [hslots]
    refine Nat.le_trans (Nat.le_of_eq (length_filter_committed ?_)) h.one
    rw [List.map_map]
    exact List.map_congr_left fun s _ => committed_rollback
  · intro s hs p hp
    rw [hslots] at hs
    obtain ⟨r, hr, rfl⟩ := List.mem_map.mp hs
    rw [committed_rollback]
    exact h.guarded r hr p (pending_of_rollback hp)
  · obtain ⟨hne, hw⟩ := running hp
    exact h.passed j p hw (hothers hne ▸ hj)
  · obtain ⟨hne, hw⟩ := running hp
    exact h.before j p hw (hothers hne ▸ hj)
  · by_cases hne : j = i
    · simp [uncommitted_rollback, hne]
    · rw [hothers hne]
      exact h.gone j (sessions_of_ne hmove hne ▸ hnone)

omit [DecidableEq T] [Schema Row] in
/-- An UPDATE of a client that has written nothing in the table yet: the slots
it leaves are old ones or old ones with its own version, and it has an answer
exactly if there is one of the latter. -/
private theorem rewrite_slots_cases {slots : List (Slot ι R)} {targets : Nat → Bool} {which : R → Bool} {change : R → Option R}
    (hclean : ∀ n s, slots[n]? = some s → targets n = true → s.pending = none) :
    (∀ s ∈ rewrite_slots i targets which change slots, s ∈ slots ∨
      ∃ row, which row = true ∧ ⟨some row, none⟩ ∈ slots ∧ s = ⟨some row, some (i, change row)⟩ ∧
        rewritten i targets which change slots ≠ []) ∧
    (rewritten i targets which change slots ≠ [] →
      ∃ s ∈ rewrite_slots i targets which change slots, s.owned i = true) ∧
    ∀ s ∈ slots, s.pending ≠ none → s ∈ rewrite_slots i targets which change slots := by
  refine ⟨fun s hs => ?_, fun hout => ?_, fun s hs hp => ?_⟩
  · obtain ⟨n, hn⟩ := List.mem_iff_getElem?.mp hs
    obtain hsame | ⟨row, hrow, htarget, hwhich, hnew⟩ := rewrite_slots_get hclean n
    · exact .inl (List.mem_of_getElem? (hsame ▸ hn))
    · have hanswer : answer change row ∈ rewritten i targets which change slots :=
        (mem_rewritten hclean _).mpr ⟨n, row, hrow, htarget, hwhich, rfl⟩
      exact .inr ⟨row, hwhich, List.mem_of_getElem? hrow, Option.some.inj (hn.symm.trans hnew), List.ne_nil_of_mem hanswer⟩
  · obtain ⟨out, hmem⟩ := List.exists_mem_of_ne_nil _ hout
    obtain ⟨n, row, hrow, htarget, hwhich, -⟩ := (mem_rewritten hclean out).mp hmem
    have hnew : (rewrite_slots i targets which change slots)[n]? = some ⟨some row, some (i, change row)⟩ := by
      rw [rewrite_slots, List.getElem?_mapIdx, hrow]
      simp [htarget, Slot.rewrite, Slot.visible, hwhich]
    exact ⟨_, List.mem_of_getElem? hnew, by simp [Slot.owned]⟩
  · obtain ⟨n, hn⟩ := List.mem_iff_getElem?.mp hs
    obtain hsame | ⟨row, hrow, -⟩ := @rewrite_slots_get _ _ _ i which change _ _ hclean n
    · exact List.mem_of_getElem? (hsame.trans hn)
    · obtain rfl := Option.some.inj (hn.symm.trans hrow)
      exact absurd rfl hp

omit [Schema Row] in
/-- Passing the gate, or finding it shut. -/
private theorem GateOpen.write (h : GateOpen t₀ guard w) {targets : Nat → Bool} {which : Row t₀ → Bool}
    {change : Row t₀ → Option (Row t₀)} {next : List (Row t₀) → Prog Row ε α}
    (hs : w.sessions i = .updating t₀ targets which change next)
    (hfree : ∀ n s, (w.slots t₀)[n]? = some s → targets n = true → s.locked i = false)
    (hothers : ∀ j, j ≠ i → u.sessions j = w.sessions j)
    (hu : u = (w.set_slots t₀ (rewrite_slots i targets which change (w.slots t₀))).set_session i
      (.running (next (rewritten i targets which change (w.slots t₀))))) : GateOpen t₀ guard u := by
  have htodo : (w.sessions i).todo = some (.update t₀ which change next) := by rw [hs]; rfl
  have hnot : w.uncommitted i t₀ = false := by
    by_contra hsome
    exact (h.passed i _ htodo (by simpa using hsome)).1 rfl
  have hgated := h.before i _ htodo hnot
  have hclean : ∀ n s, (w.slots t₀)[n]? = some s → targets n = true → s.pending = none := by
    intro n s hn htarget
    cases hp : s.pending with
    | none => rfl
    | some p =>
      obtain ⟨j, row⟩ := p
      obtain rfl : j = i := by simpa [Slot.locked, hp] using hfree n s hn htarget
      rw [uncommitted_iff.mpr ⟨s, List.mem_of_getElem? hn, row, hp⟩] at hnot
      cases hnot
  obtain ⟨hold, hanswer, hkept⟩ := @rewrite_slots_cases _ _ _ i _ _ which change hclean
  have hslots : u.slots t₀ = rewrite_slots i targets which change (w.slots t₀) := by
    rw [hu]
    exact Function.update_self _ _ _
  have hnext : (u.sessions i).todo = some (next (rewritten i targets which change (w.slots t₀))) := by
    rw [hu, sessions_set_session]
    rfl
  have hsame : u.uncommitted i t₀ = true ↔ rewritten i targets which change (w.slots t₀) ≠ [] := by
    rw [uncommitted_iff, hslots]
    constructor
    · rintro ⟨s, hmem, row, hp⟩
      obtain hmem | ⟨_, _, _, _, hsome⟩ := hold s hmem
      · rw [uncommitted_iff.mpr ⟨s, hmem, row, hp⟩] at hnot
        cases hnot
      · exact hsome
    · intro hsome
      obtain ⟨s, hmem, howned⟩ := hanswer hsome
      exact ⟨s, hmem, owned_iff.mp howned⟩
  have hother {j : ι} (hne : j ≠ i) : u.uncommitted j t₀ = w.uncommitted j t₀ := by
    rw [Bool.eq_iff_iff, uncommitted_iff, uncommitted_iff, hslots]
    constructor
    · rintro ⟨s, hmem, row, hp⟩
      obtain hmem | ⟨_, _, _, rfl, _⟩ := hold s hmem
      · exact ⟨s, hmem, row, hp⟩
      · exact absurd (congrArg Prod.fst (Option.some.inj hp)).symm hne
    · rintro ⟨s, hmem, row, hp⟩
      exact ⟨s, hkept s hmem (by simp [hp]), row, hp⟩
  refine ⟨?_, ?_, fun j p hp hj => ?_, fun j p hp hj => ?_, fun j hnone => ?_⟩
  · rw [hslots]
    exact Nat.le_trans (Nat.le_of_eq (length_filter_committed (map_committed_rewrite_slots ..))) h.one
  · intro s hmem p hp
    rw [hslots] at hmem
    obtain hmem | ⟨row, hwhich, -, rfl, -⟩ := hold s hmem
    · exact h.guarded s hmem p hp
    · obtain rfl := Option.some.inj hp
      exact hgated.1 rfl row hwhich
  · by_cases hne : j = i
    · subst hne
      obtain rfl := Option.some.inj (hnext.symm.trans hp)
      exact (hgated.2 _).1 rfl (hsame.mp hj)
    · exact h.passed j p (hothers j hne ▸ hp) (hother hne ▸ hj)
  · by_cases hne : j = i
    · subst hne
      obtain rfl := Option.some.inj (hnext.symm.trans hp)
      exact (hgated.2 _).2 fun _ => by simpa [hj] using hsame
    · exact h.before j p (hothers j hne ▸ hp) (hother hne ▸ hj)
  · by_cases hne : j = i
    · subst hne
      rw [hnext] at hnone
      cases hnone
    · rw [hother hne]
      exact h.gone j (hothers j hne ▸ hnone)

theorem GateOpen.moved (h : GateOpen t₀ guard w) (hmove : w.Moved i u) (hkeep : ¬ u.succeeded i) : GateOpen t₀ guard u := by
  have hothers : ∀ j, j ≠ i → u.sessions j = w.sessions j := fun j hne => sessions_of_ne hmove hne
  cases hmove with
  | commit a hs hu => exact absurd (succeeded_of_commit hu) hkeep
  | stop e hs hu => exact hu ▸ h.stop e (hu ▸ .stop e hs hu)
  | read next hs hu =>
    refine h.progress (by rw [hu]; rfl) hothers (by rw [hs]; rfl) (by rw [hu, sessions_set_session]; rfl) ?_ ?_
    · exact fun hp => hp _
    · exact fun hp => hp _
  | pick t which change next hs hu =>
    exact h.progress (by rw [hu]; rfl) hothers (by rw [hs]; rfl) (by rw [hu, sessions_set_session]; rfl) id id
  | write t targets which change next hs hfree hu =>
    have htodo : (w.sessions i).todo = some (.update t which change next) := by rw [hs]; rfl
    have hnext : (u.sessions i).todo = some (next (rewritten i targets which change (w.slots t))) := by
      rw [hu, sessions_set_session]
      rfl
    by_cases ht : t = t₀
    · subst ht
      exact h.write hs hfree hothers hu
    · refine h.progress ?_ hothers htodo hnext (fun hp => hp.2 _) fun hp => (hp.2 _).2 fun heq => absurd heq ht
      rw [hu]
      exact Function.update_of_ne (Ne.symm ht) _ _
  | violate t values next hs hclash hu =>
    refine h.progress (by rw [hu]; rfl) hothers (by rw [hs]; rfl) (by rw [hu, sessions_set_session]; rfl) ?_ ?_
    · exact fun hp => hp.2 _
    · exact fun hp => hp.2 _
  | add t values next hs hclash hu =>
    have htodo : (w.sessions i).todo = some (.insert t values next) := by rw [hs]; rfl
    have ht : t ≠ t₀ := h.elsewhere htodo (fun hp => hp.1) fun hp => hp.1
    refine h.progress ?_ hothers htodo (by rw [hu, sessions_set_session]; rfl) (fun hp => hp.2 _) fun hp => hp.2 _
    rw [hu]
    exact Function.update_of_ne (Ne.symm ht) _ _

omit [DecidableEq T] [Schema Row] in
/-- Who commits while the gate is open has gone through it, and shuts it. -/
theorem GateOpen.commit (h : GateOpen t₀ guard w) {a : α} (hs : w.sessions i = .running (.done (.ok a))) :
    GateClosed t₀ guard (w.finish i (.ok a)) := by
  have htodo : (w.sessions i).todo = some (.done (.ok a)) := by rw [hs]; rfl
  have howner : w.uncommitted i t₀ = true := by
    by_contra hnone
    exact h.before i _ htodo (by simpa using hnone)
  obtain ⟨s, hs_mem, row, hs_pending⟩ := uncommitted_iff.mp howner
  obtain ⟨hs_guard, hrow⟩ := h.guarded s hs_mem _ hs_pending
  refine ⟨?_, fun j p hp => ?_⟩
  · intro s' hs'
    obtain ⟨r, hr, rfl⟩ := List.mem_map.mp (show s' ∈ (w.slots t₀).map (Slot.commit i) from hs')
    cases hr_guard : r.committed.any guard with
    | true =>
      obtain rfl := eq_of_length_filter_le_one h.one hr hr_guard hs_mem hs_guard
      simp [Slot.commit, hs_pending, hrow]
    | false =>
      have hr_pending : r.pending = none := by
        cases hp : r.pending with
        | none => rfl
        | some p => simp [(h.guarded r hr p hp).1] at hr_guard
      simp [Slot.commit, hr_pending, hr_guard]
  · have hne : j ≠ i := by
      rintro rfl
      simp [World.finish, World.set_session, Session.todo] at hp
    have hsession : (w.finish i (.ok a)).sessions j = w.sessions j := by
      simp [World.finish, World.set_session, Function.update_of_ne hne]
    rw [hsession] at hp
    refine h.before j p hp ?_
    by_contra hj
    exact hne (h.exclusive (by simpa using hj) howner)

omit [DecidableEq T] [Schema Row] in
private theorem GateClosed.progress (h : GateClosed t₀ guard w)
    (hslots : ∀ s ∈ u.slots t₀, s.committed.any guard = false ∧ s.pending = none)
    (hothers : ∀ j, j ≠ i → u.sessions j = w.sessions j)
    (hself : ∀ p, (u.sessions i).todo = some p → p.gated t₀ guard) : GateClosed t₀ guard u := by
  refine ⟨hslots, fun j p hp => ?_⟩
  by_cases hji : j = i
  · subst hji
    exact hself p hp
  · exact h.before j p (hothers j hji ▸ hp)

/-- Once the gate is shut nobody commits and it stays shut. -/
theorem GateClosed.moved (h : GateClosed t₀ guard w) (hmove : w.Moved i u) : ¬ u.succeeded i ∧ GateClosed t₀ guard u := by
  have hkeep : ¬ u.succeeded i := fun ⟨a, hs⟩ =>
    h.before i (.done (.ok a)) (by rw [(commit_of_succeeded hmove hs).1]; rfl)
  refine ⟨hkeep, ?_⟩
  have hothers : ∀ j, j ≠ i → u.sessions j = w.sessions j := fun j hne => sessions_of_ne hmove hne
  have running {p : Prog Row ε α} (hs : u.sessions i = .running p) (hp : p.gated t₀ guard) :
      ∀ p, (u.sessions i).todo = some p → p.gated t₀ guard := by
    intro p' hp'
    rw [hs] at hp'
    exact Option.some.inj hp' ▸ hp
  cases hmove with
  | commit a hs hu => exact absurd (succeeded_of_commit hu) hkeep
  | stop e hs hu =>
    subst hu
    refine h.progress (fun s' hs' => ?_) hothers fun p hp => ?_
    · obtain ⟨r, hr, rfl⟩ := List.mem_map.mp (show s' ∈ (w.slots t₀).map (Slot.rollback i) from hs')
      have hclean := h.none_guarded r hr
      simpa [Slot.rollback, hclean.2] using hclean
    · simp [World.finish, World.set_session, Session.todo] at hp
  | read next hs hu =>
    have hp : (Prog.select next).gated t₀ guard := h.before i _ (by rw [hs]; rfl)
    subst hu
    exact h.progress h.none_guarded hothers (running (sessions_set_session _ _ _) (hp _))
  | pick t which change next hs hu =>
    have hp : (Prog.update t which change next).gated t₀ guard := h.before i _ (by rw [hs]; rfl)
    subst hu
    refine h.progress h.none_guarded hothers fun p hp' => ?_
    rw [sessions_set_session] at hp'
    exact Option.some.inj hp' ▸ hp
  | write t targets which change next hs hfree hu =>
    have hp : (Prog.update t which change next).gated t₀ guard := h.before i _ (by rw [hs]; rfl)
    have hsession : u.sessions i = .running (next (rewritten i targets which change (w.slots t))) := by
      rw [hu, sessions_set_session]
    by_cases ht : t = t₀
    · subst ht
      obtain ⟨hold, hanswer, -⟩ := @rewrite_slots_cases _ _ _ i _ targets which change
        fun n s hn _ => (h.none_guarded s (List.mem_of_getElem? hn)).2
      have hsame : ∀ s ∈ rewrite_slots i targets which change (w.slots t), s.committed.any guard = false ∧ s.pending = none := by
        intro s hmem
        obtain hmem | ⟨row, hwhich, hrow, -, -⟩ := hold s hmem
        · exact h.none_guarded s hmem
        · have hguard := (h.none_guarded _ hrow).1
          simp [(hp.1 rfl row hwhich).1] at hguard
      have hnone : rewritten i targets which change (w.slots t) = [] := by
        by_contra hsome
        obtain ⟨s, hmem, howned⟩ := hanswer hsome
        simp [Slot.owned, (hsame s hmem).2] at howned
      refine h.progress ?_ hothers (running hsession ((hp.2 _).2 fun _ => hnone))
      rw [hu]
      simpa [World.set_slots, World.set_session] using hsame
    · refine h.progress ?_ hothers (running hsession ((hp.2 _).2 fun heq => absurd heq ht))
      rw [hu]
      simpa [World.set_slots, World.set_session, Function.update_of_ne (Ne.symm ht)] using h.none_guarded
  | violate t values next hs hclash hu =>
    have hp : (Prog.insert t values next).gated t₀ guard := h.before i _ (by rw [hs]; rfl)
    subst hu
    exact h.progress h.none_guarded hothers (running (sessions_set_session _ _ _) (hp.2 _))
  | add t values next hs hclash hu =>
    have hp : (Prog.insert t values next).gated t₀ guard := h.before i _ (by rw [hs]; rfl)
    subst hu
    refine h.progress ?_ hothers (running (sessions_set_session _ _ _) (hp.2 _))
    simpa [World.set_slots, World.set_session, World.next_id, Function.update_of_ne (Ne.symm hp.1)] using h.none_guarded

omit [DecidableEq T] [Schema Row] in
theorem gate_open_start {db : Db Row} {progs : ι → Prog Row ε α} (hone : ((db.rows t₀).filter guard).length ≤ 1)
    (hgated : ∀ i, (progs i).gated t₀ guard) : GateOpen t₀ guard (World.start db progs) := by
  have hclean : ∀ s ∈ (World.start db progs).slots t₀, s.pending = none := by
    intro s hs
    obtain ⟨row, -, rfl⟩ := List.mem_map.mp (show s ∈ (db.rows t₀).map fun row => ⟨some row, none⟩ from hs)
    rfl
  have hnone (j : ι) : (World.start db progs).uncommitted j t₀ = false := by
    by_contra hj
    obtain ⟨s, hs, row, hp⟩ := uncommitted_iff.mp (by simpa using hj)
    simp [hclean s hs] at hp
  refine ⟨?_, ?_, fun j p hp hj => ?_, fun j p hp _ => ?_, fun j _ => hnone j⟩
  · change (((db.rows t₀).map fun row => (⟨some row, none⟩ : Slot ι (Row t₀))).filter _).length ≤ 1
    rw [List.filter_map, List.length_map]
    exact hone
  · intro s hs p hp
    simp [hclean s hs] at hp
  · simp [hnone] at hj
  · exact Option.some.inj hp ▸ hgated j

/-- Where all transactions are gated by the same row at most one of them
commits, in every interleaving, and it does what it would do alone. Until then
the committed rows are the old ones. -/
theorem gated_interleaving {db : Db Row} {progs : ι → Prog Row ε α} {Q : ι → α → Rows Row → Prop}
    {allowed : World ι Row ε α → Action ι ε → Prop} (hone : ((db.rows t₀).filter guard).length ≤ 1)
    (hgated : ∀ i, (progs i).gated t₀ guard) (hends : ∀ i, (progs i).wp db.rows (Q i))
    (hrun : Interleaving allowed (World.start db progs) w) :
    (w.committed = db.rows ∧ ∀ i a, w.sessions i ≠ .finished (.ok a)) ∨
      ∃ i a, Q i a w.committed ∧ ∀ j b, w.sessions j = .finished (.ok b) ↔ j = i ∧ b = a := by
  suffices h : (GateOpen t₀ guard w ∧ (∀ i, w.ends i (Q i)) ∧ w.committed = db.rows ∧
      ∀ i a, w.sessions i ≠ .finished (.ok a)) ∨ (GateClosed t₀ guard w ∧
      ∃ i a, Q i a w.committed ∧ ∀ j b, w.sessions j = .finished (.ok b) ↔ j = i ∧ b = a) by
    obtain ⟨-, -, hcommitted, hnobody⟩ | ⟨-, hwinner⟩ := h
    · exact .inl ⟨hcommitted, hnobody⟩
    · exact .inr hwinner
  induction hrun with
  | start =>
    refine .inl ⟨gate_open_start hone hgated, fun i => ends_start (hends i), ?_, fun i a => by simp [World.start]⟩
    funext t
    change ((db.rows t).map fun row => (⟨some row, none⟩ : Slot ι (Row t))).filterMap Slot.committed = db.rows t
    rw [List.filterMap_map]
    exact List.filterMap_some
  | @step v u a hrun hallowed hstep ih =>
    have hmove := moved_of_step hstep
    by_cases hcommits : u.succeeded a.client
    · obtain ⟨b, hb⟩ := hcommits
      obtain ⟨hs, hu⟩ := commit_of_succeeded hmove hb
      obtain ⟨hopen, hends, -, hnobody⟩ | ⟨hclosed, -⟩ := ih
      · refine .inr ⟨hu ▸ hopen.commit hs, a.client, b, ?_, fun j c => ?_⟩
        · have hQ := hends a.client
          rw [World.ends, hs] at hQ
          rw [hu, committed_finish]
          exact hQ
        · by_cases hj : j = a.client
          · subst hj
            simp [hu, World.finish, World.set_session, eq_comm]
          · rw [sessions_of_ne hmove hj]
            simp [hj, hnobody]
      · exact absurd ⟨b, hb⟩ (hclosed.moved hmove).1
    · have hfinished := finished_iff_of_moved hmove hcommits
      obtain ⟨hopen, hends, hcommitted, hnobody⟩ | ⟨hclosed, i, b, hQ, hwinner⟩ := ih
      · refine .inl ⟨hopen.moved hmove hcommits, fun j => ?_, (committed_of_moved hmove hcommits).trans hcommitted,
          fun j c => by simpa [hfinished] using hnobody j c⟩
        by_cases hj : a.client = j
        · exact hj ▸ ends_of_self hmove (hends _)
        · exact ends_of_ne hmove hj hcommits (hends j)
      · refine .inr ⟨(hclosed.moved hmove).2, i, b, ?_, fun j c => (hfinished j c).trans (hwinner j c)⟩
        rw [committed_of_moved hmove hcommits]
        exact hQ

end Gate

end sql
