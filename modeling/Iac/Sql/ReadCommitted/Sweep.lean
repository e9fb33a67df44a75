import Iac.Sql.Leaves
import Iac.Sql.ReadCommitted.Slots

namespace sql

variable {T ι : Type} {Row : T → Type} {ε α β : Type} {t₀ : T} {which₀ : Row t₀ → Bool}

/-- Before it commits, the program deletes what matches `which₀`. It does so in
its last statement, and writes nothing else in the table. -/
def Prog.sweeps (t₀ : T) (which₀ : Row t₀ → Bool) : Prog Row ε α → Prop
  | .done (.ok _) => False
  | .done (.error _) => True
  | .select next => ∀ rows, (next rows).sweeps t₀ which₀
  | .update t which change next =>
    t ≠ t₀ ∧ (∀ out, (next out).sweeps t₀ which₀) ∨
      ∃ h : t₀ = t, h ▸ which₀ = which ∧ (∀ row, change row = none) ∧ ∀ out, ∃ result, next out = .done result
  | .insert t _ next => t ≠ t₀ ∧ ∀ out, (next out).sweeps t₀ which₀

theorem sweeps_throw (e : ε) : (Prog.throw e : Prog Row ε α).sweeps t₀ which₀ := trivial

/-- What comes before the deletion. -/
theorem sweeps_bind {p : Prog Row ε β} {k : β → Prog Row ε α} (hp : p.leaves t₀) (hk : ∀ b, (k b).sweeps t₀ which₀) :
    (p >>= k).sweeps t₀ which₀ := by
  change (p.bind k).sweeps t₀ which₀
  induction p with
  | done result =>
    cases result with
    | ok b => exact hk b
    | error e => trivial
  | select next ih => exact fun rows => ih rows (hp rows)
  | update t which change next ih => exact .inl ⟨hp.1, fun out => ih out (hp.2 out)⟩
  | insert t values next ih => exact ⟨hp.1, fun out => ih out (hp.2 out)⟩

/-- The deletion itself. -/
theorem sweeps_delete_where (a : α) :
    (Prog.delete_where t₀ which₀ >>= fun _ => pure a : Prog Row ε α).sweeps t₀ which₀ :=
  .inr ⟨rfl, rfl, fun _ => rfl, fun _ => ⟨.ok a, rfl⟩⟩

/-- The client has picked the rows that it deletes, or has deleted them. -/
def Session.sweeping [DecidableEq T] (t₀ : T) : Session Row ε α → Bool
  | .updating t _ _ _ _ => decide (t = t₀)
  | .running (.done (.ok _)) => true
  | _ => false

variable [DecidableEq ι]

/-- How far client `i` is in a transaction that sweeps: from its deletion on,
every committed row that matches is one it has picked, then one it has deleted. -/
def World.sweeps (w : World ι Row ε α) (i : ι) (t₀ : T) (which₀ : Row t₀ → Bool) : Prop :=
  match w.sessions i with
  | .running (.done (.ok _)) =>
    ∀ s ∈ w.slots t₀, s.committed.any which₀ = true ∨ s.owned i = true → s.pending = some (i, none)
  | .running (.done (.error _)) => True
  | .running p => p.sweeps t₀ which₀ ∧ ∀ s ∈ w.slots t₀, s.owned i = false
  | .updating t targets which change next =>
    (∀ s ∈ w.slots t₀, s.owned i = false) ∧
      (t ≠ t₀ ∧ (∀ out, (next out).sweeps t₀ which₀) ∨
        ∃ h : t₀ = t, h ▸ which₀ = which ∧ (∀ row, change row = none) ∧ (∀ out, ∃ result, next out = .done result) ∧
          ∀ n s, (w.slots t₀)[n]? = some s → s.committed.any which₀ = true → targets n = true)
  | .finished _ => True

private theorem sweeps_running {w : World ι Row ε α} {i : ι} {p : Prog Row ε α} (hs : w.sessions i = .running p)
    (hp : p.sweeps t₀ which₀) (hfree : ∀ s ∈ w.slots t₀, s.owned i = false) : w.sweeps i t₀ which₀ := by
  rw [World.sweeps, hs]
  cases p with
  | done result =>
    cases result with
    | ok a => exact hp.elim
    | error e => trivial
  | select next | update t which change next | insert t values next => exact ⟨hp, hfree⟩

private theorem sweeps_done {w : World ι Row ε α} {i : ι} {result : Except ε α}
    (hs : w.sessions i = .running (.done result))
    (h : ∀ s ∈ w.slots t₀, s.committed.any which₀ = true ∨ s.owned i = true → s.pending = some (i, none)) :
    w.sweeps i t₀ which₀ := by
  rw [World.sweeps, hs]
  cases result with
  | ok a => exact h
  | error e => trivial

theorem sweeps_start {db : Db Row} {progs : ι → Prog Row ε α} {i : ι} (h : (progs i).sweeps t₀ which₀) :
    (World.start db progs).sweeps i t₀ which₀ := by
  refine sweeps_running rfl h fun s hs => ?_
  obtain ⟨row, -, rfl⟩ := List.mem_map.mp hs
  rfl

/-- Once it has committed, no committed row matches. -/
theorem swept_of_commit {w : World ι Row ε α} {i : ι} {a : α} (h : w.sweeps i t₀ which₀)
    (hs : w.sessions i = .running (.done (.ok a))) :
    ∀ row ∈ (w.finish i (.ok a)).committed t₀, which₀ row = false := by
  rw [World.sweeps, hs] at h
  intro row hrow
  rw [committed_finish] at hrow
  obtain ⟨s, hmem, hvisible⟩ := List.mem_filterMap.mp hrow
  have hslot := h s hmem
  by_contra hmatch
  have hpending : s.pending = some (i, none) := by
    cases howned : s.owned i with
    | true => exact hslot (.inr howned)
    | false =>
      have hcommitted : s.committed = some row := by
        rw [← hvisible]
        cases hp : s.pending with
        | none => simp [Slot.visible, hp]
        | some write =>
          have hne : write.1 ≠ i := by simpa [Slot.owned, hp] using howned
          simp [Slot.visible, hp, hne]
      exact hslot (.inl (by simpa [hcommitted] using hmatch))
  simp [Slot.visible, hpending] at hvisible

variable [DecidableEq T] [Schema Row] {w u : World ι Row ε α} {i j : ι}

/-- What client `j` commits while `i` sweeps has matched before. -/
def World.commits_old (w : World ι Row ε α) (j : ι) (t₀ : T) (which₀ : Row t₀ → Bool) : Prop :=
  ∀ s ∈ w.slots t₀, ∀ row, s.pending = some (j, some row) → which₀ row = true → s.committed.any which₀ = true

/-- A step of another client leaves the sweep where it is. -/
theorem sweeps_of_ne (hmove : w.Moved j u) (hne : j ≠ i) (h : w.sweeps i t₀ which₀)
    (hold : u.succeeded j → (w.sessions i).sweeping t₀ = true → w.commits_old j t₀ which₀) : u.sweeps i t₀ which₀ := by
  have hsession := sessions_of_ne hmove (Ne.symm hne)
  unfold World.sweeps at h ⊢
  rw [hsession]
  split at h
  · next a hs =>
    -- rows that match are locked by `i`
    intro s hmem hmatch
    obtain ⟨n, hn⟩ := List.mem_iff_getElem?.mp hmem
    cases slot_step_of_moved hmove hn with
    | same s hs => exact h s (List.mem_of_getElem? hs) hmatch
    | commit before new hbefore hpending hdone =>
      obtain ⟨row, rfl, hrow⟩ : ∃ row, new = some row ∧ which₀ row = true := by
        simpa [Slot.owned, Option.any_eq_true] using hmatch
      have hmatched := hold hdone (by simp [hs, Session.sweeping]) before (List.mem_of_getElem? hbefore) row hpending hrow
      have hlocked := h before (List.mem_of_getElem? hbefore) (.inl hmatched)
      rw [hpending] at hlocked
      exact absurd (Prod.mk.inj (Option.some.inj hlocked)).1 hne
    | rollback before hbefore howned =>
      have hlocked := h before (List.mem_of_getElem? hbefore) (.inl (by simpa [Slot.owned] using hmatch))
      exact absurd howned (by simp [Slot.owned, hlocked, Ne.symm hne])
    | write before hbefore targets which change next hsession htarget hfree row hvisible hwhich =>
      have hlocked := h before (List.mem_of_getElem? hbefore) (.inl (by simpa [Slot.owned, hne] using hmatch))
      exact absurd hfree (by simp [Slot.locked, hlocked, Ne.symm hne])
    | add values next hsession id hn => simp [Slot.owned, hne] at hmatch
  · trivial
  · next p _ _ hs => exact ⟨h.1, not_owned_of_ne hmove hne h.2⟩
  · next t targets which change next hs =>
    refine ⟨not_owned_of_ne hmove hne h.1, ?_⟩
    obtain hbefore | ⟨rfl, hwhich, hchange, hnext, htargets⟩ := h.2
    · exact .inl hbefore
    · refine .inr ⟨rfl, hwhich, hchange, hnext, fun n s hn hmatch => ?_⟩
      cases slot_step_of_moved hmove hn with
      | same s hs => exact htargets n s hs hmatch
      | commit before new hbefore hpending hdone =>
        obtain ⟨row, rfl, hrow⟩ : ∃ row, new = some row ∧ which₀ row = true := by
          simpa [Option.any_eq_true] using hmatch
        exact htargets n before hbefore
          (hold hdone (by simp [hs, Session.sweeping]) before (List.mem_of_getElem? hbefore) row hpending hrow)
      | rollback before hbefore howned => exact htargets n before hbefore hmatch
      | write before hbefore targets which change next hsession htarget hfree row hvisible hwhich =>
        exact htargets n before hbefore hmatch
      | add values next hsession id hn => simp at hmatch
  · trivial

/-- A step of the client itself: it picks what matches, deletes it and commits. -/
theorem sweeps_of_self (hmove : w.Moved i u) (h : w.sweeps i t₀ which₀) : u.sweeps i t₀ which₀ := by
  cases hmove with
  | commit a hs hu => rw [hu]; simp [World.sweeps, World.finish, World.set_session]
  | stop e hs hu => rw [hu]; simp [World.sweeps, World.finish, World.set_session]
  | read next hs hu =>
    rw [World.sweeps, hs] at h
    rw [hu]
    exact sweeps_running (sessions_set_session _ _ _) (h.1 _) h.2
  | violate t values next hs hclash hu =>
    rw [World.sweeps, hs] at h
    rw [hu]
    exact sweeps_running (sessions_set_session _ _ _) (h.1.2 _) h.2
  | add t values next hs hclash hu =>
    rw [World.sweeps, hs] at h
    obtain ⟨⟨ht, hnext⟩, hfree⟩ := h
    rw [hu]
    refine sweeps_running (sessions_set_session _ _ _) (hnext _) ?_
    rw [slots_set_session, slots_set_slots_of_ne _ (Ne.symm ht)]
    exact hfree
  | pick t which change next hs hu =>
    rw [World.sweeps, hs] at h
    obtain ⟨hsweeps, hfree⟩ := h
    rw [hu, World.sweeps, sessions_set_session]
    refine ⟨hfree, ?_⟩
    obtain hbefore | ⟨rfl, hwhich, hchange, hnext⟩ := hsweeps
    · exact .inl hbefore
    · refine .inr ⟨rfl, hwhich, hchange, hnext, fun n s hn hmatch => ?_⟩
      have hvisible := visible_of_not_owned (hfree s (List.mem_of_getElem? hn))
      simp only [World.targets]
      rw [show (w.slots t₀)[n]? = some s from hn]
      simpa [hvisible, ← hwhich] using hmatch
  | write t targets which change next hs hfree hu =>
    rw [World.sweeps, hs] at h
    obtain ⟨howned, hsweeps⟩ := h
    rw [hu]
    obtain ⟨ht, hnext⟩ | ⟨rfl, hwhich, hchange, hnext, htargets⟩ := hsweeps
    · refine sweeps_running (sessions_set_session _ _ _) (hnext _) ?_
      rw [slots_set_session, slots_set_slots_of_ne _ (Ne.symm ht)]
      exact howned
    · obtain ⟨result, hresult⟩ := hnext (rewritten i targets which change (w.slots t₀))
      refine sweeps_done ((sessions_set_session _ _ _).trans (congrArg Session.running hresult)) ?_
      rw [slots_set_session, slots_set_slots]
      intro s hmem hmatch
      obtain ⟨n, hn⟩ := List.mem_iff_getElem?.mp hmem
      rw [rewrite_slots, List.getElem?_mapIdx] at hn
      obtain ⟨before, hbefore, rfl⟩ := Option.map_eq_some_iff.mp hn
      have hunowned := howned before (List.mem_of_getElem? hbefore)
      have hvisible := visible_of_not_owned hunowned
      have hkept : (if targets n then before.rewrite i which change else before) ≠ before := by
        intro hsame
        rw [hsame] at hmatch
        have hcommitted : before.committed.any which₀ = true := by simpa [hunowned] using hmatch
        obtain ⟨row, hrow, hrow_match⟩ := (Option.any_eq_true _ _).mp hcommitted
        have hwritten : before.rewrite i which change = { before with pending := some (i, change row) } := by
          simp [Slot.rewrite, hvisible, hrow, ← hwhich, hrow_match]
        rw [if_pos (htargets n before hbefore hcommitted), hwritten] at hsame
        have howned_before : before.owned i = true := owned_of_pending (congrArg Slot.pending hsame).symm
        simp [hunowned] at howned_before
      split_ifs at hkept ⊢ with htarget
      · cases hrow : before.visible i with
        | none => simp [Slot.rewrite, hrow] at hkept
        | some row =>
          cases hrow_match : which row with
          | false => simp [Slot.rewrite, hrow, hrow_match] at hkept
          | true => simp [Slot.rewrite, hrow, hrow_match, hchange]
      · exact absurd rfl hkept

end sql
