import Iac.Sql.ReadCommitted.Slots
import Mathlib.Logic.Relation

namespace sql

variable {T ι : Type} {Row : T → Type} {ε α : Type} {R : Type} [DecidableEq ι]

/-- What client `i` starts from or goes on with: what it sees, the ids to come, and nobody else's open writes. -/
structure World.At (w : World ι Row ε α) (i : ι) (db : Db Row) : Prop where
  rows : w.view i = db.rows
  seq : w.seq = db.seq
  alone : ∀ t, ∀ s ∈ w.slots t, s.locked i = false

section Slots

variable {i : ι} {s : Slot ι R}

private theorem unlocked_rewrite {which : R → Bool} {change : R → Option R} (h : s.locked i = false) :
    (s.rewrite i which change).locked i = false := by
  rw [Slot.rewrite]
  split
  · split_ifs
    · simp [Slot.locked]
    · exact h
  · exact h

private theorem decided_of_unlocked {clashes : R → Bool} (h : s.locked i = false) : s.undecided i clashes = false := by
  cases hp : s.pending with
  | none => simp [Slot.undecided, hp]
  | some write =>
    obtain ⟨j, row⟩ := write
    obtain rfl : j = i := by simpa [Slot.locked, hp] using h
    simp [Slot.undecided, hp]

private theorem pending_commit (h : s.locked i = false) : (s.commit i).pending = none := by
  cases hp : s.pending with
  | none => simp [Slot.commit, hp]
  | some write =>
    obtain rfl : write.1 = i := by simpa [Slot.locked, hp] using h
    simp [Slot.commit, hp]

private theorem pending_rollback (h : s.locked i = false) : (s.rollback i).pending = none := by
  cases hp : s.pending with
  | none => simp [Slot.rollback, hp]
  | some write =>
    obtain rfl : write.1 = i := by simpa [Slot.locked, hp] using h
    simp [Slot.rollback, hp]

private theorem filterMap_rewrite (which : R → Bool) (change : R → Option R) (slots : List (Slot ι R)) :
    (slots.map (Slot.rewrite i which change)).filterMap (Slot.visible i) =
      (slots.filterMap (Slot.visible i)).filterMap (rewrite which change) := by
  rw [List.filterMap_map, List.filterMap_filterMap]
  exact List.filterMap_congr fun s _ => visible_rewrite_self

end Slots

variable [DecidableEq T] {w : World ι Row ε α} {i : ι} {db : Db Row}

private theorem alone_set_slots (h : w.At i db) (t : T) {slots : List (Slot ι (Row t))}
    (hslots : ∀ s ∈ slots, s.locked i = false) : ∀ u, ∀ s ∈ (w.set_slots t slots).slots u, s.locked i = false := by
  intro u
  by_cases hu : u = t
  · subst hu
    simpa [World.set_slots] using hslots
  · simpa [World.set_slots, Function.update_of_ne hu] using h.alone u

/-- After an UPDATE or a DELETE. -/
private theorem at_write (h : w.At i db) (t : T) (which : Row t → Bool) (change : Row t → Option (Row t))
    (session : Session Row ε α) :
    ((w.set_slots t ((w.slots t).map (Slot.rewrite i which change))).set_session i session).At i
      (db.set_rows t ((db.rows t).filterMap (rewrite which change))) := by
  refine ⟨?_, h.seq, alone_set_slots h t fun s hs => ?_⟩
  · rw [view_set_slots, filterMap_rewrite, Db.set_rows, ← h.rows]
    rfl
  · obtain ⟨old, hold, rfl⟩ := List.mem_map.mp hs
    exact unlocked_rewrite (h.alone t old hold)

/-- After an INSERT. -/
private theorem at_insert (h : w.At i db) (t : T) (row : Row t) (session : Session Row ε α) :
    (((w.next_id t).set_slots t (w.slots t ++ [⟨none, some (i, some row)⟩])).set_session i session).At i
      ((db.next_id t).set_rows t (db.rows t ++ [row])) := by
  have hnext : (w.next_id t).At i (db.next_id t) :=
    ⟨h.rows, by rw [World.next_id, Db.next_id, h.seq], h.alone⟩
  refine ⟨?_, hnext.seq, alone_set_slots hnext t fun s hs => ?_⟩
  · rw [view_set_slots, List.filterMap_append, Db.set_rows, hnext.rows, ← h.rows]
    simp [Slot.visible, World.view]
  · obtain hold | hnew := List.mem_append.mp hs
    · exact h.alone t s hold
    · obtain rfl := List.mem_singleton.mp hnew
      simp [Slot.locked]

variable [Schema Row]

/-- Statements of client `i` lead from one state to another, with no step of another client between them. -/
def World.Reaches (i : ι) : World ι Row ε α → World ι Row ε α → Prop :=
  Relation.ReflTransGen fun v u => v.step (.advance i) = some u

/-- A step that leaves the client in its transaction commits nothing. -/
private theorem committed_of_running {v u : World ι Row ε α} {p : Prog Row ε α} (hstep : v.step (.advance i) = some u)
    (hs : u.sessions i = .running p) : u.committed = v.committed := by
  refine committed_of_moved (moved_of_step hstep) ?_
  rintro ⟨a, ha⟩
  cases hs.symm.trans ha

private theorem advance_running {p : Prog Row ε α} (hs : w.sessions i = .running p) (hat : w.At i db) :
    ∃ v, w.Reaches i v ∧ v.sessions i = .running (.done (p.run db).1) ∧ v.At i (p.run db).2 ∧
      v.committed = w.committed ∧ ∀ j, j ≠ i → v.sessions j = w.sessions j := by
  induction p generalizing w db with
  | done result => exact ⟨w, .refl, hs, hat, rfl, fun _ _ => rfl⟩
  | select next ih =>
    have hstep : w.step (.advance i) = some (w.set_session i (.running (next db.rows))) := by
      rw [World.step, World.advance, hs, hat.rows]
    obtain ⟨v, hreaches, hsession, hv, hcommitted, hothers⟩ :=
      ih db.rows (w := w.set_session i (.running (next db.rows))) (sessions_set_session _ _ _) ⟨hat.rows, hat.seq, hat.alone⟩
    exact ⟨v, .head hstep hreaches, hsession, hv, hcommitted, fun j hj => (hothers j hj).trans (Function.update_of_ne hj _ _)⟩
  | update t which change next ih =>
    let picked := w.set_session i (.updating t (w.targets i t which) which change next)
    have hpick : w.step (.advance i) = some picked := by rw [World.step, World.advance, hs]
    have htargets (n : Nat) (s : Slot ι (Row t)) (hn : (w.slots t)[n]? = some s) :
        w.targets i t which n = (s.visible i).any which := by rw [World.targets, hn]
    have hfree : waits i (w.targets i t which) (w.slots t) = false := by
      rw [waits, List.any_eq_false]
      intro b hb
      obtain ⟨n, hn, rfl⟩ := List.mem_mapIdx.mp hb
      simp [hat.alone t _ (List.getElem_mem hn)]
    have hrows : (w.slots t).filterMap (Slot.visible i) = db.rows t := congrFun hat.rows t
    let written := (w.set_slots t ((w.slots t).map (Slot.rewrite i which change))).set_session i
      (.running (next (((db.rows t).filter which).map (answer change))))
    have hwritten : written.sessions i = .running (next (((db.rows t).filter which).map (answer change))) :=
      sessions_set_session _ _ _
    have hwrite : picked.step (.advance i) = some written := by
      rw [World.step, World.advance, sessions_set_session]
      dsimp only
      rw [slots_set_session, if_neg (by simp [hfree]), rewrite_slots_eq htargets, rewritten_eq htargets, hrows]
      simp [written, picked, World.set_session, World.set_slots]
    obtain ⟨v, hreaches, hsession, hv, hcommitted, hothers⟩ := ih _ hwritten (at_write hat t which change _)
    refine ⟨v, .head hpick (.head hwrite hreaches), hsession, hv, ?_, fun j hj => ?_⟩
    · rw [hcommitted, committed_of_running hwrite hwritten]
      rfl
    · rw [hothers j hj]
      exact Function.update_of_ne hj _ _
  | insert t values next ih =>
    have hdecided : (w.slots t).any (Slot.undecided i (Schema.clash t (values (db.seq t)))) = false := by
      rw [List.any_eq_false]
      intro s hs
      simp [decided_of_unlocked (hat.alone t s hs)]
    cases hclash : (db.rows t).any (Schema.clash t (values (db.seq t))) with
    | true =>
      let violated := (w.next_id t).set_session i (.running (next none))
      have hviolated : violated.sessions i = .running (next none) := sessions_set_session _ _ _
      have hstep : w.step (.advance i) = some violated := by
        rw [World.step, World.advance, hs]
        dsimp only
        rw [hat.seq, if_neg (by simp [hdecided]), hat.rows, if_pos hclash]
      have hat' : violated.At i (db.next_id t) := ⟨hat.rows, by rw [Db.next_id, ← hat.seq]; rfl, hat.alone⟩
      obtain ⟨v, hreaches, hsession, hv, hcommitted, hothers⟩ := ih none hviolated hat'
      rw [Prog.run, if_pos hclash]
      exact ⟨v, .head hstep hreaches, hsession, hv, hcommitted, fun j hj => (hothers j hj).trans (Function.update_of_ne hj _ _)⟩
    | false =>
      let added := ((w.next_id t).set_slots t (w.slots t ++ [⟨none, some (i, some (values (db.seq t)))⟩])).set_session i
        (.running (next (some (values (db.seq t)))))
      have hadded : added.sessions i = .running (next (some (values (db.seq t)))) := sessions_set_session _ _ _
      have hstep : w.step (.advance i) = some added := by
        rw [World.step, World.advance, hs]
        dsimp only
        rw [hat.seq, if_neg (by simp [hdecided]), hat.rows, if_neg (by simp [hclash])]
      obtain ⟨v, hreaches, hsession, hv, hcommitted, hothers⟩ := ih _ hadded (at_insert hat t _ _)
      rw [Prog.run, if_neg (by simp [hclash])]
      refine ⟨v, .head hstep hreaches, hsession, hv, ?_, fun j hj => ?_⟩
      · rw [hcommitted, committed_of_running hstep hadded]
      · rw [hothers j hj]
        exact Function.update_of_ne hj _ _

/-- Nobody has open writes. -/
def World.Quiet (w : World ι Row ε α) : Prop := ∀ t, ∀ s ∈ w.slots t, s.pending = none

/-- A transaction that runs while nobody has open writes, with no step of another client
between its own, does what it does on the committed rows. -/
theorem exec_alone {p : Prog Row ε α} (hs : w.sessions i = .running p) (hquiet : w.Quiet) :
    ∃ u, w.Reaches i u ∧ u.sessions i = .finished (p.exec ⟨w.committed, w.seq⟩).1 ∧ u.Quiet ∧
      u.committed = (p.exec ⟨w.committed, w.seq⟩).2.rows ∧ u.seq = (p.exec ⟨w.committed, w.seq⟩).2.seq ∧
      ∀ j, j ≠ i → u.sessions j = w.sessions j := by
  have hvisible (t : T) (s : Slot ι (Row t)) (hs : s ∈ w.slots t) : s.visible i = s.committed := by
    simp [Slot.visible, hquiet t s hs]
  have hat : w.At i ⟨w.committed, w.seq⟩ := by
    refine ⟨?_, rfl, fun t s hs => by simp [Slot.locked, hquiet t s hs]⟩
    funext t
    exact List.filterMap_congr (hvisible t)
  obtain ⟨v, hreaches, hsession, hv, hcommitted, hothers⟩ := advance_running hs hat
  have hend : v.step (.advance i) = some (v.finish i (p.run ⟨w.committed, w.seq⟩).1) := by
    rw [World.step, World.advance, hsession]
  have hmoved : v.Moved i _ := moved_of_step hend
  refine ⟨_, hreaches.tail hend, ?_⟩
  cases hrun : p.run ⟨w.committed, w.seq⟩ with
  | mk result db =>
    rw [hrun] at hv hmoved
    have hsessions (j : ι) (hj : j ≠ i) : (v.finish i result).sessions j = w.sessions j :=
      (sessions_of_ne hmoved hj).trans (hothers j hj)
    cases result with
    | ok a =>
      rw [exec_of_run_ok hrun]
      refine ⟨sessions_set_session _ _ _, fun t s hs => ?_, ?_, hv.seq, hsessions⟩
      · obtain ⟨old, hold, rfl⟩ := List.mem_map.mp hs
        exact pending_commit (hv.alone t old hold)
      · rw [committed_finish, hv.rows]
    | error e =>
      rw [exec_of_run_error hrun]
      refine ⟨sessions_set_session _ _ _, fun t s hs => ?_, ?_, hv.seq, hsessions⟩
      · obtain ⟨old, hold, rfl⟩ := List.mem_map.mp hs
        exact pending_rollback (hv.alone t old hold)
      · rw [committed_of_moved hmoved (by simp [World.succeeded, World.finish]), hcommitted]

end sql
