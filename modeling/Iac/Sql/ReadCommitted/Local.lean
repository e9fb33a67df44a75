import Iac.Sql.Program
import Iac.Sql.ReadCommitted

namespace sql

variable {T ι : Type} {Row : T → Type} {ε α : Type} {R : Type} [DecidableEq ι]

section Slots

variable {i j : ι} {which : R → Bool} {change : R → Option R} {s : Slot ι R}

theorem visible_rewrite_self : (s.rewrite i which change).visible i = (s.visible i).bind (rewrite which change) := by
  cases hrow : s.visible i with
  | none => simp [Slot.rewrite, hrow]
  | some row =>
    cases hwhich : which row with
    | true =>
      have hwritten : s.rewrite i which change = { s with pending := some (i, change row) } := by
        simp [Slot.rewrite, hrow, hwhich]
      simp [hwritten, Slot.visible, rewrite, hwhich]
    | false => simp [Slot.rewrite, hrow, hwhich, rewrite]

theorem visible_rewrite_of_ne (hne : j ≠ i) (hfree : s.locked j = false) :
    (s.rewrite j which change).visible i = s.visible i := by
  have hold : s.visible i = s.committed := by
    cases hp : s.pending with
    | none => simp [Slot.visible, hp]
    | some p =>
      obtain ⟨k, row⟩ := p
      obtain rfl : k = j := by simpa [Slot.locked, hp] using hfree
      simp [Slot.visible, hp, hne]
  rw [hold]
  simp only [Slot.rewrite]
  split
  · split_ifs
    · simp [Slot.visible, hne]
    · exact hold
  · exact hold

theorem committed_rewrite : (s.rewrite i which change).committed = s.committed := by
  simp only [Slot.rewrite]
  split
  · split_ifs <;> rfl
  · rfl

theorem map_committed_rewrite_slots (i : ι) (targets : Nat → Bool) (which : R → Bool) (change : R → Option R)
    (slots : List (Slot ι R)) :
    (rewrite_slots i targets which change slots).map Slot.committed = slots.map Slot.committed := by
  refine List.ext_getElem? fun n => ?_
  rw [List.getElem?_map, List.getElem?_map, rewrite_slots, List.getElem?_mapIdx]
  cases slots[n]? with
  | none => rfl
  | some s =>
    simp only [Option.map_some]
    split_ifs
    · rw [committed_rewrite]
    · rfl

theorem committed_commit : (s.commit i).committed = s.visible i := by
  cases hp : s.pending with
  | none => simp [Slot.commit, Slot.visible, hp]
  | some p => by_cases h : p.1 = i <;> simp [Slot.commit, Slot.visible, hp, h]

theorem committed_rollback : (s.rollback i).committed = s.committed := by
  cases hp : s.pending with
  | none => simp [Slot.rollback, hp]
  | some p => by_cases h : p.1 = i <;> simp [Slot.rollback, hp, h]

theorem pending_of_rollback {p : ι × Option R} (h : (s.rollback i).pending = some p) : s.pending = some p := by
  cases hp : s.pending with
  | none => simp [Slot.rollback, hp] at h
  | some q =>
    by_cases hq : q.1 = i
    · simp [Slot.rollback, hp, hq] at h
    · simpa [Slot.rollback, hp, hq] using h

theorem visible_rollback_of_ne (hne : j ≠ i) : (s.rollback j).visible i = s.visible i := by
  cases hp : s.pending with
  | none => simp [Slot.rollback, hp]
  | some p =>
    by_cases h : p.1 = j
    · have hi : p.1 ≠ i := fun heq => hne (h.symm.trans heq)
      simp [Slot.rollback, Slot.visible, hp, h, hne]
    · simp [Slot.rollback, hp, h]

/-- An UPDATE whose targets are those of the current snapshot rewrites what matches. -/
theorem rewrite_slots_eq {slots : List (Slot ι R)} {targets : Nat → Bool}
    (h : ∀ n s, slots[n]? = some s → targets n = (s.visible i).any which) :
    rewrite_slots i targets which change slots = slots.map (Slot.rewrite i which change) := by
  refine List.ext_getElem? fun n => ?_
  rw [rewrite_slots, List.getElem?_mapIdx, List.getElem?_map]
  cases hs : slots[n]? with
  | none => rfl
  | some s =>
    simp only [Option.map_some, h n s hs]
    cases hrow : s.visible i with
    | none => simp [Slot.rewrite, hrow]
    | some row => cases hwhich : which row <;> simp [Slot.rewrite, hrow, hwhich]

theorem rewritten_eq {slots : List (Slot ι R)} {targets : Nat → Bool}
    (h : ∀ n s, slots[n]? = some s → targets n = (s.visible i).any which) :
    rewritten i targets which change slots =
      ((slots.filterMap (Slot.visible i)).filter which).map (answer change) := by
  have hmap : (slots.mapIdx fun n s => if targets n then ((s.visible i).filter which).map (answer change) else none) =
      slots.map fun s => ((s.visible i).filter which).map (answer change) := by
    refine List.ext_getElem? fun n => ?_
    rw [List.getElem?_mapIdx, List.getElem?_map]
    cases hs : slots[n]? with
    | none => rfl
    | some s =>
      simp only [Option.map_some, h n s hs]
      cases hrow : s.visible i with
      | none => simp
      | some row => cases hwhich : which row <;> simp [Option.filter, hwhich]
  rw [rewritten, hmap]
  clear h hmap
  induction slots with
  | nil => rfl
  | cons s slots ih =>
    rw [List.map_cons, List.filterMap_cons]
    cases hrow : s.visible i with
    | none => simpa using ih
    | some row =>
      have hfilter : (some row).filter which = if which row then some row else none := rfl
      cases hwhich : which row <;> simp [hfilter, hwhich, ih]

/-- An UPDATE of a client on rows that nobody, not even that client, is
writing: it leaves a slot as it is or writes over it. -/
theorem rewrite_slots_get {slots : List (Slot ι R)} {targets : Nat → Bool}
    (hclean : ∀ n s, slots[n]? = some s → targets n = true → s.pending = none) (n : Nat) :
    (rewrite_slots i targets which change slots)[n]? = slots[n]? ∨ ∃ row, slots[n]? = some ⟨some row, none⟩ ∧
      targets n = true ∧ which row = true ∧
      (rewrite_slots i targets which change slots)[n]? = some ⟨some row, some (i, change row)⟩ := by
  rw [rewrite_slots, List.getElem?_mapIdx]
  cases hs : slots[n]? with
  | none => exact .inl rfl
  | some s =>
    cases htarget : targets n with
    | false => exact .inl (by simp)
    | true =>
      have hpending := hclean n s hs htarget
      have hvisible : s.visible i = s.committed := by simp [Slot.visible, hpending]
      cases hrow : s.committed with
      | none => exact .inl (by simp [Slot.rewrite, hvisible, hrow])
      | some row =>
        cases hwhich : which row with
        | false => exact .inl (by simp [Slot.rewrite, hvisible, hrow, hwhich])
        | true =>
          refine .inr ⟨row, ?_, rfl, hwhich, ?_⟩
          · rw [← hrow, ← hpending]
          · simp [Slot.rewrite, hvisible, hrow, hwhich]

theorem mem_rewritten {slots : List (Slot ι R)} {targets : Nat → Bool}
    (hclean : ∀ n s, slots[n]? = some s → targets n = true → s.pending = none) (out : R) :
    out ∈ rewritten i targets which change slots ↔ ∃ n row, slots[n]? = some ⟨some row, none⟩ ∧ targets n = true ∧
      which row = true ∧ out = answer change row := by
  rw [rewritten, List.reduceOption_mem_iff, List.mem_iff_getElem?]
  refine exists_congr fun n => ?_
  rw [List.getElem?_mapIdx]
  cases hs : slots[n]? with
  | none => simp
  | some s =>
    cases htarget : targets n with
    | false => simp
    | true =>
      obtain ⟨committed, pending⟩ := s
      obtain rfl : pending = none := hclean n _ hs htarget
      cases committed with
      | none => simp [Slot.visible]
      | some row =>
        have hfilter : (some row).filter which = if which row then some row else none := rfl
        cases hwhich : which row with
        | false => simp [Slot.visible, hfilter, hwhich]
        | true =>
          simp only [Slot.visible, hfilter, hwhich, if_pos, Option.map_some, Option.some.injEq]
          exact ⟨fun h => ⟨row, rfl, trivial, hwhich, h.symm⟩, fun ⟨_, hrow, _, _, h⟩ => by simp_all⟩

end Slots

/-- What is left to do of a transaction. -/
def Session.todo : Session Row ε α → Option (Prog Row ε α)
  | .running p => some p
  | .updating t _ which change next => some (.update t which change next)
  | .finished _ => none

def Action.client : Action ι ε → ι
  | .advance i | .abort i _ => i

section Steps

variable [DecidableEq T] [Schema Row]

/-- What a step of client `i` does to the world. -/
inductive World.Moved (w : World ι Row ε α) (i : ι) (u : World ι Row ε α) : Prop where
  | commit (a : α) (hs : w.sessions i = .running (.done (.ok a))) (hu : u = w.finish i (.ok a))
  | stop (e : ε) (hs : ∀ result, w.sessions i ≠ .finished result) (hu : u = w.finish i (.error e))
  | read (next : Rows Row → Prog Row ε α) (hs : w.sessions i = .running (.select next))
      (hu : u = w.set_session i (.running (next (w.view i))))
  | pick (t : T) (which : Row t → Bool) (change : Row t → Option (Row t)) (next : List (Row t) → Prog Row ε α)
      (hs : w.sessions i = .running (.update t which change next))
      (hu : u = w.set_session i (.updating t (w.targets i t which) which change next))
  | write (t : T) (targets : Nat → Bool) (which : Row t → Bool) (change : Row t → Option (Row t))
      (next : List (Row t) → Prog Row ε α) (hs : w.sessions i = .updating t targets which change next)
      (hfree : ∀ n s, (w.slots t)[n]? = some s → targets n = true → s.locked i = false)
      (hu : u = (w.set_slots t (rewrite_slots i targets which change (w.slots t))).set_session i
        (.running (next (rewritten i targets which change (w.slots t)))))
  | violate (t : T) (values : Nat → Row t) (next : Option (Row t) → Prog Row ε α)
      (hs : w.sessions i = .running (.insert t values next))
      (hclash : (w.view i t).any (Schema.clash t (values (w.seq t))) = true)
      (hu : u = (w.next_id t).set_session i (.running (next none)))
  | add (t : T) (values : Nat → Row t) (next : Option (Row t) → Prog Row ε α)
      (hs : w.sessions i = .running (.insert t values next))
      (hclash : (w.view i t).any (Schema.clash t (values (w.seq t))) = false)
      (hu : u = ((w.next_id t).set_slots t (w.slots t ++ [⟨none, some (i, some (values (w.seq t)))⟩])).set_session i
        (.running (next (some (values (w.seq t))))))

theorem free_of_not_waits {i : ι} {targets : Nat → Bool} {slots : List (Slot ι R)}
    (h : waits i targets slots = false) {n : Nat} {s : Slot ι R} (hs : slots[n]? = some s) (htarget : targets n = true) :
    s.locked i = false := by
  simp only [waits, List.any_eq_false] at h
  have hmem : (targets n && s.locked i) ∈ slots.mapIdx fun n s => targets n && s.locked i := by
    refine List.mem_iff_getElem?.mpr ⟨n, ?_⟩
    rw [List.getElem?_mapIdx, hs]
    rfl
  simpa [htarget] using h _ hmem

theorem moved_of_step {w u : World ι Row ε α} {a : Action ι ε} (h : w.step a = some u) : w.Moved a.client u := by
  cases a with
  | abort i e =>
    simp only [World.step] at h
    split at h
    · cases h
    · rename_i hs
      exact .stop e (fun result heq => hs result heq) (Option.some.inj h).symm
  | advance i =>
    simp only [World.step, World.advance] at h
    split at h
    · rename_i result hs
      cases result with
      | ok a => exact .commit a hs (Option.some.inj h).symm
      | error e => exact .stop e (by simp [Action.client, hs]) (Option.some.inj h).symm
    · rename_i next hs
      exact .read next hs (Option.some.inj h).symm
    · rename_i t which change next hs
      exact .pick t which change next hs (Option.some.inj h).symm
    · rename_i t targets which change next hs
      split_ifs at h with hwaits
      exact .write t targets which change next hs
        (fun n s hs htarget => free_of_not_waits (Bool.eq_false_iff.mpr hwaits) hs htarget) (Option.some.inj h).symm
    · rename_i t values next hs
      split_ifs at h with hwaits hclash
      · exact .violate t values next hs hclash (Option.some.inj h).symm
      · exact .add t values next hs (Bool.eq_false_iff.mpr hclash) (Option.some.inj h).symm
    · cases h

variable {w u : World ι Row ε α} {i j : ι}

/-- Client `i` has committed. -/
def World.succeeded (w : World ι Row ε α) (i : ι) : Prop :=
  ∃ a, w.sessions i = .finished (.ok a)

theorem commit_of_succeeded (h : w.Moved i u) {a : α} (hs : u.sessions i = .finished (.ok a)) :
    w.sessions i = .running (.done (.ok a)) ∧ u = w.finish i (.ok a) := by
  cases h with
  | commit b hs' hu =>
    obtain rfl : b = a := by simpa [hu, World.finish, World.set_session] using hs
    exact ⟨hs', hu⟩
  | stop e hs' hu => simp [hu, World.finish, World.set_session] at hs
  | read next hs' hu | pick t which change next hs' hu | write t targets which change next hs' hfree hu
  | violate t values next hs' hclash hu | add t values next hs' hclash hu =>
    simp [hu, World.set_session] at hs

omit [DecidableEq T] [Schema Row] in
theorem succeeded_of_commit {a : α} (hu : u = w.finish i (.ok a)) : u.succeeded i :=
  ⟨a, by simp [hu, World.finish, World.set_session]⟩

theorem not_finished_of_moved (h : w.Moved i u) (result : Except ε α) : w.sessions i ≠ .finished result := by
  cases h with
  | stop e hs hu => exact hs result
  | commit a hs hu | read next hs hu | pick t which change next hs hu | write t targets which change next hs hfree hu
  | violate t values next hs hclash hu | add t values next hs hclash hu => simp [hs]

theorem sessions_of_ne (h : w.Moved i u) (hne : j ≠ i) : u.sessions j = w.sessions j := by
  cases h with
  | commit a hs hu | stop e hs hu =>
    subst hu
    simp [World.finish, World.set_session, Function.update_of_ne hne]
  | read next hs hu | pick t which change next hs hu | write t targets which change next hs hfree hu
  | violate t values next hs hclash hu | add t values next hs hclash hu =>
    subst hu
    simp [World.set_session, World.set_slots, World.next_id, Function.update_of_ne hne]

theorem finished_iff_of_moved (h : w.Moved i u) (hkeep : ¬ u.succeeded i) (j : ι) (a : α) :
    u.sessions j = .finished (.ok a) ↔ w.sessions j = .finished (.ok a) := by
  by_cases hj : j = i
  · subst hj
    exact iff_of_false (fun ha => hkeep ⟨a, ha⟩) (not_finished_of_moved h _)
  · rw [sessions_of_ne h hj]

theorem succeeded_iff_of_moved (h : w.Moved i u) (hkeep : ¬ u.succeeded i) (j : ι) : u.succeeded j ↔ w.succeeded j :=
  exists_congr fun a => finished_iff_of_moved h hkeep j a

/-- A step of another client other than its commit leaves every version that
`i` sees, and adds at most a row that `i` does not see. -/
private theorem visible_of_ne (h : w.Moved j u) (hne : j ≠ i) (hkeep : ¬ u.succeeded j) (t : T) :
    (u.slots t).map (Slot.visible i) = (w.slots t).map (Slot.visible i) ∨
      (u.slots t).map (Slot.visible i) = (w.slots t).map (Slot.visible i) ++ [none] := by
  cases h with
  | commit a hs hu => exact absurd (succeeded_of_commit hu) hkeep
  | read next hs hu | pick t' which change next hs hu | violate t' values next hs hclash hu => exact .inl (by rw [hu]; rfl)
  | stop e hs hu =>
    refine .inl ?_
    rw [hu]
    change ((w.slots t).map (Slot.rollback j)).map (Slot.visible i) = _
    rw [List.map_map]
    exact List.map_congr_left fun s _ => visible_rollback_of_ne hne
  | write t' targets which change next hs hfree hu =>
    refine .inl ?_
    rw [hu]
    change (Function.update w.slots t' (rewrite_slots j targets which change (w.slots t')) t).map (Slot.visible i) = _
    by_cases ht : t = t'
    · subst ht
      rw [Function.update_self]
      refine List.ext_getElem? fun n => ?_
      rw [List.getElem?_map, List.getElem?_map, rewrite_slots, List.getElem?_mapIdx]
      cases hn : (w.slots t)[n]? with
      | none => rfl
      | some s =>
        simp only [Option.map_some]
        split_ifs with htarget
        · rw [visible_rewrite_of_ne hne (hfree n s hn htarget)]
        · rfl
    · rw [Function.update_of_ne ht]
  | add t' values next hs hclash hu =>
    rw [hu]
    change (Function.update w.slots t' (w.slots t' ++ [⟨none, some (j, some (values (w.seq t')))⟩]) t).map (Slot.visible i) = _ ∨
      (Function.update w.slots t' (w.slots t' ++ [⟨none, some (j, some (values (w.seq t')))⟩]) t).map (Slot.visible i) = _
    by_cases ht : t = t'
    · subst ht
      rw [Function.update_self]
      exact .inr (by simp [Slot.visible, hne])
    · rw [Function.update_of_ne ht]
      exact .inl rfl

omit [DecidableEq T] [Schema Row] in
private theorem view_eq (w : World ι Row ε α) (i : ι) (t : T) :
    w.view i t = ((w.slots t).map (Slot.visible i)).filterMap id := by
  rw [List.filterMap_map]
  rfl

/-- What a client sees stays when another one makes a step other than its commit. -/
theorem view_of_ne (h : w.Moved j u) (hne : j ≠ i) (hkeep : ¬ u.succeeded j) : u.view i = w.view i := by
  funext t
  rw [view_eq, view_eq]
  obtain heq | heq := visible_of_ne h hne hkeep t
  · rw [heq]
  · rw [heq, List.filterMap_append]
    simp

omit [DecidableEq T] [Schema Row] in
private theorem targets_eq (w : World ι Row ε α) (i : ι) (t : T) (which : Row t → Bool) (n : Nat) :
    w.targets i t which n = ((((w.slots t).map (Slot.visible i))[n]?).getD none).any which := by
  rw [World.targets, List.getElem?_map]
  cases (w.slots t)[n]? <;> rfl

theorem targets_of_ne (h : w.Moved j u) (hne : j ≠ i) (hkeep : ¬ u.succeeded j) (t : T) (which : Row t → Bool) :
    u.targets i t which = w.targets i t which := by
  funext n
  rw [targets_eq, targets_eq]
  obtain heq | heq := visible_of_ne h hne hkeep t
  · rw [heq]
  · rw [heq]
    generalize (w.slots t).map (Slot.visible i) = versions
    obtain hlt | rfl | hgt := Nat.lt_trichotomy n versions.length
    · rw [List.getElem?_append_left hlt]
    · simp
    · rw [List.getElem?_eq_none (by simp; omega), List.getElem?_eq_none (by omega)]

/-- Only a commit changes what is committed. -/
theorem committed_of_moved (h : w.Moved j u) (hkeep : ¬ u.succeeded j) : u.committed = w.committed := by
  have hset (v : World ι Row ε α) (t : T) (slots : List (Slot ι (Row t))) (hslots : v.slots = w.slots)
      (hcommitted : slots.filterMap Slot.committed = (w.slots t).filterMap Slot.committed) (session : Session Row ε α) :
      ((v.set_slots t slots).set_session j session).committed = w.committed := by
    funext t'
    change (Function.update v.slots t slots t').filterMap Slot.committed = (w.slots t').filterMap Slot.committed
    by_cases ht : t' = t
    · subst ht
      rwa [Function.update_self]
    · rw [Function.update_of_ne ht, hslots]
  cases h with
  | commit a hs hu => exact absurd (succeeded_of_commit hu) hkeep
  | read next hs hu | pick t which change next hs hu | violate t values next hs hclash hu => rw [hu]; rfl
  | stop e hs hu =>
    rw [hu]
    funext t
    change ((w.slots t).map (Slot.rollback j)).filterMap Slot.committed = (w.slots t).filterMap Slot.committed
    rw [List.filterMap_map]
    exact List.filterMap_congr fun s _ => committed_rollback
  | write t targets which change next hs hfree hu =>
    rw [hu]
    refine hset w t _ rfl ?_ _
    have hfilter := congrArg (List.filterMap id) (map_committed_rewrite_slots j targets which change (w.slots t))
    rwa [List.filterMap_map, List.filterMap_map] at hfilter
  | add t values next hs hclash hu =>
    rw [hu]
    exact hset (w.next_id t) t _ rfl (by simp) _

omit [DecidableEq T] [Schema Row] in
/-- A commit makes what its client saw the committed state. -/
theorem committed_finish (w : World ι Row ε α) (i : ι) (a : α) : (w.finish i (.ok a)).committed = w.view i := by
  funext t
  change ((w.slots t).map (Slot.commit i)).filterMap Slot.committed = (w.slots t).filterMap (Slot.visible i)
  rw [List.filterMap_map]
  exact List.filterMap_congr fun s _ => committed_commit

/-- The rest of client `i`'s transaction, from what it sees now, ends in an error or in `Q`. -/
def World.ends (w : World ι Row ε α) (i : ι) (Q : α → Rows Row → Prop) : Prop :=
  match w.sessions i with
  | .running p => p.wp (w.view i) Q
  | .updating t targets which change next =>
    targets = w.targets i t which ∧ (Prog.update t which change next).wp (w.view i) Q
  | .finished _ => True

variable {Q : α → Rows Row → Prop}

theorem ends_of_ne (h : w.Moved j u) (hne : j ≠ i) (hkeep : ¬ u.succeeded j) (hends : w.ends i Q) : u.ends i Q := by
  rw [World.ends, sessions_of_ne h (Ne.symm hne), view_of_ne h hne hkeep]
  rw [World.ends] at hends
  cases hs : w.sessions i with
  | running p => rwa [hs] at hends
  | finished result => trivial
  | updating t targets which change next =>
    rw [hs] at hends
    exact ⟨hends.1.trans (targets_of_ne h hne hkeep t which).symm, hends.2⟩

omit [DecidableEq T] [Schema Row] in
@[simp] theorem sessions_set_session (w : World ι Row ε α) (i : ι) (session : Session Row ε α) :
    (w.set_session i session).sessions i = session := by
  simp [World.set_session]

omit [DecidableEq T] [Schema Row] in
theorem sessions_of_set {w v u : World ι Row ε α} {i : ι} {session : Session Row ε α}
    (hu : u = v.set_session i session) (hv : v.sessions = w.sessions) (j : ι) (hj : j ≠ i) : u.sessions j = w.sessions j := by
  rw [hu, ← hv]
  exact Function.update_of_ne hj _ _

omit [DecidableEq T] [Schema Row] in
@[simp] theorem slots_set_session (w : World ι Row ε α) (i : ι) (session : Session Row ε α) :
    (w.set_session i session).slots = w.slots := rfl

omit [DecidableEq ι] [Schema Row] in
@[simp] theorem slots_set_slots (w : World ι Row ε α) (t : T) (slots : List (Slot ι (Row t))) :
    (w.set_slots t slots).slots t = slots := by
  simp [World.set_slots]

omit [DecidableEq ι] [Schema Row] in
@[simp] theorem slots_set_slots_of_ne (w : World ι Row ε α) {t t' : T} (h : t' ≠ t) (slots : List (Slot ι (Row t))) :
    (w.set_slots t slots).slots t' = w.slots t' := by
  simp [World.set_slots, Function.update_of_ne h]

omit [DecidableEq ι] [Schema Row] in
@[simp] theorem slots_next_id (w : World ι Row ε α) (t : T) : (w.next_id t).slots = w.slots := rfl

omit [Schema Row] in
theorem view_set_slots (w : World ι Row ε α) (i : ι) (t : T) (slots : List (Slot ι (Row t)))
    (session : Session Row ε α) : ((w.set_slots t slots).set_session i session).view i =
      Function.update (w.view i) t (slots.filterMap (Slot.visible i)) := by
  funext t'
  change (Function.update w.slots t slots t').filterMap (Slot.visible i) = _
  by_cases ht : t' = t
  · subst ht
    rw [Function.update_self, Function.update_self]
  · rw [Function.update_of_ne ht, Function.update_of_ne ht]
    rfl

private theorem ends_running {p : Prog Row ε α} (hs : u.sessions i = .running p) (h : p.wp (u.view i) Q) : u.ends i Q := by
  rw [World.ends, hs]
  exact h

/-- Executing a statement of the transaction leaves the rest of it to do. -/
theorem ends_of_self (h : w.Moved i u) (hends : w.ends i Q) : u.ends i Q := by
  cases h with
  | commit a hs hu => rw [hu]; simp [World.ends, World.finish, World.set_session]
  | stop e hs hu => rw [hu]; simp [World.ends, World.finish, World.set_session]
  | read next hs hu =>
    rw [World.ends, hs] at hends
    rw [hu]
    exact ends_running (sessions_set_session _ _ _) hends
  | pick t which change next hs hu =>
    rw [World.ends, hs] at hends
    rw [hu, World.ends]
    simp only [World.set_session, Function.update_self]
    exact ⟨rfl, hends⟩
  | write t targets which change next hs hfree hu =>
    rw [World.ends, hs] at hends
    obtain ⟨htargets, hends⟩ := hends
    have hcurrent : ∀ n s, (w.slots t)[n]? = some s → targets n = (s.visible i).any which := by
      intro n s hn
      simp [htargets, World.targets, hn]
    rw [hu]
    refine ends_running (sessions_set_session _ _ _) ?_
    rw [view_set_slots, rewrite_slots_eq hcurrent, rewritten_eq hcurrent, List.filterMap_map]
    have hview : (w.slots t).filterMap (Slot.visible i ∘ Slot.rewrite i which change) =
        (w.view i t).filterMap (rewrite which change) := by
      rw [World.view, List.filterMap_filterMap]
      exact List.filterMap_congr fun s _ => visible_rewrite_self
    rw [hview]
    exact hends
  | violate t values next hs hclash hu =>
    rw [World.ends, hs] at hends
    have hnext := hends (w.seq t)
    rw [if_pos hclash] at hnext
    rw [hu]
    exact ends_running (sessions_set_session _ _ _) hnext
  | add t values next hs hclash hu =>
    rw [World.ends, hs] at hends
    have hnext := hends (w.seq t)
    rw [if_neg (by simp [hclash])] at hnext
    rw [hu]
    refine ends_running (sessions_set_session _ _ _) ?_
    have hview : (w.slots t ++ [(⟨none, some (i, some (values (w.seq t)))⟩ : Slot ι (Row t))]).filterMap (Slot.visible i) =
        w.view i t ++ [values (w.seq t)] := by
      simp [List.filterMap_append, Slot.visible, World.view]
    rw [view_set_slots, hview]
    exact hnext

/-- The whole transaction ends as its program does, as long as no other commits. -/
theorem ends_start {db : Db Row} {progs : ι → Prog Row ε α} (h : (progs i).wp db.rows Q) :
    (World.start db progs).ends i Q := by
  refine ends_running rfl ?_
  have hview : (World.start db progs).view i = db.rows := by
    funext t
    change ((db.rows t).map fun row => (⟨some row, none⟩ : Slot ι (Row t))).filterMap (Slot.visible i) = db.rows t
    rw [List.filterMap_map]
    exact List.filterMap_some
  rwa [hview]

end Steps

end sql

namespace sql

/-- A step of an interleaving: what happened, and the state before it. -/
structure Entry {T : Type} (ι : Type) (Row : T → Type) (ε α : Type) where
  state : World ι Row ε α
  action : Action ι ε

/-- The steps of an interleaving, the last one first. -/
abbrev History {T : Type} (ι : Type) (Row : T → Type) (ε α : Type) := List (Entry ι Row ε α)

variable {T ι : Type} {Row : T → Type} {ε α : Type} [DecidableEq ι]

/-- What client `i` was about to do, when the step is one of its own. -/
def Entry.session (e : Entry ι Row ε α) (i : ι) : Option (Session Row ε α) :=
  match e.action with
  | .advance j => if j = i then some (e.state.sessions j) else none
  | .abort _ _ => none

/-- The step is the COMMIT of client `i`. -/
def Entry.commits (e : Entry ι Row ε α) (i : ι) : Bool :=
  match e.session i with
  | some (.running (.done (.ok _))) => true
  | _ => false

/-- The step is a SELECT of client `i`. -/
def Entry.selects (e : Entry ι Row ε α) (i : ι) : Bool :=
  match e.session i with
  | some (.running (.select _)) => true
  | _ => false

theorem Entry.session_eq {e : Entry ι Row ε α} {i : ι} {s : Session Row ε α} (h : e.session i = some s) :
    e.action = .advance i ∧ e.state.sessions i = s := by
  unfold Entry.session at h
  cases ha : e.action with
  | advance j =>
    simp only [ha] at h
    split_ifs at h with hj
    subst hj
    exact ⟨rfl, Option.some.inj h⟩
  | abort j error => simp [ha] at h

theorem Entry.commits_iff {e : Entry ι Row ε α} {i : ι} :
    e.commits i = true ↔ e.action = .advance i ∧ ∃ a, e.state.sessions i = .running (.done (.ok a)) := by
  constructor
  · intro h
    unfold Entry.commits at h
    split at h
    · next a hs => exact ⟨(session_eq hs).1, a, (session_eq hs).2⟩
    · cases h
  · rintro ⟨ha, a, hs⟩
    simp [Entry.commits, Entry.session, ha, hs]

theorem Entry.selects_iff {e : Entry ι Row ε α} {i : ι} :
    e.selects i = true ↔ e.action = .advance i ∧ ∃ next, e.state.sessions i = .running (.select next) := by
  constructor
  · intro h
    unfold Entry.selects at h
    split at h
    · next next hs => exact ⟨(session_eq hs).1, next, (session_eq hs).2⟩
    · cases h
  · rintro ⟨ha, next, hs⟩
    simp [Entry.selects, Entry.session, ha, hs]

section Steps

variable [DecidableEq T] [Schema Row]

/-- A COMMIT that is possible succeeds. -/
theorem succeeded_of_commits {w u : World ι Row ε α} {a : Action ι ε} (hstep : w.step a = some u) {i : ι}
    (h : (⟨w, a⟩ : Entry ι Row ε α).commits i = true) : a.client = i ∧ u.succeeded i := by
  obtain ⟨haction, b, hs⟩ := Entry.commits_iff.mp h
  obtain rfl : a = .advance i := haction
  have hu : w.finish i (.ok b) = u := by
    simpa [World.step, World.advance, show w.sessions i = .running (.done (.ok b)) from hs] using hstep
  exact ⟨rfl, succeeded_of_commit hu.symm⟩

theorem commits_of_succeeded {w u : World ι Row ε α} {a : Action ι ε} (hstep : w.step a = some u)
    (h : u.succeeded a.client) : (⟨w, a⟩ : Entry ι Row ε α).commits a.client = true := by
  obtain ⟨b, hb⟩ := h
  obtain ⟨hs, hu⟩ := commit_of_succeeded (moved_of_step hstep) hb
  refine Entry.commits_iff.mpr ⟨?_, b, hs⟩
  cases a with
  | advance i => rfl
  | abort i error =>
    have herror : w.finish i (.error error) = u := by
      simpa [World.step, show w.sessions i = .running (.done (.ok b)) from hs] using hstep
    rw [← herror] at hb
    simp [World.finish, World.set_session, Action.client] at hb

/-- The states an interleaving can reach, and the steps that lead there, when
`allowed` admits each of these steps. -/
inductive Recorded (allowed : History ι Row ε α → Entry ι Row ε α → Prop) (w : World ι Row ε α) :
    History ι Row ε α → World ι Row ε α → Prop where
  | start : Recorded allowed w [] w
  | step {h : History ι Row ε α} {v u : World ι Row ε α} {a : Action ι ε} (hrun : Recorded allowed w h v)
      (hallowed : allowed h ⟨v, a⟩) (hstep : v.step a = some u) : Recorded allowed w (⟨v, a⟩ :: h) u

/-- The steps of a schedule and the state it leads to, when each of its steps is allowed and possible. -/
def World.record (ok : History ι Row ε α → Entry ι Row ε α → Bool) (h : History ι Row ε α) (w : World ι Row ε α) :
    List (Action ι ε) → Option (History ι Row ε α × World ι Row ε α)
  | [] => some (h, w)
  | a :: schedule => if ok h ⟨w, a⟩ then (w.step a).bind fun u => u.record ok (⟨w, a⟩ :: h) schedule else none

private theorem recorded_record {allowed : History ι Row ε α → Entry ι Row ε α → Prop}
    {ok : History ι Row ε α → Entry ι Row ε α → Bool} (hok : ∀ h e, ok h e = true → allowed h e)
    {start w : World ι Row ε α} {h : History ι Row ε α} {schedule : List (Action ι ε)}
    {out : History ι Row ε α × World ι Row ε α} (hrun : Recorded allowed start h w)
    (hrecord : w.record ok h schedule = some out) : Recorded allowed start out.1 out.2 := by
  induction schedule generalizing h w with
  | nil =>
    obtain rfl := Option.some.inj hrecord
    exact hrun
  | cons a schedule ih =>
    simp only [World.record] at hrecord
    split_ifs at hrecord with hallowed
    obtain ⟨u, hstep, hrest⟩ := Option.bind_eq_some_iff.mp hrecord
    exact ih (hrun.step (hok h _ hallowed) hstep) hrest

/-- A schedule that leads to a state with `p` shows that there is such a state. -/
theorem recorded_of_record {allowed : History ι Row ε α → Entry ι Row ε α → Prop}
    {ok : History ι Row ε α → Entry ι Row ε α → Bool} (hok : ∀ h e, ok h e = true → allowed h e)
    {w : World ι Row ε α} {schedule : List (Action ι ε)} {p : History ι Row ε α → World ι Row ε α → Bool}
    (hrecord : (w.record ok [] schedule).any (fun out => p out.1 out.2) = true) :
    ∃ h u, Recorded allowed w h u ∧ p h u = true := by
  cases hout : w.record ok [] schedule with
  | none => simp [hout] at hrecord
  | some out => exact ⟨out.1, out.2, recorded_record hok .start hout, by simpa [hout] using hrecord⟩

end Steps

end sql
