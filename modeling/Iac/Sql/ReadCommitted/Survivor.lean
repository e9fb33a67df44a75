import Iac.Sql.ReadCommitted.Slots

namespace sql

variable {T ι K : Type} {Row : T → Type} {ε α : Type}

/-- What may be done without taking a live row away. -/
def sparing (live : (t : T) → Row t → Bool) : Rights Row where
  select := True
  update t row new := live t row = true → new.any (live t) = true
  insert _ _ := True

/-- What a client may do that changes no key and inserts rows of the key it mints. -/
def keyed (key : (t : T) → Row t → K) (mint : Option K) : Rights Row where
  select := True
  update t row new := ∀ after ∈ new, key t after = key t row
  insert t row := mint = some (key t row)

theorem keyed_closed (key : (t : T) → Row t → K) (mint : Option K) : (keyed key mint).Closed where
  update t row row' new hfirst hsecond after hafter := (hsecond after hafter).trans (hfirst row' rfl)
  insert t row row' hinsert hupdate := hinsert.trans (by rw [hupdate row' rfl])

/-- The program locks a table and then fails or makes one UPDATE of the rows it
names, which leaves a live row among the locked ones when there was one. -/
def Prog.guards (t : T) (live : (t : T) → Row t → Bool) (key : (t : T) → Row t → K) (name : Option K)
    (p : Prog Row ε α) : Prop :=
  ∃ next, p = .update t (fun _ => true) some next ∧ ∀ out, (∃ e, next out = .done (.error e)) ∨
    ∃ which change rest, next out = .update t which change rest ∧ (∀ row, which row = true → name = some (key t row)) ∧
      ((∃ row ∈ out, live t row = true) → ∃ row ∈ out, (rewrite which change row).any (live t) = true) ∧
      ∀ out', (rest out').within (sparing live)

/-- A client that names a key goes on only when those that may insert a row of that key have ended. -/
def minted_first (names mints : ι → Option K) (w : World ι Row ε α) (a : Action ι ε) : Prop :=
  ∀ i, a = .advance i → ∀ j, ∀ k ∈ mints j, names i = some k → (w.sessions j).todo.isNone = true

variable [DecidableEq ι]

/-- Client `i` has written over a live row with one that is not. -/
def World.takes_live (w : World ι Row ε α) (i : ι) (t : T) (live : Row t → Bool) : Prop :=
  ∃ s ∈ w.slots t, s.owned i = true ∧ s.committed.any live = true ∧ (s.visible i).any live = false

/-- Client `i` has locked or written a live row. -/
def World.holds_live (w : World ι Row ε α) (i : ι) (t : T) (live : Row t → Bool) : Prop :=
  ∃ s ∈ w.slots t, s.owned i = true ∧ (s.visible i).any live = true

variable {live : (t : T) → Row t → Bool} {key : (t : T) → Row t → K} {names mints : ι → Option K}
variable {w u : World ι Row ε α} {i j : ι} {t : T}

/-- Nobody who is not done may insert a row that client `i` names. -/
def World.Known (w : World ι Row ε α) (names mints : ι → Option K) (i : ι) : Prop :=
  ∀ j, ∀ k ∈ mints j, names i = some k → (w.sessions j).todo.isNone = true

/-- What client `i` has locked before it makes its UPDATE. -/
structure World.Locked (w : World ι Row ε α) (i : ι) (t : T) (live : (t : T) → Row t → Bool) (key : (t : T) → Row t → K)
    (names mints : ι → Option K) (which : Row t → Bool) (change : Row t → Option (Row t))
    (rest : List (Row t) → Prog Row ε α) : Prop where
  known : w.Known names mints i
  named : ∀ row, which row = true → names i = some (key t row)
  held : ∀ s ∈ w.slots t, ∀ row, s.visible i = some row → names i = some (key t row) → s.owned i = true
  spares : ∀ out, (rest out).within (sparing live)
  unchanged : ∀ s ∈ w.slots t, s.owned i = true → s.visible i = s.committed
  kept : w.holds_live i t (live t) →
    ∃ s ∈ w.slots t, s.owned i = true ∧ ((s.visible i).bind (rewrite which change)).any (live t) = true

/-- How far client `i` is, and why it leaves a live row behind. -/
inductive World.Minds (w : World ι Row ε α) (i : ι) (t : T) (live : (t : T) → Row t → Bool) (key : (t : T) → Row t → K)
    (names mints : ι → Option K) : Prop where
  | fresh (p : Prog Row ε α) (hguards : p.guards t live key (names i)) (hs : w.sessions i = .running p)
      (hfree : ∀ s ∈ w.slots t, s.owned i = false)
  | locking (targets : Nat → Bool) (next : List (Row t) → Prog Row ε α)
      (hguards : (Prog.update t (fun _ => true) some next).guards t live key (names i))
      (hs : w.sessions i = .updating t targets (fun _ => true) some next) (hfree : ∀ s ∈ w.slots t, s.owned i = false)
      (hknown : w.Known names mints i)
      (htargets : ∀ n s row, (w.slots t)[n]? = some s → s.visible i = some row → names i = some (key t row) → targets n = true)
  | locked (which : Row t → Bool) (change : Row t → Option (Row t)) (rest : List (Row t) → Prog Row ε α)
      (hlocked : w.Locked i t live key names mints which change rest)
        (hs : w.sessions i = .running (.update t which change rest))
  | picked (targets : Nat → Bool) (which : Row t → Bool) (change : Row t → Option (Row t))
      (rest : List (Row t) → Prog Row ε α) (hlocked : w.Locked i t live key names mints which change rest)
      (hs : w.sessions i = .updating t targets which change rest)
      (hpicked : ∀ n s row, (w.slots t)[n]? = some s → s.owned i = true → s.visible i = some row → which row = true →
        targets n = true)
  | sparing (hspares : ∀ p, (w.sessions i).todo = some p → p.within (sparing live))
      (hsafe : w.takes_live i t (live t) → w.holds_live i t (live t))

private theorem not_owned_finish (result : Except ε α) (w : World ι Row ε α) (i : ι) (t : T) :
    ∀ s ∈ (w.finish i result).slots t, s.owned i = false := by
  have hcommit (s : Slot ι (Row t)) : (s.commit i).owned i = false := by
    cases howned : s.owned i with
    | false => rw [commit_of_not_owned howned, howned]
    | true =>
      obtain ⟨new, hnew⟩ := pending_of_owned howned
      simp [Slot.commit, hnew, Slot.owned]
  have hrollback (s : Slot ι (Row t)) : (s.rollback i).owned i = false := by
    cases howned : s.owned i with
    | false => rw [rollback_of_not_owned howned, howned]
    | true =>
      obtain ⟨new, hnew⟩ := pending_of_owned howned
      simp [Slot.rollback, hnew, Slot.owned]
  intro s hs
  cases result with
  | ok a =>
    obtain ⟨before, -, rfl⟩ := List.mem_map.mp hs
    exact hcommit before
  | error e =>
    obtain ⟨before, -, rfl⟩ := List.mem_map.mp hs
    exact hrollback before

private theorem not_takes {p : Row t → Bool} (h : ∀ s ∈ w.slots t, s.owned i = true → s.visible i = s.committed) :
    ¬ w.takes_live i t p := by
  rintro ⟨s, hs, howned, hlive, htaken⟩
  rw [h s hs howned, hlive] at htaken
  cases htaken

/-- A client that has ended minds nothing any more. -/
private theorem minds_of_finish {result : Except ε α} (hu : u = w.finish i result) : u.Minds i t live key names mints := by
  have hfree : ∀ s ∈ u.slots t, s.owned i = false := hu ▸ not_owned_finish result w i t
  refine .sparing (fun p hp => ?_) fun htakes => ?_
  · rw [hu] at hp
    cases result <;> simp [World.finish, World.set_session, Session.todo] at hp
  · obtain ⟨s, hs, howned, -⟩ := htakes
    simp [hfree s hs] at howned

section Steps

variable [DecidableEq T] [Schema Row]

private theorem mem_slots_of_ne (hmove : w.Moved j u) (hne : j ≠ i) {s : Slot ι (Row t)} (howned : s.owned i = true) :
    s ∈ u.slots t ↔ s ∈ w.slots t := by
  simp only [List.mem_iff_getElem?, owned_slot_of_ne hmove hne howned]

private theorem takes_of_ne (hmove : w.Moved j u) (hne : j ≠ i) {p : Row t → Bool} (h : u.takes_live i t p) :
    w.takes_live i t p := by
  obtain ⟨s, hs, howned, hrest⟩ := h
  exact ⟨s, (mem_slots_of_ne hmove hne howned).mp hs, howned, hrest⟩

private theorem holds_of_ne (hmove : w.Moved j u) (hne : j ≠ i) {p : Row t → Bool} :
    u.holds_live i t p ↔ w.holds_live i t p := by
  constructor
  · rintro ⟨s, hs, howned, hlive⟩
    exact ⟨s, (mem_slots_of_ne hmove hne howned).mp hs, howned, hlive⟩
  · rintro ⟨s, hs, howned, hlive⟩
    exact ⟨s, (mem_slots_of_ne hmove hne howned).mpr hs, howned, hlive⟩

private theorem known_of_moved (hmove : w.Moved j u) (h : w.Known names mints i) : u.Known names mints i := by
  intro k name hname heq
  have hdone := h k name hname heq
  cases hs : w.sessions k with
  | running p | updating _ _ _ _ _ => simp [hs, Session.todo] at hdone
  | finished result =>
    rw [finished_of_moved hmove hs]
    rfl

/-- What others do lets no row appear that a client names, as those that could insert it are done. -/
private theorem visible_elsewhere (hwithin : ∀ s ∈ w.slots t, s.within t fun k => keyed key (mints k)) (hmove : w.Moved j u)
    (hne : j ≠ i) (hknown : w.Known names mints i) {n : Nat} {s : Slot ι (Row t)} {row : Row t} (hs : (u.slots t)[n]? = some s)
    (hvisible : s.visible i = some row) (hname : names i = some (key t row)) :
    ∃ s' row', (w.slots t)[n]? = some s' ∧ s'.visible i = some row' ∧ names i = some (key t row') := by
  have hother {before : Slot ι (Row t)} {new : Option (Row t)} (hpending : before.pending = some (j, new)) :
      before.visible i = before.committed := by
    simp [Slot.visible, hpending, hne]
  cases slot_step_of_moved hmove hs with
  | same s hs' => exact ⟨s, row, hs', hvisible, hname⟩
  | commit before new hs' hpending hdone =>
    obtain rfl : new = some row := hvisible
    obtain ⟨hupdate, hinsert⟩ := hwithin before (List.mem_of_getElem? hs') j (some row) hpending
    cases hcommitted : before.committed with
    | none =>
      have hnone := hknown j _ (hinsert hcommitted row rfl) hname
      cases hsession : w.sessions j with
      | running p | updating _ _ _ _ _ => simp [hsession, Session.todo] at hnone
      | finished result => exact absurd hsession (not_finished_of_moved hmove result)
    | some old =>
      refine ⟨before, old, hs', (hother hpending).trans hcommitted, ?_⟩
      rw [hname, hupdate old hcommitted row rfl]
  | rollback before hs' howned =>
    obtain ⟨new, hpending⟩ := pending_of_owned howned
    exact ⟨before, row, hs', (hother hpending).trans hvisible, hname⟩
  | write before hs' targets which change next hsession htarget hfree old hold hwhich =>
    refine ⟨before, row, hs', ?_, hname⟩
    have hcommitted : before.committed = some row := by simpa [Slot.visible, hne] using hvisible
    cases hp : before.pending with
    | none => simp [Slot.visible, hp, hcommitted]
    | some p =>
      obtain ⟨k, new⟩ := p
      obtain rfl : k = j := by simpa [Slot.locked, hp] using hfree
      exact (hother hp).trans hcommitted
  | add values next hsession id hn => simp [Slot.visible, hne] at hvisible

private theorem locked_of_ne (hwithin : ∀ s ∈ w.slots t, s.within t fun k => keyed key (mints k)) (hmove : w.Moved j u)
    (hne : j ≠ i) {which : Row t → Bool} {change : Row t → Option (Row t)} {rest : List (Row t) → Prog Row ε α}
    (h : w.Locked i t live key names mints which change rest) : u.Locked i t live key names mints which change rest := by
  refine ⟨known_of_moved hmove h.known, h.named, fun s hs row hvisible hname => ?_, h.spares,
    fun s hs howned => h.unchanged s ((mem_slots_of_ne hmove hne howned).mp hs) howned, fun hholds => ?_⟩
  · obtain ⟨n, hn⟩ := List.mem_iff_getElem?.mp hs
    obtain ⟨s', row', hs', hvisible', hname'⟩ := visible_elsewhere hwithin hmove hne h.known hn hvisible hname
    have howned := h.held s' (List.mem_of_getElem? hs') row' hvisible' hname'
    obtain rfl := Option.some.inj (hn.symm.trans ((owned_slot_of_ne hmove hne howned).mpr hs'))
    exact howned
  · obtain ⟨s, hs, howned, hlive⟩ := h.kept ((holds_of_ne hmove hne).mp hholds)
    exact ⟨s, (mem_slots_of_ne hmove hne howned).mpr hs, howned, hlive⟩

/-- The steps of others change nothing for a client. -/
theorem minds_of_ne (hwithin : ∀ s ∈ w.slots t, s.within t fun k => keyed key (mints k)) (hmove : w.Moved j u) (hne : j ≠ i)
    (h : w.Minds i t live key names mints) : u.Minds i t live key names mints := by
  have hsession : u.sessions i = w.sessions i := sessions_of_ne hmove hne.symm
  cases h with
  | fresh p hguards hs hfree => exact .fresh p hguards (hsession.trans hs) (not_owned_of_ne hmove hne hfree)
  | locking targets next hguards hs hfree hknown htargets =>
    refine .locking targets next hguards (hsession.trans hs) (not_owned_of_ne hmove hne hfree) (known_of_moved hmove hknown) ?_
    intro n s row hn hvisible hname
    obtain ⟨s', row', hs', hvisible', hname'⟩ := visible_elsewhere hwithin hmove hne hknown hn hvisible hname
    exact htargets n s' row' hs' hvisible' hname'
  | locked which change rest hlocked hs =>
    exact .locked which change rest (locked_of_ne hwithin hmove hne hlocked) (hsession.trans hs)
  | picked targets which change rest hlocked hs hpicked =>
    refine .picked targets which change rest (locked_of_ne hwithin hmove hne hlocked) (hsession.trans hs) ?_
    exact fun n s row hslot howned => hpicked n s row ((owned_slot_of_ne hmove hne howned).mp hslot) howned
  | sparing hspares hsafe =>
    refine .sparing (hsession ▸ hspares) fun htakes => ?_
    exact (holds_of_ne hmove hne).mpr (hsafe (takes_of_ne hmove hne htakes))

omit [DecidableEq T] [Schema Row] in
/-- The lock of the table: what it answers with are the rows that the client has locked. -/
private theorem minds_of_lock {targets : Nat → Bool} {next : List (Row t) → Prog Row ε α}
    (hguards : (Prog.update t (fun _ => true) some next : Prog Row ε α).guards t live key (names i))
    (hknown : u.Known names mints i)
    (htargets : ∀ n s row, (w.slots t)[n]? = some s → s.visible i = some row → names i = some (key t row) → targets n = true)
    (hfree : ∀ s ∈ w.slots t, s.owned i = false)
    (hunlocked : ∀ n s, (w.slots t)[n]? = some s → targets n = true → s.locked i = false)
    (hslots : u.slots t = rewrite_slots i targets (fun _ => true) some (w.slots t))
    (hsession : u.sessions i = .running (next (rewritten i targets (fun _ => true) some (w.slots t)))) :
    u.Minds i t live key names mints := by
  have hclean (n : Nat) (s : Slot ι (Row t)) (hs : (w.slots t)[n]? = some s) (htarget : targets n = true) :
      s.pending = none :=
    pending_of_free (hunlocked n s hs htarget) (hfree s (List.mem_of_getElem? hs))
  have hslot (s : Slot ι (Row t)) (hs : s ∈ u.slots t) (howned : s.owned i = true) :
      ∃ n row, (w.slots t)[n]? = some ⟨some row, none⟩ ∧ targets n = true ∧ s = ⟨some row, some (i, some row)⟩ := by
    rw [hslots] at hs
    obtain ⟨n, hn⟩ := List.mem_iff_getElem?.mp hs
    obtain hsame | ⟨row, hold, htarget, -, hnew⟩ := rewrite_slots_get hclean n
    · rw [hn] at hsame
      simp [hfree s (List.mem_of_getElem? hsame.symm)] at howned
    · exact ⟨n, row, hold, htarget, Option.some.inj (hn.symm.trans hnew)⟩
  have hunchanged (s : Slot ι (Row t)) (hs : s ∈ u.slots t) (howned : s.owned i = true) : s.visible i = s.committed := by
    obtain ⟨n, row, -, -, rfl⟩ := hslot s hs howned
    simp [Slot.visible]
  obtain ⟨next', heq, hcases⟩ := hguards
  obtain rfl : next = next' := by
    injection heq
  obtain ⟨e, hfail⟩ | ⟨which, change, rest, hupdate, hnamed, hkept, hspares⟩ :=
    hcases (rewritten i targets (fun _ => true) some (w.slots t))
  · rw [hfail] at hsession
    refine .sparing (fun p hp => ?_) fun htakes => absurd htakes (not_takes hunchanged)
    rw [hsession] at hp
    obtain rfl := Option.some.inj hp
    trivial
  · rw [hupdate] at hsession
    refine .locked which change rest ⟨hknown, hnamed, fun s hs row hvisible hname => ?_, hspares, hunchanged, fun hholds => ?_⟩
      hsession
    · obtain ⟨n, hn⟩ := List.mem_iff_getElem?.mp (hslots ▸ hs)
      obtain hsame | ⟨old, -, -, -, hnew⟩ := rewrite_slots_get hclean n
      · -- a row that the lock did not reach is none that the client names
        have hslot' := hsame.symm.trans hn
        have htarget := htargets n s row hslot' hvisible hname
        rw [rewrite_slots, List.getElem?_mapIdx, hslot', Option.map_some, if_pos htarget] at hn
        have hrewrite : s.rewrite i (fun _ => true) some = { s with pending := some (i, some row) } := by
          simp [Slot.rewrite, hvisible]
        rw [← Option.some.inj hn, hrewrite]
        simp [Slot.owned]
      · obtain rfl := Option.some.inj (hn.symm.trans hnew)
        simp [Slot.owned]
    obtain ⟨s, hs, howned, hlive⟩ := hholds
    obtain ⟨n, row, hold, htarget, rfl⟩ := hslot s hs howned
    obtain ⟨row', hrow', hlive'⟩ := hkept ⟨row, (mem_rewritten hclean row).mpr ⟨n, row, hold, htarget, rfl, rfl⟩,
      by simpa [Slot.visible] using hlive⟩
    obtain ⟨n', row'', hold', htarget', -, hrow''⟩ := (mem_rewritten hclean row').mp hrow'
    obtain rfl : row' = row'' := by simpa [answer] using hrow''
    refine ⟨⟨some row', some (i, some row')⟩, ?_, by simp [Slot.owned], by simpa [Slot.visible] using hlive'⟩
    rw [hslots]
    refine List.mem_iff_getElem?.mpr ⟨n', ?_⟩
    rw [rewrite_slots, List.getElem?_mapIdx, hold', Option.map_some, if_pos htarget']
    simp [Slot.rewrite, Slot.visible]

omit [DecidableEq T] [Schema Row] in
private theorem owned_rewrite {which : Row t → Bool} {change : Row t → Option (Row t)} {s : Slot ι (Row t)}
    (howned : s.owned i = true) : (s.rewrite i which change).owned i = true := by
  simp only [Slot.rewrite]
  split
  · split_ifs
    · simp [Slot.owned]
    · exact howned
  · exact howned

omit [DecidableEq T] [Schema Row] in
private theorem committed_eq_of_locked {which : Row t → Bool} {change : Row t → Option (Row t)}
    {rest : List (Row t) → Prog Row ε α} (h : w.Locked i t live key names mints which change rest) {s : Slot ι (Row t)}
    (hs : s ∈ w.slots t) : s.visible i = s.committed := by
  cases howned : s.owned i with
  | false => exact visible_of_not_owned howned
  | true => exact h.unchanged s hs howned

omit [DecidableEq T] [Schema Row] in
/-- The UPDATE after the lock: a client that takes a live row holds another one. -/
private theorem minds_of_picked {targets : Nat → Bool} {which : Row t → Bool} {change : Row t → Option (Row t)}
    {rest : List (Row t) → Prog Row ε α} (hlocked : w.Locked i t live key names mints which change rest)
    (hpicked : ∀ n s row, (w.slots t)[n]? = some s → s.owned i = true → s.visible i = some row → which row = true →
      targets n = true)
    (hslots : u.slots t = rewrite_slots i targets which change (w.slots t))
    (hsession : u.sessions i = .running (rest (rewritten i targets which change (w.slots t)))) :
      u.Minds i t live key names mints := by
  have hget (n : Nat) : (u.slots t)[n]? =
      ((w.slots t)[n]?).map fun s => if targets n then s.rewrite i which change else s := by
    rw [hslots, rewrite_slots, List.getElem?_mapIdx]
  refine .sparing (fun p hp => ?_) fun htakes => ?_
  · rw [hsession] at hp
    obtain rfl := Option.some.inj hp
    exact hlocked.spares _
  · have hholds : w.holds_live i t (live t) := by
      obtain ⟨s', hs', howned, hlive, htaken⟩ := htakes
      obtain ⟨n, hn⟩ := List.mem_iff_getElem?.mp hs'
      rw [hget] at hn
      obtain ⟨s, hslot, rfl⟩ := Option.map_eq_some_iff.mp hn
      have hvisible : s.visible i = s.committed := committed_eq_of_locked hlocked (List.mem_of_getElem? hslot)
      cases htarget : targets n with
      | false =>
        simp only [htarget, Bool.false_eq_true, if_false] at hlive htaken
        rw [hvisible, hlive] at htaken
        cases htaken
      | true =>
        simp only [htarget, if_true] at hlive htaken
        rw [committed_rewrite, ← hvisible] at hlive
        rw [visible_rewrite_self] at htaken
        obtain ⟨row, hrow, hrow_live⟩ := (Option.any_eq_true _ _).mp hlive
        cases hwhich : which row with
        | false => simp [hrow, rewrite, hwhich, hrow_live] at htaken
        | true =>
          have hmem := List.mem_of_getElem? hslot
          exact ⟨s, hmem, hlocked.held s hmem row hrow (hlocked.named row hwhich), by simp [hrow, hrow_live]⟩
    obtain ⟨s, hmem, howned, hkept⟩ := hlocked.kept hholds
    obtain ⟨n, hn⟩ := List.mem_iff_getElem?.mp hmem
    cases htarget : targets n with
    | true =>
      refine ⟨s.rewrite i which change, List.mem_iff_getElem?.mpr ⟨n, ?_⟩, owned_rewrite howned, ?_⟩
      · rw [hget, hn, Option.map_some, if_pos htarget]
      · rw [visible_rewrite_self]
        exact hkept
    | false =>
      refine ⟨s, List.mem_iff_getElem?.mpr ⟨n, ?_⟩, howned, ?_⟩
      · rw [hget, hn, Option.map_some, htarget, if_neg (by simp)]
      · cases hrow : s.visible i with
        | none => simp [hrow] at hkept
        | some row =>
          cases hwhich : which row with
          | true => exact absurd (hpicked n s row hn howned hrow hwhich) (by simp [htarget])
          | false => simpa [hrow, rewrite, hwhich] using hkept

/-- What a client does within `sparing` takes no live row. -/
private theorem minds_of_sparing (hmove : w.Moved i u) (hspares : ∀ p, (w.sessions i).todo = some p → p.within (sparing live))
    (hsafe : w.takes_live i t (live t) → w.holds_live i t (live t)) : u.Minds i t live key names mints := by
  have hrest := todo_within_of_moved hspares hmove
  have hsame (hslots : u.slots t = w.slots t) : u.Minds i t live key names mints := by
    refine .sparing hrest ?_
    rw [World.takes_live, World.holds_live, hslots]
    exact hsafe
  cases hmove with
  | commit a hs hu | stop e hs hu => exact minds_of_finish hu
  | read next hs hu | pick t' which change next hs hu | violate t' values next hs hclash hu => exact hsame (by rw [hu]; rfl)
  | write t' targets which change next hs hfree hu =>
    by_cases ht : t = t'
    · subst ht
      have hwithin : (Prog.update t which change next).within (sparing live) := hspares _ (by rw [hs]; rfl)
      have hupdate : ∀ row, which row = true → live t row = true → (change row).any (live t) = true := hwithin.1
      have hkeeps {s : Slot ι (Row t)} (h : (s.visible i).any (live t) = true) :
          ((s.visible i).bind (rewrite which change)).any (live t) = true := by
        obtain ⟨row, hrow, hlive⟩ := (Option.any_eq_true _ _).mp h
        cases hwhich : which row with
        | false => simp [hrow, rewrite, hwhich, hlive]
        | true => simp [hrow, rewrite, hwhich, hupdate row hwhich hlive]
      have hget (n : Nat) : (u.slots t)[n]? =
          ((w.slots t)[n]?).map fun s => if targets n then s.rewrite i which change else s := by
        rw [hu, slots_set_session, slots_set_slots, rewrite_slots, List.getElem?_mapIdx]
      refine .sparing hrest fun htakes => ?_
      have hholds : w.holds_live i t (live t) := by
        obtain ⟨s', hs', howned, hlive, htaken⟩ := htakes
        obtain ⟨n, hn⟩ := List.mem_iff_getElem?.mp hs'
        rw [hget] at hn
        obtain ⟨s, hslot, rfl⟩ := Option.map_eq_some_iff.mp hn
        have hmem := List.mem_of_getElem? hslot
        have hcommitted : s.committed.any (live t) = true := by
          split_ifs at hlive
          · rwa [committed_rewrite] at hlive
          · exact hlive
        have hgone : (s.visible i).any (live t) = false := by
          by_contra h
          have h' : (s.visible i).any (live t) = true := by simpa using h
          split_ifs at htaken
          · rw [visible_rewrite_self, hkeeps h'] at htaken
            cases htaken
          · exact h htaken
        cases howned' : s.owned i with
        | false =>
          rw [visible_of_not_owned howned', hcommitted] at hgone
          cases hgone
        | true => exact hsafe ⟨s, hmem, howned', hcommitted, hgone⟩
      obtain ⟨s, hmem, howned, hlive⟩ := hholds
      obtain ⟨n, hn⟩ := List.mem_iff_getElem?.mp hmem
      refine ⟨_, List.mem_iff_getElem?.mpr ⟨n, (hget n).trans (by rw [hn]; rfl)⟩, ?_⟩
      split_ifs
      · refine ⟨owned_rewrite howned, ?_⟩
        rw [visible_rewrite_self]
        exact hkeeps hlive
      · exact ⟨howned, hlive⟩
    · refine hsame ?_
      rw [hu, slots_set_session, slots_set_slots_of_ne _ ht]
  | add t' values next hs hclash hu =>
    by_cases ht : t = t'
    · subst ht
      have hslots : u.slots t = w.slots t ++ [⟨none, some (i, some (values (w.seq t)))⟩] := by
        rw [hu, slots_set_session, slots_set_slots]
      refine .sparing hrest fun htakes => ?_
      have hbefore : w.takes_live i t (live t) := by
        obtain ⟨s, hmem, howned, hlive, htaken⟩ := htakes
        rw [hslots] at hmem
        obtain hold | hnew := List.mem_append.mp hmem
        · exact ⟨s, hold, howned, hlive, htaken⟩
        · obtain rfl := List.mem_singleton.mp hnew
          cases hlive
      obtain ⟨s, hmem, hheld⟩ := hsafe hbefore
      exact ⟨s, hslots ▸ List.mem_append_left _ hmem, hheld⟩
    · refine hsame ?_
      rw [hu, slots_set_session, slots_set_slots_of_ne _ ht]
      rfl

private theorem minds_of_self (hmove : w.Moved i u) (h : w.Minds i t live key names mints) (hknown : w.Known names mints i) :
    u.Minds i t live key names mints := by
  have hstill : u.Known names mints i := known_of_moved hmove hknown
  cases h with
  | fresh p hguards hs hfree =>
    obtain ⟨next, rfl, hcases⟩ := hguards
    cases hmove with
    | stop e hs' hu => exact minds_of_finish hu
    | pick t' which change next' hs' hu =>
      rw [hs] at hs'
      cases hs'
      refine .locking _ next ⟨next, rfl, hcases⟩ (by rw [hu, sessions_set_session]) (hu ▸ hfree) hstill ?_
      intro n s row hn hvisible _
      have hslots : (w.slots t)[n]? = some s := by rw [← hn, hu, slots_set_session]
      simp [World.targets, hslots, hvisible]
    | commit _ hs' _ | read _ hs' _ | write _ _ _ _ _ hs' _ _ | violate _ _ _ hs' _ _ | add _ _ _ hs' _ _ => simp [hs] at hs'
  | locking targets next hguards hs hfree _ htargets =>
    cases hmove with
    | stop e hs' hu => exact minds_of_finish hu
    | write t' targets' which change next' hs' hunlocked hu =>
      rw [hs] at hs'
      cases hs'
      exact minds_of_lock hguards hstill htargets hfree hunlocked (by rw [hu, slots_set_session, slots_set_slots])
        (by rw [hu, sessions_set_session])
    | commit _ hs' _ | read _ hs' _ | pick _ _ _ _ hs' _ | violate _ _ _ hs' _ _ | add _ _ _ hs' _ _ => simp [hs] at hs'
  | locked which change rest hlocked hs =>
    cases hmove with
    | stop e hs' hu => exact minds_of_finish hu
    | pick t' which' change' next hs' hu =>
      rw [hs] at hs'
      cases hs'
      have hslots : u.slots = w.slots := by rw [hu, slots_set_session]
      refine .picked (w.targets i t which) which change rest ⟨hstill, hlocked.named, ?_, hlocked.spares, ?_, ?_⟩
        (by rw [hu, sessions_set_session]) ?_
      · exact hslots ▸ hlocked.held
      · exact hslots ▸ hlocked.unchanged
      · rw [World.holds_live, hslots]
        exact hlocked.kept
      · intro n s row hslot howned hvisible hwhich
        rw [hslots] at hslot
        simp [World.targets, hslot, hvisible, hwhich]
    | commit _ hs' _ | read _ hs' _ | write _ _ _ _ _ hs' _ _ | violate _ _ _ hs' _ _ | add _ _ _ hs' _ _ => simp [hs] at hs'
  | picked targets which change rest hlocked hs hpicked =>
    cases hmove with
    | stop e hs' hu => exact minds_of_finish hu
    | write t' targets' which' change' next hs' hunlocked hu =>
      rw [hs] at hs'
      cases hs'
      exact minds_of_picked hlocked hpicked (by rw [hu, slots_set_session, slots_set_slots])
        (by rw [hu, sessions_set_session])
    | commit _ hs' _ | read _ hs' _ | pick _ _ _ _ hs' _ | violate _ _ _ hs' _ _ | add _ _ _ hs' _ _ => simp [hs] at hs'
  | sparing hspares hsafe => exact minds_of_sparing hmove hspares hsafe

/-- A commit of a client that minds leaves a live row. -/
private theorem live_of_moved (hmove : w.Moved j u) (hminds : w.Minds j t live key names mints)
    (hlive : ∃ row ∈ w.committed t, live t row = true) :
    ∃ row ∈ u.committed t, live t row = true := by
  by_cases hdone : u.succeeded j
  · obtain ⟨a, ha⟩ := hdone
    obtain ⟨hs, rfl⟩ := commit_of_succeeded hmove ha
    rw [committed_finish]
    have hview {s : Slot ι (Row t)} (hmem : s ∈ w.slots t) (h : (s.visible j).any (live t) = true) :
        ∃ row ∈ w.view j t, live t row = true := by
      obtain ⟨row, hrow, hrow_live⟩ := (Option.any_eq_true _ _).mp h
      exact ⟨row, List.mem_filterMap.mpr ⟨s, hmem, hrow⟩, hrow_live⟩
    obtain ⟨row, hrow, hrow_live⟩ := hlive
    obtain ⟨s, hmem, hcommitted⟩ := List.mem_filterMap.mp hrow
    cases hseen : (s.visible j).any (live t) with
    | true => exact hview hmem hseen
    | false =>
      have howned : s.owned j = true := by
        by_contra h
        rw [visible_of_not_owned (by simpa using h), hcommitted] at hseen
        simp [hrow_live] at hseen
      cases hminds with
      | fresh p hguards hs' hfree => simp [hfree s hmem] at howned
      | locking targets next hguards hs' hfree => simp [hfree s hmem] at howned
      | locked which change rest hlocked hs' | picked targets which change rest hlocked hs' hpicked => simp [hs] at hs'
      | sparing hspares hsafe =>
        obtain ⟨s', hmem', -, hlive'⟩ := hsafe ⟨s, hmem, howned, by simp [hcommitted, hrow_live], hseen⟩
        exact hview hmem' hlive'
  · rwa [committed_of_moved hmove hdone]

/-- A live row stays as long as every client either takes none or locks the
table before it takes one that it names, when nobody inserts a row that a client
under way names. -/
theorem live_of_interleaving {db : Db Row} {progs : ι → Prog Row ε α}
    (hprogs : ∀ i, (progs i).guards t live key (names i) ∨ (progs i).within (sparing live))
    (hkeyed : ∀ i, (progs i).within (keyed key (mints i))) (hlive : ∃ row ∈ db.rows t, live t row = true)
    (hrun : Interleaving (minted_first names mints) (World.start db progs) w) : ∃ row ∈ w.committed t, live t row = true := by
  suffices (∃ row ∈ w.committed t, live t row = true) ∧ (∀ i, w.Minds i t live key names mints) ∧
      (∀ i p, (w.sessions i).todo = some p → p.within (keyed key (mints i))) ∧
      ∀ t, ∀ s ∈ w.slots t, s.within t fun i => keyed key (mints i) from this.1
  induction hrun with
  | start =>
    have hfree (i : ι) (s : Slot ι (Row t)) (hs : s ∈ (World.start db progs).slots t) : s.owned i = false := by
      obtain ⟨row, -, rfl⟩ := List.mem_map.mp hs
      rfl
    refine ⟨?_, fun i => ?_, fun i p hp => Option.some.inj hp ▸ hkeyed i, fun t s hs => ?_⟩
    · obtain ⟨row, hrow, hrow_live⟩ := hlive
      exact ⟨row, List.mem_filterMap.mpr ⟨⟨some row, none⟩, List.mem_map.mpr ⟨row, hrow, rfl⟩, rfl⟩, hrow_live⟩
    · obtain hguards | hspares := hprogs i
      · exact .fresh (progs i) hguards rfl (hfree i)
      · refine .sparing (fun p hp => Option.some.inj hp ▸ hspares) fun htakes => ?_
        obtain ⟨s, hs, howned, -⟩ := htakes
        simp [hfree i s hs] at howned
    · obtain ⟨row, -, rfl⟩ := List.mem_map.mp hs
      exact within_of_free rfl
  | step hrun hallowed hstep ih =>
    rename_i v u a
    obtain ⟨hlive', hminds, htodo, hwithin⟩ := ih
    have hmove := moved_of_step hstep
    refine ⟨live_of_moved hmove (hminds _) hlive', fun i => ?_, fun i => ?_, fun t =>
      within_of_moved hwithin (keyed_closed key _) (writes_within_of_todo (htodo _)) hmove t⟩
    · by_cases hi : a.client = i
      · subst hi
        cases a with
        | advance i => exact minds_of_self hmove (hminds i) fun j => hallowed i rfl j
        | abort i e =>
          have hfinish : u = v.finish i (.error e) := by
            simp only [World.step] at hstep
            split at hstep
            · cases hstep
            · exact (Option.some.inj hstep).symm
          exact minds_of_finish hfinish
      · exact minds_of_ne (hwithin t) hmove hi (hminds i)
    · by_cases hi : i = a.client
      · subst hi
        exact todo_within_of_moved (htodo _) hmove
      · rw [sessions_of_ne hmove hi]
        exact htodo i

end Steps

end sql
