import Iac.Sql.ReadCommitted.Local

namespace sql

variable {T ι : Type} {Row : T → Type} {ε α : Type} [DecidableEq ι]

/-- What a step of client `j` from `w` to `u` leaves in slot `n` of table `t`. -/
inductive World.SlotStep (w u : World ι Row ε α) (j : ι) (t : T) (n : Nat) : Slot ι (Row t) → Prop where
  | same (s : Slot ι (Row t)) (hs : (w.slots t)[n]? = some s) : SlotStep w u j t n s
  | commit (s : Slot ι (Row t)) (new : Option (Row t)) (hs : (w.slots t)[n]? = some s)
      (hpending : s.pending = some (j, new)) (hdone : u.succeeded j) :
      SlotStep w u j t n ⟨new, none⟩
  | rollback (s : Slot ι (Row t)) (hs : (w.slots t)[n]? = some s) (howned : s.owned j = true) :
      SlotStep w u j t n { s with pending := none }
  | write (s : Slot ι (Row t)) (hs : (w.slots t)[n]? = some s) (targets : Nat → Bool) (which : Row t → Bool)
      (change : Row t → Option (Row t)) (next : List (Row t) → Prog Row ε α)
      (hsession : w.sessions j = .updating t targets which change next) (htarget : targets n = true)
      (hfree : s.locked j = false) (row : Row t) (hvisible : s.visible j = some row) (hwhich : which row = true) :
      SlotStep w u j t n { s with pending := some (j, change row) }
  | add (values : Nat → Row t) (next : Option (Row t) → Prog Row ε α)
      (hsession : w.sessions j = .running (.insert t values next)) (id : Nat) (hn : n = (w.slots t).length) :
      SlotStep w u j t n ⟨none, some (j, some (values id))⟩

section Ends

variable {R : Type} {s : Slot ι R} {i : ι}

theorem commit_of_not_owned (h : s.owned i = false) : s.commit i = s := by
  cases hp : s.pending with
  | none => simp [Slot.commit, hp]
  | some write =>
    have hne : write.1 ≠ i := by simpa [Slot.owned, hp] using h
    simp [Slot.commit, hp, hne]

theorem rollback_of_not_owned (h : s.owned i = false) : s.rollback i = s := by
  cases hp : s.pending with
  | none => simp [Slot.rollback, hp]
  | some write =>
    have hne : write.1 ≠ i := by simpa [Slot.owned, hp] using h
    simp [Slot.rollback, hp, hne]

theorem pending_of_owned (h : s.owned i = true) : ∃ new, s.pending = some (i, new) := by
  cases hp : s.pending with
  | none => simp [Slot.owned, hp] at h
  | some write =>
    obtain ⟨j, new⟩ := write
    obtain rfl : j = i := by simpa [Slot.owned, hp] using h
    exact ⟨new, rfl⟩

theorem owned_of_pending {new : Option R} (h : s.pending = some (i, new)) : s.owned i = true := by
  simp [Slot.owned, h]

theorem visible_of_not_owned (h : s.owned i = false) : s.visible i = s.committed := by
  cases hp : s.pending with
  | none => simp [Slot.visible, hp]
  | some write =>
    have hne : write.1 ≠ i := by simpa [Slot.owned, hp] using h
    simp [Slot.visible, hp, hne]

theorem pending_of_free (hlocked : s.locked i = false) (howned : s.owned i = false) : s.pending = none := by
  cases hp : s.pending with
  | none => rfl
  | some write => simp_all [Slot.locked, Slot.owned]

end Ends

/-- A client that has written nothing sees what is committed. -/
theorem view_of_not_owned {w : World ι Row ε α} {i : ι} (h : ∀ t, ∀ s ∈ w.slots t, s.owned i = false) :
    w.view i = w.committed := by
  funext t
  exact List.filterMap_congr fun s hs => visible_of_not_owned (h t s hs)

variable [DecidableEq T] [Schema Row] {w u : World ι Row ε α} {j : ι}

/-- Every slot is one that the step left or made. -/
theorem slot_step_of_moved (hmove : w.Moved j u) {t : T} {n : Nat} {s : Slot ι (Row t)} (hs : (u.slots t)[n]? = some s) :
    w.SlotStep u j t n s := by
  cases hmove with
  | commit a hdone hu =>
    rw [hu] at hs
    change ((w.slots t).map (Slot.commit j))[n]? = some s at hs
    rw [List.getElem?_map] at hs
    obtain ⟨before, hbefore, rfl⟩ := Option.map_eq_some_iff.mp hs
    cases howned : before.owned j with
    | false =>
      rw [commit_of_not_owned howned]
      exact .same before hbefore
    | true =>
      obtain ⟨new, hnew⟩ := pending_of_owned howned
      have hcommit : before.commit j = ⟨new, none⟩ := by simp [Slot.commit, hnew]
      exact hcommit ▸ .commit before new hbefore hnew (succeeded_of_commit hu)
  | stop e hdone hu =>
    rw [hu] at hs
    change ((w.slots t).map (Slot.rollback j))[n]? = some s at hs
    rw [List.getElem?_map] at hs
    obtain ⟨before, hbefore, rfl⟩ := Option.map_eq_some_iff.mp hs
    cases howned : before.owned j with
    | false =>
      rw [rollback_of_not_owned howned]
      exact .same before hbefore
    | true =>
      obtain ⟨new, hnew⟩ := pending_of_owned howned
      have hrollback : before.rollback j = { before with pending := none } := by simp [Slot.rollback, hnew]
      exact hrollback ▸ .rollback before hbefore howned
  | read next hsession hu | pick t' which change next hsession hu | violate t' values next hsession hclash hu =>
    rw [hu] at hs
    exact .same s hs
  | write t' targets which change next hsession hfree hu =>
    rw [hu, slots_set_session] at hs
    by_cases ht : t = t'
    · subst ht
      rw [slots_set_slots, rewrite_slots, List.getElem?_mapIdx] at hs
      obtain ⟨before, hbefore, rfl⟩ := Option.map_eq_some_iff.mp hs
      cases htarget : targets n with
      | false => exact .same before hbefore
      | true =>
        simp only [if_true]
        cases hrow : before.visible j with
        | none => simpa [Slot.rewrite, hrow] using .same before hbefore
        | some row =>
          cases hwhich : which row with
          | false => simpa [Slot.rewrite, hrow, hwhich] using .same before hbefore
          | true =>
            have hwritten : before.rewrite j which change = { before with pending := some (j, change row) } := by
              simp [Slot.rewrite, hrow, hwhich]
            exact hwritten ▸ .write before hbefore targets which change next hsession htarget
              (hfree n before hbefore htarget) row hrow hwhich
    · rw [slots_set_slots_of_ne _ ht] at hs
      exact .same s hs
  | add t' values next hsession hclash hu =>
    rw [hu, slots_set_session] at hs
    by_cases ht : t = t'
    · subst ht
      rw [slots_set_slots] at hs
      obtain hlt | hge := Nat.lt_or_ge n (w.slots t).length
      · rw [List.getElem?_append_left (by exact hlt)] at hs
        exact .same s hs
      · obtain rfl : n = (w.slots t).length := by
          by_contra hne
          rw [List.getElem?_eq_none (by simp only [List.length_append, List.length_singleton]; omega)] at hs
          cases hs
        obtain rfl : (⟨none, some (j, some (values (w.seq t)))⟩ : Slot ι (Row t)) = s := by simpa using hs
        exact .add values next hsession _ rfl
    · rw [slots_set_slots_of_ne _ ht] at hs
      exact .same s hs

/-- No slot ever goes away. -/
theorem length_slots_le (hmove : w.Moved j u) (t : T) : (w.slots t).length ≤ (u.slots t).length := by
  cases hmove with
  | commit a hs hu | stop e hs hu =>
    rw [hu]
    simp [World.finish, World.set_session]
  | read next hs hu | pick t' which change next hs hu | violate t' values next hs hclash hu =>
    simp [hu]
  | write t' targets which change next hs hfree hu =>
    rw [hu, slots_set_session]
    by_cases ht : t = t'
    · subst ht
      simp [rewrite_slots]
    · simp [slots_set_slots_of_ne _ ht]
  | add t' values next hs hclash hu =>
    rw [hu, slots_set_session]
    by_cases ht : t = t'
    · subst ht
      simp
    · simp [slots_set_slots_of_ne _ ht]

/-- What `i` has written, another client does not touch. -/
theorem owned_slot_of_ne (hmove : w.Moved j u) {i : ι} (hne : j ≠ i) {t : T} {n : Nat} {s : Slot ι (Row t)}
    (howned : s.owned i = true) : (u.slots t)[n]? = some s ↔ (w.slots t)[n]? = some s := by
  have hother {new : Option (Row t)} {old : Slot ι (Row t)} (hpending : old.pending = some (j, new)) :
      old.owned i = false := by
    simp [Slot.owned, hpending, hne]
  constructor
  · intro hs
    cases slot_step_of_moved hmove hs with
    | same s hs => exact hs
    | commit before new hs hpending hdone => cases howned
    | rollback before hs howned' => cases howned
    | write before hs targets which change next hsession htarget hfree row hvisible hwhich =>
      simp [Slot.owned, hne] at howned
    | add values next hsession id hn => simp [Slot.owned, hne] at howned
  · intro hs
    have hlt := (List.getElem?_eq_some_iff.mp hs).1
    have hle := length_slots_le hmove t
    obtain ⟨after, hafter⟩ : ∃ after, (u.slots t)[n]? = some after :=
      ⟨_, List.getElem?_eq_getElem (Nat.lt_of_lt_of_le hlt hle)⟩
    rw [hafter]
    cases slot_step_of_moved hmove hafter with
    | same s' hs' => exact hs'.symm.trans hs
    | commit before new hs' hpending hdone =>
      obtain rfl := Option.some.inj (hs'.symm.trans hs)
      simp [hother hpending] at howned
    | rollback before hs' howned' =>
      obtain rfl := Option.some.inj (hs'.symm.trans hs)
      obtain ⟨new, hpending⟩ := pending_of_owned howned'
      simp [hother hpending] at howned
    | write before hs' targets which change next hsession htarget hfree row hvisible hwhich =>
      obtain rfl := Option.some.inj (hs'.symm.trans hs)
      obtain ⟨new, hpending⟩ := pending_of_owned howned
      simp [Slot.locked, hpending, Ne.symm hne] at hfree
    | add values next hsession id hn => omega

/-- A step of another client makes `i` the writer of no row. -/
theorem not_owned_of_ne {t : T} {i : ι} (hmove : w.Moved j u) (hne : j ≠ i) (h : ∀ s ∈ w.slots t, s.owned i = false) :
    ∀ s ∈ u.slots t, s.owned i = false := by
  intro s hmem
  obtain ⟨n, hn⟩ := List.mem_iff_getElem?.mp hmem
  cases slot_step_of_moved hmove hn with
  | same s hs => exact h s (List.mem_of_getElem? hs)
  | commit before new hs hpending hdone => rfl
  | rollback before hs howned => rfl
  | write before hs targets which change next hsession htarget hfree row hvisible hwhich => simp [Slot.owned, hne]
  | add values next hsession id hn => simp [Slot.owned, hne]

/-- A client that has ended stays where it is. -/
theorem finished_of_moved (hmove : w.Moved j u) {i : ι} {result : Except ε α} (h : w.sessions i = .finished result) :
    u.sessions i = .finished result := by
  have hne : i ≠ j := by
    rintro rfl
    exact not_finished_of_moved hmove result h
  rw [sessions_of_ne hmove hne, h]

end sql

namespace sql

variable {T ι : Type} {Row : T → Type} {ε α β : Type}

/-- What a program may do: whether it may SELECT, what its UPDATEs and DELETEs
may make of a row, and which rows it may INSERT. -/
structure Rights {T : Type} (Row : T → Type) where
  select : Prop
  update : (t : T) → Row t → Option (Row t) → Prop
  insert : (t : T) → Row t → Prop

/-- Every statement of the program is within the rights, whatever the ones before it answer. -/
def Prog.within (rights : Rights Row) : Prog Row ε α → Prop
  | .done _ => True
  | .select next => rights.select ∧ ∀ rows, (next rows).within rights
  | .update t which change next =>
    (∀ row, which row = true → rights.update t row (change row)) ∧ ∀ out, (next out).within rights
  | .insert t values next => (∀ id, rights.insert t (values id)) ∧ ∀ out, (next out).within rights

section Programs

variable {rights : Rights Row} {p : Prog Row ε α} {k : α → Prog Row ε β}

theorem within_bind (hp : p.within rights) (hk : ∀ a, (k a).within rights) : (p >>= k).within rights := by
  change (p.bind k).within rights
  induction p with
  | done result =>
    cases result with
    | ok a => exact hk a
    | error e => trivial
  | select next ih => exact ⟨hp.1, fun rows => ih rows (hp.2 rows)⟩
  | update t which change next ih => exact ⟨hp.1, fun out => ih out (hp.2 out)⟩
  | insert t values next ih => exact ⟨hp.1, fun out => ih out (hp.2 out)⟩

theorem within_pure (a : α) : (pure a : Prog Row ε α).within rights := trivial

theorem within_throw (e : ε) : (Prog.throw e : Prog Row ε α).within rights := trivial

theorem within_ofExcept (result : Except ε α) : (Prog.ofExcept result : Prog Row ε α).within rights := trivial

theorem within_query (h : rights.select) (q : Rows Row → α) : (Prog.query q : Prog Row ε α).within rights :=
  ⟨h, fun _ => trivial⟩

theorem within_update_where {t : T} {which : Row t → Bool} {change : Row t → Row t}
    (h : ∀ row, which row = true → rights.update t row (some (change row))) :
    (Prog.update_where t which change : Prog Row ε _).within rights :=
  ⟨h, fun _ => trivial⟩

theorem within_delete_where {t : T} {which : Row t → Bool} (h : ∀ row, which row = true → rights.update t row none) :
    (Prog.delete_where t which : Prog Row ε _).within rights :=
  ⟨h, fun _ => trivial⟩

theorem within_insert_into {violation : ε} {t : T} {values : Nat → Row t} (h : ∀ id, rights.insert t (values id)) :
    (Prog.insert_into violation t values : Prog Row ε _).within rights := by
  refine ⟨h, fun out => ?_⟩
  cases out <;> trivial

end Programs

/-- The write that the client is about to make is within the rights. -/
def Session.writes_within (rights : Rights Row) : Session Row ε α → Prop
  | .running (.insert t values _) => ∀ id, rights.insert t (values id)
  | .updating t _ which change _ => ∀ row, which row = true → rights.update t row (change row)
  | _ => True

theorem writes_within_of_todo {rights : Rights Row} {s : Session Row ε α} (h : ∀ p, s.todo = some p → p.within rights) :
    s.writes_within rights := by
  cases s with
  | running p =>
    cases p with
    | insert t values next => exact (h _ rfl).1
    | done result | select next | update t which change next => trivial
  | updating t targets which change next => exact (h _ rfl).1
  | finished result => trivial

/-- Several writes of one program to a row are one that it may make. -/
structure Rights.Closed (rights : Rights Row) : Prop where
  update : ∀ t row row' new, rights.update t row (some row') → rights.update t row' new → rights.update t row new
  insert : ∀ t row row', rights.insert t row → rights.update t row (some row') → rights.insert t row'

/-- What an open transaction has made of the row is within its rights. -/
def Slot.within (t : T) (rights : ι → Rights Row) (s : Slot ι (Row t)) : Prop :=
  ∀ i new, s.pending = some (i, new) → (∀ old, s.committed = some old → (rights i).update t old new) ∧
    (s.committed = none → ∀ row, new = some row → (rights i).insert t row)

theorem within_of_free {t : T} {rights : ι → Rights Row} {s : Slot ι (Row t)} (h : s.pending = none) : s.within t rights := by
  intro i new hnew
  rw [h] at hnew
  cases hnew

/-- Only the rights of the client that has written the row matter. -/
theorem within_congr {t : T} {rights rights' : ι → Rights Row} {s : Slot ι (Row t)} (h : s.within t rights)
    (heq : ∀ i new, s.pending = some (i, new) → rights' i = rights i) : s.within t rights' := by
  intro i new hnew
  rw [heq i new hnew]
  exact h i new hnew

variable [DecidableEq ι] {rights : ι → Rights Row}

/-- A write within the rights, over what the same client has already made of the row. -/
private theorem within_write {t : T} {i : ι} {s : Slot ι (Row t)} {row : Row t} {new : Option (Row t)}
    (hs : s.within t rights) (hclosed : (rights i).Closed) (hvisible : s.visible i = some row)
    (hwrite : (rights i).update t row new) : ({ s with pending := some (i, new) } : Slot ι (Row t)).within t rights := by
  rintro j new' hnew
  obtain ⟨rfl, rfl⟩ := Prod.mk.inj (Option.some.inj hnew)
  cases howned : s.owned i with
  | false =>
    have hcommitted : s.committed = some row := (visible_of_not_owned howned).symm.trans hvisible
    refine ⟨fun old hold => ?_, fun hnone => absurd (hcommitted.symm.trans hnone) (by simp)⟩
    obtain rfl := Option.some.inj (hcommitted.symm.trans hold)
    exact hwrite
  | true =>
    obtain ⟨before, hbefore⟩ := pending_of_owned howned
    obtain rfl : before = some row := by simpa [Slot.visible, hbefore] using hvisible
    obtain ⟨hupdate, hinsert⟩ := hs i (some row) hbefore
    exact ⟨fun old hold => hclosed.update t old row new (hupdate old hold) hwrite,
      fun hnone row' hrow' => hclosed.insert t row row' (hinsert hnone row rfl) (hrow' ▸ hwrite)⟩

variable [DecidableEq T] [Schema Row] {w u : World ι Row ε α} {i : ι}

/-- Open transactions stay within their rights as long as every write is within them. -/
theorem within_of_moved (h : ∀ t, ∀ s ∈ w.slots t, s.within t rights) (hclosed : (rights i).Closed)
    (hwrite : (w.sessions i).writes_within (rights i)) (hmove : w.Moved i u) (t : T) :
    ∀ s ∈ u.slots t, s.within t rights := by
  intro s hmem
  obtain ⟨n, hn⟩ := List.mem_iff_getElem?.mp hmem
  cases slot_step_of_moved hmove hn with
  | same s hs => exact h t s (List.mem_of_getElem? hs)
  | commit before new hs hpending hdone => exact within_of_free rfl
  | rollback before hs howned => exact within_of_free rfl
  | write before hs targets which change next hsession htarget hfree row hvisible hwhich =>
    rw [hsession] at hwrite
    exact within_write (h t before (List.mem_of_getElem? hs)) hclosed hvisible (hwrite row hwhich)
  | add values next hsession id hn =>
    rw [hsession] at hwrite
    rintro j new hnew
    obtain ⟨rfl, rfl⟩ := Prod.mk.inj (Option.some.inj hnew)
    exact ⟨fun old hold => (nomatch hold), fun _ row hrow => Option.some.inj hrow ▸ hwrite id⟩

/-- What is left of a program stays within its rights. -/
theorem todo_within_of_moved {rights : Rights Row} (h : ∀ p, (w.sessions i).todo = some p → p.within rights)
    (hmove : w.Moved i u) : ∀ p, (u.sessions i).todo = some p → p.within rights := by
  cases hmove with
  | commit a hs hu | stop e hs hu =>
    rw [hu]
    simp [World.finish, World.set_session, Session.todo]
  | read next hs hu =>
    rw [hu, sessions_set_session]
    rw [hs] at h
    rintro p ⟨⟩
    exact (h _ rfl).2 _
  | pick t which change next hs hu =>
    rw [hu, sessions_set_session]
    rw [hs] at h
    rintro p ⟨⟩
    exact h _ rfl
  | write t targets which change next hs hfree hu | violate t values next hs hclash hu | add t values next hs hclash hu =>
    rw [hu, sessions_set_session]
    rw [hs] at h
    rintro p ⟨⟩
    exact (h _ rfl).2 _

end sql
