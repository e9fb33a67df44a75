import Iac.Sql.ReadCommitted.Local

namespace sql

variable {ι R S : Type} {i j : ι} {slots : List (Slot ι R)} {row : R}

/-- The row of a slot, committed or inserted by an open transaction. -/
def Slot.stored (s : Slot ι R) : Option R :=
  s.committed.or (s.pending.bind Prod.snd)

theorem filterMap_sublist {f f' : S → Option R} {slots : List S} (h : ∀ s ∈ slots, f s = none ∨ f s = f' s) :
    (slots.filterMap f).Sublist (slots.filterMap f') := by
  induction slots with
  | nil => exact .slnil
  | cons s slots ih =>
    obtain ⟨hs, hrest⟩ := List.forall_mem_cons.mp h
    rw [List.filterMap_cons, List.filterMap_cons]
    obtain hs | hs := hs
    · rw [hs]
      cases f' s with
      | none => exact ih hrest
      | some row => exact (ih hrest).cons row
    · rw [hs]
      cases f' s with
      | none => exact ih hrest
      | some row => exact (ih hrest).cons_cons row

theorem committed_sublist_stored (slots : List (Slot ι R)) :
    (slots.filterMap Slot.committed).Sublist (slots.filterMap Slot.stored) := by
  refine filterMap_sublist fun s _ => ?_
  cases hrow : s.committed with
  | none => exact .inl rfl
  | some row => exact .inr (by simp [Slot.stored, hrow])

/-- Nobody is writing to the row, or one who may is deleting it. -/
def Slot.Standing (deletes : ι → Prop) (s : Slot ι R) : Prop :=
  s.pending = none ∨ ∃ i row, deletes i ∧ s = ⟨some row, some (i, none)⟩

/-- Open transactions have deleted rows of a table, and one that deletes none
may have inserted a row behind all others. -/
def Tail (deletes : ι → Prop) (slots : List (Slot ι R)) : Option (ι × R) → Prop
  | none => ∀ s ∈ slots, s.Standing deletes
  | some (i, row) => ¬ deletes i ∧ ∃ front, slots = front ++ [⟨none, some (i, some row)⟩] ∧ ∀ s ∈ front, s.Standing deletes

section Tail

variable {deletes : ι → Prop} {tail : Option (ι × R)}

theorem Tail.insert (h : Tail deletes slots none) (hi : ¬ deletes i) (row : R) :
    Tail deletes (slots ++ [⟨none, some (i, some row)⟩]) (some (i, row)) :=
  ⟨hi, slots, rfl, h⟩

/-- What a slot of such a table holds. -/
theorem Tail.slot (h : Tail deletes slots tail) {s : Slot ι R} (hs : s ∈ slots) :
    s.Standing deletes ∨ ∃ i row, ¬ deletes i ∧ tail = some (i, row) ∧ s = ⟨none, some (i, some row)⟩ := by
  cases tail with
  | none => exact .inl (h s hs)
  | some inserted =>
    obtain ⟨hkeeps, front, rfl, hfront⟩ := h
    cases List.mem_append.mp hs with
    | inl hmem => exact .inl (hfront s hmem)
    | inr hmem => exact .inr ⟨inserted.1, inserted.2, hkeeps, rfl, List.mem_singleton.mp hmem⟩

/-- A change of every slot that keeps what stands and what was inserted. -/
theorem Tail.mapIdx (h : Tail deletes slots tail) {f : Nat → Slot ι R → Slot ι R}
    (hstands : ∀ n s, slots[n]? = some s → s.Standing deletes → (f n s).Standing deletes)
    (hinserted : ∀ n i row, tail = some (i, row) → slots[n]? = some ⟨none, some (i, some row)⟩ →
      f n ⟨none, some (i, some row)⟩ = ⟨none, some (i, some row)⟩) : Tail deletes (slots.mapIdx f) tail := by
  have hmem {slots' : List (Slot ι R)} (hsub : ∀ (n : Nat) (s : Slot ι R), slots'[n]? = some s → slots[n]? = some s)
      (hold : ∀ s ∈ slots', s.Standing deletes) : ∀ s ∈ slots'.mapIdx f, s.Standing deletes := by
    intro s hs
    obtain ⟨n, hn, rfl⟩ := List.mem_mapIdx.mp hs
    exact hstands n _ (hsub n _ (List.getElem?_eq_getElem hn)) (hold _ (List.getElem_mem hn))
  cases tail with
  | none => exact hmem (fun _ _ => id) h
  | some inserted =>
    obtain ⟨hkeeps, front, rfl, hfront⟩ := h
    refine ⟨hkeeps, front.mapIdx f, ?_, hmem (fun n s hn => ?_) hfront⟩
    · rw [List.mapIdx_append]
      refine congrArg _ (List.singleton_inj.mpr (hinserted _ inserted.1 inserted.2 rfl ?_))
      simp
    · rw [List.getElem?_append_left (List.getElem?_eq_some_iff.mp hn).1]
      exact hn

theorem Tail.map (h : Tail deletes slots tail) {f : Slot ι R → Slot ι R}
    (hstands : ∀ s, s.Standing deletes → (f s).Standing deletes)
    (hinserted : ∀ i row, tail = some (i, row) → f ⟨none, some (i, some row)⟩ = ⟨none, some (i, some row)⟩) :
    Tail deletes (slots.map f) tail := by
  have hmap : slots.map f = slots.mapIdx fun _ => f :=
    List.ext_getElem? fun n => by rw [List.getElem?_map, List.getElem?_mapIdx]
  rw [hmap]
  exact h.mapIdx (fun _ s _ => hstands s) fun _ i row htail _ => hinserted i row htail

variable [DecidableEq ι]

/-- The client has deleted the row and not committed. -/
def Slot.erased (i : ι) (s : Slot ι R) : Bool :=
  match s.pending with
  | some (j, none) => decide (j = i)
  | _ => false

private theorem standing_commit {s : Slot ι R} (h : s.Standing deletes) : (s.commit i).Standing deletes := by
  obtain hnone | ⟨j, row, hj, rfl⟩ := h
  · exact .inl (by simp [Slot.commit, hnone])
  · by_cases hji : j = i
    · exact .inl (by simp [Slot.commit, hji])
    · exact .inr ⟨j, row, hj, by simp [Slot.commit, hji]⟩

private theorem standing_rollback {s : Slot ι R} (h : s.Standing deletes) : (s.rollback i).Standing deletes := by
  obtain hnone | ⟨j, row, hj, rfl⟩ := h
  · exact .inl (by simp [Slot.rollback, hnone])
  · by_cases hji : j = i
    · exact .inl (by simp [Slot.rollback, hji])
    · exact .inr ⟨j, row, hj, by simp [Slot.rollback, hji]⟩

/-- A client that deletes nothing does not touch what stands. -/
private theorem finish_standing {s : Slot ι R} (h : s.Standing deletes) (hi : ¬ deletes i) :
    s.commit i = s ∧ s.rollback i = s := by
  obtain hnone | ⟨j, row, hj, rfl⟩ := h
  · simp [Slot.commit, Slot.rollback, hnone]
  · have hji : j ≠ i := fun heq => hi (heq ▸ hj)
    simp [Slot.commit, Slot.rollback, hji]

/-- The end of a transaction that has inserted nothing here. -/
theorem Tail.finish (h : Tail deletes slots tail) (hfree : ∀ row, tail ≠ some (i, row)) :
    Tail deletes (slots.map (Slot.commit i)) tail ∧ Tail deletes (slots.map (Slot.rollback i)) tail := by
  have hne (j : ι) (row : R) (htail : tail = some (j, row)) : j ≠ i := fun heq => hfree row (heq ▸ htail)
  constructor
  · exact h.map (fun s => standing_commit) fun j row htail => by simp [Slot.commit, hne j row htail]
  · exact h.map (fun s => standing_rollback) fun j row htail => by simp [Slot.rollback, hne j row htail]

/-- The end of a transaction leaves no row that was not stored. -/
theorem Tail.stored_finish (h : Tail deletes slots tail) :
    ((slots.map (Slot.commit i)).filterMap Slot.stored).Sublist (slots.filterMap Slot.stored) ∧
      ((slots.map (Slot.rollback i)).filterMap Slot.stored).Sublist (slots.filterMap Slot.stored) := by
  rw [List.filterMap_map, List.filterMap_map]
  constructor
  · refine filterMap_sublist fun s hs => ?_
    rw [Function.comp_apply]
    obtain (hnone | ⟨j, row, -, rfl⟩) | ⟨j, row, -, -, rfl⟩ := h.slot hs
    · exact .inr (by simp [Slot.commit, hnone])
    · by_cases hj : j = i <;> simp [Slot.commit, Slot.stored, hj]
    · by_cases hj : j = i <;> simp [Slot.commit, Slot.stored, hj]
  · refine filterMap_sublist fun s hs => ?_
    rw [Function.comp_apply]
    obtain (hnone | ⟨j, row, -, rfl⟩) | ⟨j, row, -, -, rfl⟩ := h.slot hs
    · exact .inr (by simp [Slot.rollback, hnone])
    · by_cases hj : j = i <;> simp [Slot.rollback, Slot.stored, hj]
    · by_cases hj : j = i <;> simp [Slot.rollback, Slot.stored, hj]

/-- A rollback takes back what its transaction has inserted. -/
theorem Tail.rollback_inserting (h : Tail deletes slots (some (i, row))) : Tail deletes (slots.map (Slot.rollback i)) none := by
  intro s hs
  obtain ⟨old, hold, rfl⟩ := List.mem_map.mp hs
  obtain hstands | ⟨j, row', -, htail, rfl⟩ := h.slot hold
  · exact standing_rollback hstands
  · obtain ⟨rfl, rfl⟩ := Prod.mk.inj (Option.some.inj htail)
    exact .inl (by simp [Slot.rollback])

/-- A committed insertion adds its row. -/
theorem Tail.commit_inserting (h : Tail deletes slots (some (i, row))) :
    Tail deletes (slots.map (Slot.commit i)) none ∧
      (slots.map (Slot.commit i)).filterMap Slot.committed = slots.filterMap Slot.committed ++ [row] := by
  obtain ⟨hkeeps, front, rfl, hfront⟩ := h
  have hsame : front.map (Slot.commit i) = front := by
    conv_rhs => rw [← List.map_id front]
    exact List.map_congr_left fun s hs => (finish_standing (hfront s hs) hkeeps).1
  rw [List.map_append, hsame]
  constructor
  · intro s hs
    cases List.mem_append.mp hs with
    | inl hmem => exact hfront s hmem
    | inr hmem =>
      obtain rfl : s = ⟨some row, none⟩ := by simpa [Slot.commit] using hmem
      exact .inl rfl
  · simp [Slot.commit]

/-- A transaction that has inserted nothing commits its deletions, each of which no row that stays follows. -/
theorem Tail.commit_deleting (h : Tail deletes slots tail) (hfree : ∀ row, tail ≠ some (i, row))
    (hend : slots.Pairwise fun s later => s.erased i = true → later.committed.isSome = true → later.erased i = true) :
    ∃ rest, slots.filterMap Slot.committed = (slots.map (Slot.commit i)).filterMap Slot.committed ++ rest := by
  have hslot : ∀ s ∈ slots, (s.commit i).committed = if s.erased i then none else s.committed := by
    intro s hs
    obtain (hnone | ⟨j, row, -, rfl⟩) | ⟨j, row, -, htail, rfl⟩ := h.slot hs
    · simp [Slot.commit, Slot.erased, hnone]
    · by_cases hj : j = i <;> simp [Slot.commit, Slot.erased, hj]
    · have hj : j ≠ i := fun heq => hfree row (heq ▸ htail)
      simp [Slot.commit, Slot.erased, hj]
  clear h hfree
  rw [List.filterMap_map]
  induction slots with
  | nil => exact ⟨[], rfl⟩
  | cons s slots ih =>
    obtain ⟨hs, hrest⟩ := List.forall_mem_cons.mp hslot
    obtain ⟨hlater, hend⟩ := List.pairwise_cons.mp hend
    obtain ⟨rest, ih⟩ := ih hend hrest
    by_cases herased : s.erased i = true
    · have hgone : slots.filterMap (Slot.committed ∘ Slot.commit i) = [] := by
        refine List.filterMap_eq_nil_iff.mpr fun t ht => ?_
        rw [Function.comp_apply, hrest t ht]
        split_ifs with hnot
        · rfl
        · by_contra hsome
          exact hnot (hlater t ht herased (Option.isSome_iff_ne_none.mpr hsome))
      refine ⟨(s :: slots).filterMap Slot.committed, ?_⟩
      rw [List.filterMap_cons_none (f := Slot.committed ∘ Slot.commit i), hgone, List.nil_append]
      rw [Function.comp_apply, hs, if_pos herased]
    · refine ⟨rest, ?_⟩
      rw [List.filterMap_cons, List.filterMap_cons, ih, Function.comp_apply, hs, if_neg herased]
      cases s.committed <;> rfl

/-- Where the transaction has neither inserted nor deleted anything, its commit changes nothing that is committed. -/
theorem Tail.commit_nothing (h : Tail deletes slots tail) (hfree : ∀ row, tail ≠ some (i, row))
    (hnone : slots.any (Slot.erased i) = false) : slots.map (Slot.commit i) = slots := by
  conv_rhs => rw [← List.map_id slots]
  refine List.map_congr_left fun s hs => ?_
  have herased : s.erased i = false := by simpa using List.any_eq_false.mp hnone s hs
  obtain (hnone | ⟨j, row, -, rfl⟩) | ⟨j, row, -, htail, rfl⟩ := h.slot hs
  · simp [Slot.commit, hnone]
  · have hj : j ≠ i := by simpa [Slot.erased] using herased
    simp [Slot.commit, hj]
  · have hj : j ≠ i := fun heq => hfree row (heq ▸ htail)
    simp [Slot.commit, hj]

/-- A deletion of rows that nobody is writing. -/
theorem Tail.delete (h : Tail deletes slots tail) (hi : deletes i) {targets : Nat → Bool} (which : R → Bool)
    (hfree : waits i targets slots = false) :
    Tail deletes (rewrite_slots i targets which (fun _ => none) slots) tail ∧
      (rewrite_slots i targets which (fun _ => none) slots).filterMap Slot.stored = slots.filterMap Slot.stored := by
  have hslot (n : Nat) (s : Slot ι R) (hn : slots[n]? = some s) (hstands : s.Standing deletes) :
      (if targets n then s.rewrite i which (fun _ => none) else s) = s ∨
        ∃ row, s = ⟨some row, none⟩ ∧ (if targets n then s.rewrite i which (fun _ => none) else s) =
          ⟨some row, some (i, none)⟩ := by
    cases htarget : targets n with
    | false => exact .inl (by simp)
    | true =>
      obtain hnone | ⟨j, row, -, rfl⟩ := hstands
      · obtain ⟨committed, pending⟩ := s
        obtain rfl : pending = none := hnone
        cases committed with
        | none => exact .inl (by simp [Slot.rewrite, Slot.visible])
        | some row =>
          cases hwhich : which row with
          | false => exact .inl (by simp [Slot.rewrite, Slot.visible, hwhich])
          | true => exact .inr ⟨row, rfl, by simp [Slot.rewrite, Slot.visible, hwhich]⟩
      · obtain rfl : j = i := by simpa [Slot.locked] using free_of_not_waits hfree hn htarget
        exact .inl (by simp [Slot.rewrite, Slot.visible])
  have hkept (n : Nat) (j : ι) (row : R) (hj : ¬ deletes j) :
      (if targets n then Slot.rewrite i which (fun _ => none) ⟨none, some (j, some row)⟩ else ⟨none, some (j, some row)⟩) =
        ⟨none, some (j, some row)⟩ := by
    have hne : j ≠ i := fun heq => hj (heq ▸ hi)
    simp [Slot.rewrite, Slot.visible, hne]
  constructor
  · refine h.mapIdx (fun n s hn hstands => ?_) fun n j row htail hn => ?_
    · obtain hsame | ⟨row, -, hnew⟩ := hslot n s hn hstands
      · exact hsame.symm ▸ hstands
      · exact hnew.symm ▸ .inr ⟨i, row, hi, rfl⟩
    · obtain (hnone | ⟨_, _, -, hs⟩) | ⟨_, _, hj, -, hs⟩ := h.slot (List.mem_of_getElem? hn)
      · cases hnone
      · cases hs
      · obtain ⟨-, hs⟩ := Slot.mk.inj hs
        obtain ⟨rfl, -⟩ := Prod.mk.inj (Option.some.inj hs)
        exact hkept n j row hj
  · have hstored : (rewrite_slots i targets which (fun _ => none) slots).map Slot.stored = slots.map Slot.stored := by
      refine List.ext_getElem? fun n => ?_
      rw [rewrite_slots, List.getElem?_map, List.getElem?_map, List.getElem?_mapIdx]
      cases hn : slots[n]? with
      | none => rfl
      | some s =>
        rw [Option.map_some, Option.map_some, Option.map_some]
        obtain hstands | ⟨j, row, hj, -, rfl⟩ := h.slot (List.mem_of_getElem? hn)
        · obtain hsame | ⟨row, rfl, hnew⟩ := hslot n s hn hstands
          · rw [hsame]
          · rw [hnew]
            rfl
        · rw [hkept n j row hj]
    have hsame := congrArg (List.filterMap id) hstored
    rwa [List.filterMap_map, List.filterMap_map] at hsame

end Tail

end sql

namespace sql

variable {ι R : Type} {holder : Option ι} {i : ι} {slots : List (Slot ι R)} {row : R}

/-- Only the holder of some lock inserts into the table, so what it has not
committed follows everything that is. -/
def Appended (holder : Option ι) (slots : List (Slot ι R)) : Prop :=
  ∃ front back, slots = front ++ back ∧ (∀ s ∈ front, s.pending = none) ∧
    ∀ s ∈ back, s = ⟨none, none⟩ ∨ ∃ i row, holder = some i ∧ s = ⟨none, some (i, some row)⟩

theorem Appended.of_closed (h : ∀ s ∈ slots, s.pending = none) : Appended holder slots :=
  ⟨slots, [], by simp, h, by simp⟩

/-- A lock that is free can be taken. -/
theorem Appended.lock (h : Appended none slots) : Appended holder slots := by
  obtain ⟨front, back, rfl, hfront, hback⟩ := h
  refine .of_closed fun s hs => ?_
  cases List.mem_append.mp hs with
  | inl hmem => exact hfront s hmem
  | inr hmem =>
    obtain rfl | ⟨i, row, hfree, -⟩ := hback s hmem
    · rfl
    · cases hfree

theorem Appended.add (h : Appended (some i) slots) (row : R) :
    Appended (some i) (slots ++ [⟨none, some (i, some row)⟩]) := by
  obtain ⟨front, back, rfl, hfront, hback⟩ := h
  refine ⟨front, back ++ [⟨none, some (i, some row)⟩], by simp, hfront, fun s hs => ?_⟩
  cases List.mem_append.mp hs with
  | inl hmem => exact hback s hmem
  | inr hmem => exact .inr ⟨i, row, rfl, List.mem_singleton.mp hmem⟩

variable [DecidableEq ι]

/-- The end of a transaction without the lock changes nothing. -/
theorem Appended.finish_of_ne (h : Appended holder slots) (hne : holder ≠ some i) :
    slots.map (Slot.commit i) = slots ∧ slots.map (Slot.rollback i) = slots := by
  obtain ⟨front, back, rfl, hfront, hback⟩ := h
  have hslot : ∀ s ∈ front ++ back, s.commit i = s ∧ s.rollback i = s := by
    intro s hs
    cases List.mem_append.mp hs with
    | inl hmem => simp [Slot.commit, Slot.rollback, hfront s hmem]
    | inr hmem =>
      obtain rfl | ⟨j, row, hj, rfl⟩ := hback s hmem
      · exact ⟨rfl, rfl⟩
      · have hji : j ≠ i := fun heq => hne (heq ▸ hj)
        simp [Slot.commit, Slot.rollback, hji]
  rw [List.map_congr_left fun s hs => (hslot s hs).1, List.map_congr_left fun s hs => (hslot s hs).2]
  exact ⟨List.map_id _, List.map_id _⟩

/-- A commit under the lock puts the inserted rows behind the committed ones. -/
theorem Appended.commit (h : Appended (some i) slots) :
    (∀ s ∈ slots.map (Slot.commit i), s.pending = none) ∧
      (slots.map (Slot.commit i)).filterMap Slot.stored = slots.filterMap Slot.stored ∧
      ∃ inserted, (slots.map (Slot.commit i)).filterMap Slot.committed = slots.filterMap Slot.committed ++ inserted ∧
        ∀ row ∈ inserted, row ∈ (slots.filter fun s => s.committed.isNone).filterMap Slot.stored := by
  obtain ⟨front, back, rfl, hfront, hback⟩ := h
  have hsettled : front.map (Slot.commit i) = front := by
    conv_rhs => rw [← List.map_id front]
    exact List.map_congr_left fun s hs => by simp [Slot.commit, hfront s hs]
  refine ⟨fun s hs => ?_, ?_, ?_⟩
  · obtain ⟨old, hold, rfl⟩ := List.mem_map.mp hs
    cases List.mem_append.mp hold with
    | inl hmem => simp [Slot.commit, hfront old hmem]
    | inr hmem =>
      obtain rfl | ⟨j, row, hj, rfl⟩ := hback old hmem
      · rfl
      · obtain rfl := Option.some.inj hj
        simp [Slot.commit]
  · rw [List.filterMap_map]
    refine List.filterMap_congr fun s hs => ?_
    cases List.mem_append.mp hs with
    | inl hmem => simp [Slot.commit, hfront s hmem]
    | inr hmem =>
      obtain rfl | ⟨j, row, hj, rfl⟩ := hback s hmem
      · rfl
      · obtain rfl := Option.some.inj hj
        simp [Slot.commit, Slot.stored]
  · have hback_committed : back.filterMap Slot.committed = [] := by
      rw [List.filterMap_eq_nil_iff]
      intro s hs
      obtain rfl | ⟨j, row, -, rfl⟩ := hback s hs <;> rfl
    refine ⟨(back.map (Slot.commit i)).filterMap Slot.committed, ?_, fun row hrow => ?_⟩
    · rw [List.map_append, hsettled, List.filterMap_append, List.filterMap_append, hback_committed, List.append_nil]
    · rw [List.filterMap_map] at hrow
      obtain ⟨s, hs, hrow⟩ := List.mem_filterMap.mp hrow
      refine List.mem_filterMap.mpr ⟨s, List.mem_filter.mpr ⟨List.mem_append_right _ hs, ?_⟩, ?_⟩
      · obtain rfl | ⟨j, row', -, rfl⟩ := hback s hs <;> rfl
      · obtain rfl | ⟨j, row', hj, rfl⟩ := hback s hs
        · cases hrow
        · obtain rfl := Option.some.inj hj
          simpa [Slot.commit, Slot.stored] using hrow

theorem Appended.rollback (h : Appended (some i) slots) :
    (∀ s ∈ slots.map (Slot.rollback i), s.pending = none) ∧
      ((slots.map (Slot.rollback i)).filterMap Slot.stored).Sublist (slots.filterMap Slot.stored) := by
  obtain ⟨front, back, rfl, hfront, hback⟩ := h
  constructor
  · intro s hs
    obtain ⟨old, hold, rfl⟩ := List.mem_map.mp hs
    cases List.mem_append.mp hold with
    | inl hmem => simp [Slot.rollback, hfront old hmem]
    | inr hmem =>
      obtain rfl | ⟨j, row, hj, rfl⟩ := hback old hmem
      · rfl
      · obtain rfl := Option.some.inj hj
        simp [Slot.rollback]
  · rw [List.filterMap_map]
    refine filterMap_sublist fun s hs => ?_
    cases List.mem_append.mp hs with
    | inl hmem => exact .inr (by simp [Slot.rollback, hfront s hmem])
    | inr hmem =>
      obtain rfl | ⟨j, row, hj, rfl⟩ := hback s hmem
      · exact .inl rfl
      · obtain rfl := Option.some.inj hj
        exact .inl (by simp [Slot.rollback, Slot.stored])

end sql
