import Iac.Collections.Fallible
import Mathlib.Data.List.Flatten

namespace rewriting

variable {α ε : Type} (step : α → Except ε (Option (List α)))

/-- One pass over the items: each of them stays or gives way to others. The flag tells whether any did. -/
def rewrite_pass : List α → Except ε (List α × Bool)
  | [] => .ok ([], false)
  | a :: items => do
    let kept ← step a
    let rest ← rewrite_pass items
    return match kept with
      | none => (a :: rest.1, rest.2)
      | some children => (children ++ rest.1, true)

/-- So many passes, until one of them changes nothing. -/
def settle : Nat → List α → Except ε (Option (List α))
  | 0, _ => .ok none
  | passes + 1, items => do
    let next ← rewrite_pass step items
    if next.2 then settle passes next.1 else return some next.1

/-- The item gives way to others. -/
def gives (a : α) : Bool :=
  match step a with
  | .ok (some _) => true
  | _ => false

/-- What an item becomes in one pass. -/
def Once (a : α) (part : List α) : Prop :=
  step a = .ok none ∧ part = [a] ∨ step a = .ok (some part)

/-- Within so many generations an item becomes items that stay. -/
def Grows : Nat → α → List α → Prop
  | 0, a, out => step a = .ok none ∧ out = [a]
  | n + 1, a, out => step a = .ok none ∧ out = [a] ∨
    ∃ children parts, step a = .ok (some children) ∧ List.Forall₂ (Grows n) children parts ∧ out = parts.flatten

/-- Within so many generations the items become items that stay, each in its place. -/
def GrowsAll (n : Nat) (items out : List α) : Prop :=
  ∃ parts, List.Forall₂ (Grows step n) items parts ∧ out = parts.flatten

/-- `b` is among what `a` has given way to after `n` generations. -/
def Descends : Nat → α → α → Prop
  | 0, a, b => a = b
  | n + 1, a, b => ∃ children, step a = .ok (some children) ∧ ∃ c ∈ children, Descends n c b

/-- A descendant of the first `n` generations that cannot be rewritten, or one of generation `n` that still gives way. -/
def Stuck (n : Nat) (a : α) : Prop :=
  ∃ k b, k ≤ n ∧ Descends step k a b ∧ ((∃ e, step b = .error e) ∨ k = n ∧ ∃ children, step b = .ok (some children))

variable {step} {a b : α} {items out : List α} {n : Nat}

theorem gives_iff : gives step a = true ↔ ∃ children, step a = .ok (some children) := by
  rw [gives]
  split
  · rename_i children hstep
    exact iff_of_true rfl ⟨children, hstep⟩
  · rename_i hnot
    exact iff_of_false Bool.false_ne_true fun ⟨children, hstep⟩ => hnot children hstep

theorem rewrite_pass_ok_iff {changed : Bool} : rewrite_pass step items = .ok (out, changed) ↔
    ∃ parts, List.Forall₂ (Once step) items parts ∧ out = parts.flatten ∧ changed = items.any (gives step) := by
  induction items generalizing out changed with
  | nil =>
    constructor
    · intro h
      obtain ⟨rfl, rfl⟩ := Prod.mk.inj (Except.ok.inj h)
      exact ⟨[], .nil, rfl, rfl⟩
    · rintro ⟨parts, hparts, rfl, rfl⟩
      obtain rfl := List.forall₂_nil_left_iff.mp hparts
      rfl
  | cons a items ih =>
    rw [rewrite_pass, fallible.bind_eq_ok_iff]
    constructor
    · rintro ⟨kept, hkept, hrest⟩
      obtain ⟨⟨rest, changed'⟩, hpass, hout⟩ := fallible.bind_eq_ok_iff.mp hrest
      obtain ⟨parts, hparts, rfl, rfl⟩ := ih.mp hpass
      cases kept with
      | none =>
        obtain ⟨rfl, rfl⟩ := Prod.mk.inj (Except.ok.inj hout)
        exact ⟨[a] :: parts, .cons (.inl ⟨hkept, rfl⟩) hparts, rfl, by simp [gives, hkept]⟩
      | some children =>
        obtain ⟨rfl, rfl⟩ := Prod.mk.inj (Except.ok.inj hout)
        exact ⟨children :: parts, .cons (.inr hkept) hparts, rfl, by simp [gives, hkept]⟩
    · rintro ⟨parts, hparts, rfl, rfl⟩
      obtain ⟨part, parts, honce, hrest, rfl⟩ := List.forall₂_cons_left_iff.mp hparts
      have hpass := ih.mpr ⟨parts, hrest, rfl, rfl⟩
      obtain ⟨hstays, rfl⟩ | hgives := honce
      · exact ⟨none, hstays, by rw [hpass]; simp [bind, Except.bind, pure, Except.pure, gives, hstays]⟩
      · exact ⟨some part, hgives, by rw [hpass]; simp [bind, Except.bind, pure, Except.pure, gives, hgives]⟩

theorem grows_of_stays (h : step a = .ok none) : Grows step n a out ↔ out = [a] := by
  cases n with
  | zero => simp [Grows, h]
  | succ n => simp [Grows, h]

theorem growsAll_singleton : GrowsAll step n [a] out ↔ Grows step n a out := by
  simp [GrowsAll, List.forall₂_cons_left_iff]

/-- Items one after the other grow one after the other. -/
theorem growsAll_append {items' : List α} : GrowsAll step n (items ++ items') out ↔
    ∃ out₁ out₂, GrowsAll step n items out₁ ∧ GrowsAll step n items' out₂ ∧ out = out₁ ++ out₂ := by
  constructor
  · rintro ⟨parts, hparts, rfl⟩
    refine ⟨(parts.take items.length).flatten, (parts.drop items.length).flatten,
      ⟨_, (List.forall₂_take_append parts items items' hparts.flip).flip, rfl⟩,
      ⟨_, (List.forall₂_drop_append parts items items' hparts.flip).flip, rfl⟩, ?_⟩
    rw [← List.flatten_append, List.take_append_drop]
  · rintro ⟨out₁, out₂, ⟨parts₁, hparts₁, rfl⟩, ⟨parts₂, hparts₂, rfl⟩, rfl⟩
    exact ⟨parts₁ ++ parts₂, List.rel_append hparts₁ hparts₂, List.flatten_append.symm⟩

/-- The first generation, then the others. -/
theorem grows_succ : Grows step (n + 1) a out ↔ ∃ part, Once step a part ∧ GrowsAll step n part out := by
  constructor
  · rintro (⟨hstays, rfl⟩ | ⟨children, parts, hgives, hparts, rfl⟩)
    · exact ⟨[a], .inl ⟨hstays, rfl⟩, growsAll_singleton.mpr ((grows_of_stays hstays).mpr rfl)⟩
    · exact ⟨children, .inr hgives, parts, hparts, rfl⟩
  · rintro ⟨part, ⟨hstays, rfl⟩ | hgives, hgrows⟩
    · exact .inl ⟨hstays, (grows_of_stays hstays).mp (growsAll_singleton.mp hgrows)⟩
    · obtain ⟨parts, hparts, rfl⟩ := hgrows
      exact .inr ⟨part, parts, hgives, hparts, rfl⟩

theorem growsAll_succ : GrowsAll step (n + 1) items out ↔
    ∃ parts, List.Forall₂ (Once step) items parts ∧ GrowsAll step n parts.flatten out := by
  induction items generalizing out with
  | nil => simp [GrowsAll]
  | cons a items ih =>
    rw [← List.singleton_append, growsAll_append]
    constructor
    · rintro ⟨out₁, out₂, hfirst, hrest, rfl⟩
      obtain ⟨part, honce, hpart⟩ := grows_succ.mp (growsAll_singleton.mp hfirst)
      obtain ⟨parts, hparts, hparts'⟩ := ih.mp hrest
      exact ⟨part :: parts, .cons honce hparts, growsAll_append.mpr ⟨out₁, out₂, hpart, hparts', rfl⟩⟩
    · rintro ⟨parts, hparts, hgrows⟩
      obtain ⟨part, parts, honce, hrest, rfl⟩ := List.forall₂_cons_left_iff.mp hparts
      rw [List.flatten_cons] at hgrows
      obtain ⟨out₁, out₂, hpart, hparts', rfl⟩ := growsAll_append.mp hgrows
      exact ⟨out₁, out₂, growsAll_singleton.mpr (grows_succ.mpr ⟨part, honce, hpart⟩), ih.mpr ⟨parts, hrest, hparts'⟩, rfl⟩

/-- Items that stay grow into themselves. -/
theorem growsAll_of_stay (h : ∀ a ∈ items, step a = .ok none) : GrowsAll step n items out ↔ out = items := by
  induction items generalizing out with
  | nil => simp [GrowsAll]
  | cons a items ih =>
    rw [← List.singleton_append, growsAll_append]
    simp only [growsAll_singleton, grows_of_stays (h a List.mem_cons_self),
      ih fun b hb => h b (List.mem_cons_of_mem a hb)]
    simp

theorem stays_of_once {parts : List (List α)} (h : List.Forall₂ (Once step) items parts) (hnone : items.any (gives step) = false) :
    (∀ a ∈ items, step a = .ok none) ∧ parts.flatten = items := by
  induction h with
  | nil => simp
  | @cons a part items parts honce _ ih =>
    obtain ⟨hself, hrest⟩ : gives step a = false ∧ items.any (gives step) = false := by simpa using hnone
    obtain ⟨hstays, hflatten⟩ := ih hrest
    obtain ⟨hnone, rfl⟩ | hgives := honce
    · exact ⟨List.forall_mem_cons.mpr ⟨hnone, hstays⟩, by rw [List.flatten_cons, hflatten]; rfl⟩
    · rw [gives_iff.mpr ⟨part, hgives⟩] at hself
      cases hself

theorem settle_succ_iff : settle step (n + 1) items = .ok (some out) ↔ ∃ parts, List.Forall₂ (Once step) items parts ∧
    if items.any (gives step) then settle step n parts.flatten = .ok (some out) else out = parts.flatten := by
  rw [settle, fallible.bind_eq_ok_iff]
  constructor
  · rintro ⟨⟨next, changed⟩, hpass, hrest⟩
    obtain ⟨parts, hparts, rfl, rfl⟩ := rewrite_pass_ok_iff.mp hpass
    refine ⟨parts, hparts, ?_⟩
    split_ifs at hrest ⊢ with hany
    · exact hrest
    · exact (Option.some.inj (Except.ok.inj hrest)).symm
  · rintro ⟨parts, hparts, hrest⟩
    refine ⟨(parts.flatten, items.any (gives step)), rewrite_pass_ok_iff.mpr ⟨parts, hparts, rfl, rfl⟩, ?_⟩
    split_ifs at hrest ⊢ with hany
    · exact hrest
    · rw [hrest]
      rfl

/-- Rewriting settles exactly when every item grows within one generation less than there are passes. -/
theorem settle_ok_iff : settle step (n + 1) items = .ok (some out) ↔ GrowsAll step n items out := by
  induction n generalizing items out with
  | zero =>
    rw [settle_succ_iff]
    constructor
    · rintro ⟨parts, hparts, hrest⟩
      split_ifs at hrest with hany
      · cases Except.ok.inj hrest
      · obtain ⟨hstays, hflatten⟩ := stays_of_once hparts (by simpa using hany)
        exact (growsAll_of_stay hstays).mpr (hrest.trans hflatten)
    · intro hgrows
      have hstays : ∀ a ∈ items, step a = .ok none := by
        obtain ⟨parts, hparts, -⟩ := hgrows
        intro a ha
        obtain ⟨part, -, hpart⟩ := fallible.exists_right hparts ha
        exact hpart.1
      obtain rfl := (growsAll_of_stay hstays).mp hgrows
      have hnone : out.any (gives step) = false := by
        refine List.any_eq_false.mpr fun a ha => ?_
        simp [gives, hstays a ha]
      refine ⟨out.map fun a => [a], ?_, ?_⟩
      · rw [List.forall₂_map_right_iff, List.forall₂_same]
        exact fun a ha => .inl ⟨hstays a ha, rfl⟩
      · rw [hnone, if_neg Bool.false_ne_true]
        exact (List.flatMap_singleton' out).symm
  | succ n ih =>
    rw [settle_succ_iff, growsAll_succ]
    refine exists_congr fun parts => and_congr_right fun hparts => ?_
    split_ifs with hany
    · exact ih
    · obtain ⟨hstays, hflatten⟩ := stays_of_once hparts (by simpa using hany)
      rw [hflatten, growsAll_of_stay hstays]

/-- What has grown stays. -/
theorem stays_of_grows (h : Grows step n a out) : ∀ b ∈ out, step b = .ok none := by
  induction n generalizing a out with
  | zero =>
    obtain ⟨hstays, rfl⟩ := h
    simpa using hstays
  | succ n ih =>
    obtain ⟨hstays, rfl⟩ | ⟨children, parts, -, hparts, rfl⟩ := h
    · simpa using hstays
    · intro b hb
      obtain ⟨part, hpart, hmem⟩ := List.mem_flatten.mp hb
      obtain ⟨child, -, hchild⟩ := fallible.exists_left hparts hpart
      exact ih hchild b hmem

theorem stays_of_growsAll (h : GrowsAll step n items out) : ∀ b ∈ out, step b = .ok none := by
  obtain ⟨parts, hparts, rfl⟩ := h
  intro b hb
  obtain ⟨part, hpart, hmem⟩ := List.mem_flatten.mp hb
  obtain ⟨a, -, ha⟩ := fallible.exists_left hparts hpart
  exact stays_of_grows ha b hmem

/-- The items that stay keep their order. -/
theorem sublist_of_growsAll {stays : α → Bool} (hstays : ∀ a, stays a = true → step a = .ok none)
    (h : GrowsAll step n items out) : (items.filter stays).Sublist out := by
  obtain ⟨parts, hparts, rfl⟩ := h
  induction hparts with
  | nil => simp
  | @cons a part items parts hpart _ ih =>
    rw [List.flatten_cons]
    cases hstay : stays a with
    | true =>
      obtain rfl := (grows_of_stays (hstays a hstay)).mp hpart
      rw [List.filter_cons_of_pos hstay]
      exact ih.cons_cons a
    | false =>
      rw [List.filter_cons_of_neg (by simp [hstay])]
      exact ih.trans (List.sublist_append_right part parts.flatten)

theorem stuck_of_error {e : ε} (h : step a = .error e) : Stuck step n a :=
  ⟨0, a, Nat.zero_le n, rfl, .inl ⟨e, h⟩⟩

theorem not_stuck_of_stays (h : step a = .ok none) : ¬ Stuck step n a := by
  rintro ⟨k, b, -, hdescends, hstuck⟩
  cases k with
  | zero =>
    obtain rfl := hdescends
    simp [h] at hstuck
  | succ k =>
    obtain ⟨children, hgives, -⟩ := hdescends
    simp [h] at hgives

theorem stuck_of_gives {children : List α} (h : step a = .ok (some children)) :
    Stuck step (n + 1) a ↔ ∃ c ∈ children, Stuck step n c := by
  constructor
  · rintro ⟨k, b, hk, hdescends, hstuck⟩
    cases k with
    | zero =>
      obtain rfl := hdescends
      simp [h] at hstuck
    | succ k =>
      obtain ⟨children', hgives, c, hc, hdescends⟩ := hdescends
      obtain rfl := Option.some.inj (Except.ok.inj (h.symm.trans hgives))
      exact ⟨c, hc, k, b, by omega, hdescends, hstuck.imp_right fun hlast => ⟨by omega, hlast.2⟩⟩
  · rintro ⟨c, hc, k, b, hk, hdescends, hstuck⟩
    exact ⟨k + 1, b, by omega, ⟨children, h, c, hc, hdescends⟩, hstuck.imp_right fun hlast => ⟨by omega, hlast.2⟩⟩

theorem exists_growsAll_iff : (∃ out, GrowsAll step n items out) ↔ ∀ a ∈ items, ∃ out, Grows step n a out := by
  constructor
  · rintro ⟨out, parts, hparts, -⟩ a ha
    obtain ⟨part, -, hpart⟩ := fallible.exists_right hparts ha
    exact ⟨part, hpart⟩
  · intro hgrow
    induction items with
    | nil => exact ⟨[], [], .nil, rfl⟩
    | cons a items ih =>
      obtain ⟨⟨part, hpart⟩, hrest⟩ := List.forall_mem_cons.mp hgrow
      obtain ⟨out, parts, hparts, -⟩ := ih hrest
      exact ⟨(part :: parts).flatten, part :: parts, .cons hpart hparts, rfl⟩

theorem grows_of_gives {children : List α} (h : step a = .ok (some children)) :
    (∃ out, Grows step (n + 1) a out) ↔ ∃ out, GrowsAll step n children out := by
  constructor
  · rintro ⟨out, ⟨hstays, -⟩ | ⟨children', parts, hgives, hparts, -⟩⟩
    · simp [h] at hstays
    · obtain rfl := Option.some.inj (Except.ok.inj (h.symm.trans hgives))
      exact ⟨parts.flatten, parts, hparts, rfl⟩
  · rintro ⟨out, parts, hparts, -⟩
    exact ⟨parts.flatten, .inr ⟨children, parts, h, hparts, rfl⟩⟩

/-- An item grows exactly when no descendant of it is stuck. -/
theorem grows_iff_not_stuck : (∃ out, Grows step n a out) ↔ ¬ Stuck step n a := by
  induction n generalizing a with
  | zero =>
    cases hstep : step a with
    | error e => simp [Grows, hstep, stuck_of_error hstep]
    | ok kept =>
      cases kept with
      | none => simp [Grows, hstep, not_stuck_of_stays hstep]
      | some children =>
        have hstuck : Stuck step 0 a := ⟨0, a, Nat.le_refl 0, rfl, .inr ⟨rfl, children, hstep⟩⟩
        simp [Grows, hstep, hstuck]
  | succ n ih =>
    cases hstep : step a with
    | error e => simp [Grows, hstep, stuck_of_error hstep]
    | ok kept =>
      cases kept with
      | none => simp [Grows, hstep, not_stuck_of_stays hstep]
      | some children =>
        rw [grows_of_gives hstep, stuck_of_gives hstep, exists_growsAll_iff]
        simp only [ih, not_exists, not_and]

/-- Rewriting does not settle exactly when a descendant of an item is stuck. -/
theorem not_settled_iff : (∀ out, settle step (n + 1) items ≠ .ok (some out)) ↔ ∃ a ∈ items, Stuck step n a := by
  have hsettled : (∃ out, settle step (n + 1) items = .ok (some out)) ↔ ∀ a ∈ items, ¬ Stuck step n a := by
    simp only [settle_ok_iff, exists_growsAll_iff, grows_iff_not_stuck]
  rw [← not_exists, hsettled]
  push Not
  rfl

/-- Rewriting what has been rewritten changes nothing. -/
theorem settle_again {passes : Nat} (h : settle step (passes + 1) items = .ok (some out)) (n : Nat) :
    settle step (n + 1) out = .ok (some out) :=
  settle_ok_iff.mpr ((growsAll_of_stay (stays_of_growsAll (settle_ok_iff.mp h))).mpr rfl)

end rewriting
