import Iac.Sql.Leaves
import Iac.Sql.ReadCommitted.Local
import Mathlib.Data.Fintype.Defs

namespace sql

variable {T ι K : Type} {Row : T → Type} {ε α β : Type}

/-- The program changes rows of the table in one UPDATE at most, by `take`, and
answers only with keys of the rows it changed there. The UPDATE matches a row
that `known` admits only if it is `ready`; a program that `picks` knows the rows
it has just read. -/
def Prog.takes (t₀ : T) (key : Row t₀ → K) (take : Row t₀ → Row t₀) (ready : Row t₀ → Prop) (picks : Prop)
    (known : Row t₀ → Prop) : Prog Row ε (List K) → Prop
  | .done (.ok keys) => keys = []
  | .done (.error _) => True
  | .select next => ∀ rows, ((rows t₀).map key).Nodup →
    (next rows).takes t₀ key take ready picks fun row => picks → row ∈ rows t₀
  | .update t which change next =>
    (∀ h : t = t₀, ∀ row, change row = some (h ▸ take (h ▸ row)) ∧ (known (h ▸ row) → which row = true → ready (h ▸ row))) ∧
      ∀ out, (∀ h : t = t₀, (next out).leaves t₀ ∧
          (next out).returns fun keys => ∀ k ∈ keys, ∃ row ∈ out, key (h ▸ row) = k) ∧
        (t ≠ t₀ → (next out).takes t₀ key take ready picks fun _ => True)
  | .insert t _ next => t ≠ t₀ ∧ ∀ out, (next out).takes t₀ key take ready picks fun _ => True

section Programs

variable {t₀ : T} {key : Row t₀ → K} {take : Row t₀ → Row t₀} {ready : Row t₀ → Prop} {picks : Prop}
variable {known : Row t₀ → Prop}

theorem takes_throw (e : ε) : (Prog.throw e : Prog Row ε (List K)).takes t₀ key take ready picks known := trivial

theorem takes_query {q : Rows Row → α} {k : α → Prog Row ε (List K)}
    (hk : ∀ rows, ((rows t₀).map key).Nodup → (k (q rows)).takes t₀ key take ready picks fun row => picks → row ∈ rows t₀) :
    (Prog.query q >>= k).takes t₀ key take ready picks known :=
  hk

/-- The UPDATE that takes the rows. -/
theorem takes_update {which : Row t₀ → Bool} {k : List (Row t₀) → Prog Row ε (List K)}
    (hready : ∀ row, known row → which row = true → ready row) (hleaves : ∀ out, (k out).leaves t₀)
    (hreturns : ∀ out, (k out).returns fun keys => ∀ x ∈ keys, ∃ row ∈ out, key row = x) :
    (Prog.update_where t₀ which take >>= k).takes t₀ key take ready picks known :=
  ⟨fun _ row => ⟨rfl, hready row⟩, fun out => ⟨fun _ => ⟨hleaves out, hreturns out⟩, fun hne => absurd rfl hne⟩⟩

end Programs

/-- The program's next statement is an UPDATE of `t₀` that matches the row. -/
def Prog.matches (t₀ : T) : Prog Row ε α → Row t₀ → Prop
  | .update t which _ _, row => ∃ h : t = t₀, which (h ▸ row) = true
  | _, _ => False

instance [DecidableEq T] (t₀ : T) (row : Row t₀) : (p : Prog Row ε α) → Decidable (p.matches t₀ row)
  | .update t which _ _ => inferInstanceAs (Decidable (∃ h : t = t₀, which (h ▸ row) = true))
  | .done _ | .select _ | .insert .. => inferInstanceAs (Decidable False)

variable [DecidableEq ι]

/-- What client `i` has written to the row and not committed. -/
def Slot.written {R : Type} (i : ι) (s : Slot ι R) : Option R :=
  match s.pending with
  | some (j, row) => if j = i then row else none
  | none => none

/-- Client `i` does not commit now, or commits no version of a row that an
UPDATE matches which one of those that pick is about to make. -/
def World.spares (w : World ι Row ε α) (t₀ : T) (picks : ι → Prop) (i : ι) : Prop :=
  match w.sessions i with
  | .running (.done (.ok _)) => ∀ j, picks j → ∀ p ∈ (w.sessions j).todo, ∀ s ∈ w.slots t₀, ∀ row ∈ s.written i,
    ¬ p.matches t₀ row
  | _ => True

instance [Fintype ι] [DecidableEq T] (w : World ι Row ε α) (t₀ : T) (picks : ι → Prop) [DecidablePred picks] (i : ι) :
    Decidable (w.spares t₀ picks i) := by
  unfold World.spares
  split <;> infer_instance

/-- What is left of client `i`'s program takes rows of `t₀`, and knows every
committed row that it is about to take. -/
def Prog.asks (t₀ : T) (key : Row t₀ → K) (take : Row t₀ → Row t₀) (ready : Row t₀ → Prop) (picks : Prop)
    (rows : List (Option (Row t₀))) (p : Prog Row ε (List K)) : Prop :=
  ∃ known : Row t₀ → Prop, p.takes t₀ key take ready picks known ∧ (¬ picks → ∀ row, known row) ∧
    ∀ row, some row ∈ rows → p.matches t₀ row → known row

theorem asks_of_takes {t₀ : T} {key : Row t₀ → K} {take : Row t₀ → Row t₀} {ready : Row t₀ → Prop} {picks : Prop}
    {rows : List (Option (Row t₀))} {p : Prog Row ε (List K)} (h : p.takes t₀ key take ready picks fun _ => True) :
    p.asks t₀ key take ready picks rows :=
  ⟨_, h, fun _ _ => trivial, fun _ _ _ => trivial⟩

/-- The key of the row in slot `n`. -/
def World.holds (w : World ι Row ε α) (t₀ : T) (key : Row t₀ → K) (n : Nat) (k : K) : Prop :=
  ∃ s row, (w.slots t₀)[n]? = some s ∧ s.committed = some row ∧ key row = k

/-- Which clients have taken which rows: `took i n` when `i` has written slot
`n`. Those that committed have taken a row one after the other, and who has it
now comes after them. -/
structure Taken (t₀ : T) (key : Row t₀ → K) (take : ι → Row t₀ → Row t₀) (ready : ι → Row t₀ → Prop) (picks : ι → Prop)
    (before : ι → ι → Prop) (w : World ι Row ε (List K)) (took : ι → Nat → Prop) : Prop where
  keys : ∀ n m k, w.holds t₀ key n k → w.holds t₀ key m k → n = m
  stored : ∀ n s, (w.slots t₀)[n]? = some s → ∃ row, s.committed = some row ∧
    ∀ i new, s.pending = some (i, new) → new = some (take i row) ∧ took i n ∧
      ∀ j, w.succeeded j → took j n → before j i
  asking : ∀ i p, (w.sessions i).todo = some p →
    (∀ n, ¬ took i n) ∧ p.asks t₀ key (take i) (ready i) (picks i) ((w.slots t₀).map Slot.committed) ∨
    p.leaves t₀ ∧ (p.returns fun ks => ∀ k ∈ ks, ∃ n, took i n ∧ w.holds t₀ key n k) ∧
      ∀ n, took i n → ∃ s row, (w.slots t₀)[n]? = some s ∧ s.pending = some (i, row)
  answered : ∀ i ks, w.sessions i = .finished (.ok ks) → ∀ k ∈ ks, ∃ n, took i n ∧ w.holds t₀ key n k
  last : ∀ n s row, (w.slots t₀)[n]? = some s → s.committed = some row → (∀ i, w.succeeded i → ¬ took i n) ∨
    ∃ i old, w.succeeded i ∧ took i n ∧ row = take i old ∧ ∀ j, w.succeeded j → took j n → j = i ∨ before j i
  turns : ∀ n i j, w.succeeded i → w.succeeded j → took i n → took j n → i = j ∨ before i j ∨ before j i

section Taken

variable {t₀ : T} {key : Row t₀ → K} {take : ι → Row t₀ → Row t₀} {ready : ι → Row t₀ → Prop} {picks : ι → Prop}
variable {before : ι → ι → Prop}
variable {w u : World ι Row ε (List K)} {took : ι → Nat → Prop} {i : ι}

omit [DecidableEq ι] in
private theorem holds_congr (h : (u.slots t₀).map Slot.committed = (w.slots t₀).map Slot.committed) (n : Nat) (k : K) :
    u.holds t₀ key n k ↔ w.holds t₀ key n k := by
  have hget : ((u.slots t₀)[n]?).map Slot.committed = ((w.slots t₀)[n]?).map Slot.committed := by
    rw [← List.getElem?_map, ← List.getElem?_map, h]
  have hiff (v : World ι Row ε (List K)) : v.holds t₀ key n k ↔
      ∃ row, ((v.slots t₀)[n]?).map Slot.committed = some (some row) ∧ key row = k := by
    simp only [World.holds, Option.map_eq_some_iff]
    constructor
    · rintro ⟨s, row, hs, hrow, hk⟩
      exact ⟨row, ⟨s, hs, hrow⟩, hk⟩
    · rintro ⟨row, ⟨s, hs, hrow⟩, hk⟩
      exact ⟨s, row, hs, hrow, hk⟩
  rw [hiff, hiff, hget]

/-- A client that has taken nothing sees what is committed. -/
private theorem Taken.visible_eq (h : Taken t₀ key take ready picks before w took) (hnone : ∀ n, ¬ took i n)
    {s : Slot ι (Row t₀)} (hs : s ∈ w.slots t₀) : s.visible i = s.committed := by
  obtain ⟨n, hn⟩ := List.mem_iff_getElem?.mp hs
  obtain ⟨row, -, hversion⟩ := h.stored n s hn
  cases hp : s.pending with
  | none => simp [Slot.visible, hp]
  | some p =>
    have hne : p.1 ≠ i := by
      rintro rfl
      exact hnone n (hversion p.1 p.2 hp).2.1
    simp [Slot.visible, hp, hne]

/-- The keys that such a client sees are different. -/
private theorem Taken.nodup_view (h : Taken t₀ key take ready picks before w took) (hnone : ∀ n, ¬ took i n) :
    ((w.view i t₀).map key).Nodup := by
  rw [List.Nodup, List.pairwise_map, World.view, List.pairwise_filterMap, List.pairwise_iff_getElem]
  intro n m hn hm hlt row hrow row' hrow' heq
  rw [h.visible_eq hnone (List.getElem_mem hn)] at hrow
  rw [h.visible_eq hnone (List.getElem_mem hm)] at hrow'
  have hsame := h.keys n m (key row) ⟨_, row, List.getElem?_eq_getElem hn, hrow, rfl⟩
    ⟨_, row', List.getElem?_eq_getElem hm, hrow', heq.symm⟩
  omega

omit [DecidableEq ι] in
/-- Who took a row before comes before whoever finds it ready. -/
private theorem Taken.comes_after (h : Taken t₀ key take ready picks before w took)
    (htrans : ∀ i j k, before i j → before j k → before i k) (hready : ∀ i j row, ready i (take j row) → before j i)
    {n : Nat} {s : Slot ι (Row t₀)} {row : Row t₀} (hs : (w.slots t₀)[n]? = some s) (hrow : s.committed = some row)
    (hrow_ready : ready i row) {j : ι} (hj : w.succeeded j) (htook : took j n) : before j i := by
  obtain hnobody | ⟨l, old, -, -, rfl, hlast⟩ := h.last n s row hs hrow
  · exact absurd htook (hnobody j hj)
  · have hl := hready i l old hrow_ready
    obtain rfl | hbefore := hlast j hj htook
    · exact hl
    · exact htrans j l i hbefore hl

/-- A slot after the commit of a client: written by it and now its own, or as it was. -/
private theorem Taken.slot_of_commit (h : Taken t₀ key take ready picks before w took)
    (hpending : ∀ n, took i n → ∃ s row, (w.slots t₀)[n]? = some s ∧ s.pending = some (i, row)) {n : Nat}
    {s : Slot ι (Row t₀)} (hn : ((w.slots t₀)[n]?).map (Slot.commit i) = some s) :
    (∃ r row, (w.slots t₀)[n]? = some r ∧ r.committed = some row ∧ took i n ∧ s = ⟨some (take i row), none⟩ ∧
      (∀ j, w.succeeded j → took j n → before j i) ∧ r.written i = some (take i row)) ∨
    ¬ took i n ∧ (w.slots t₀)[n]? = some s := by
  obtain ⟨r, hr, rfl⟩ := Option.map_eq_some_iff.mp hn
  obtain ⟨row, hrow, hversion⟩ := h.stored n r hr
  by_cases htook : took i n
  · obtain ⟨r', new, hr', hp⟩ := hpending n htook
    obtain rfl := Option.some.inj (hr.symm.trans hr')
    obtain ⟨rfl, -, hahead⟩ := hversion i new hp
    exact .inl ⟨r, row, hr, hrow, htook, by simp [Slot.commit, hp], hahead, by simp [Slot.written, hp]⟩
  · refine .inr ⟨htook, hr.trans ?_⟩
    cases hp : r.pending with
    | none => simp [Slot.commit, hp]
    | some p =>
      have hne : p.1 ≠ i := by
        rintro rfl
        exact htook (hversion p.1 p.2 hp).2.1
      simp [Slot.commit, hp, hne]

variable [DecidableEq T] [Schema Row]

/-- A step that leaves the table alone. -/
private theorem Taken.progress (h : Taken t₀ key take ready picks before w took) (hmove : w.Moved i u) (hkeep : ¬ u.succeeded i)
    (hslots : u.slots t₀ = w.slots t₀) {p p' : Prog Row ε (List K)} (hp : (w.sessions i).todo = some p)
    (hp' : (u.sessions i).todo = some p') (hleaves : p.leaves t₀ → p'.leaves t₀)
    (hreturns : ∀ P, p.returns P → p'.returns P)
    (hasks : (∀ n, ¬ took i n) → p.asks t₀ key (take i) (ready i) (picks i) ((w.slots t₀).map Slot.committed) →
      p'.asks t₀ key (take i) (ready i) (picks i) ((w.slots t₀).map Slot.committed)) :
    Taken t₀ key take ready picks before u took := by
  have hholds (n : Nat) (k : K) : u.holds t₀ key n k ↔ w.holds t₀ key n k := holds_congr (by rw [hslots]) n k
  have hsucceeded := succeeded_iff_of_moved hmove hkeep
  refine ⟨?_, ?_, fun j q hq => ?_, fun j ks hj k hk => ?_, ?_, ?_⟩
  · simpa only [hholds] using h.keys
  · simpa only [hslots, hsucceeded] using h.stored
  · simp only [hholds, hslots]
    by_cases hj : j = i
    · subst hj
      obtain rfl := Option.some.inj (hp'.symm.trans hq)
      obtain ⟨hnone, hprog⟩ | ⟨hdone, hkeys, hpending⟩ := h.asking j p hp
      · exact .inl ⟨hnone, hasks hnone hprog⟩
      · exact .inr ⟨hleaves hdone, hreturns _ hkeys, hpending⟩
    · exact h.asking j q (sessions_of_ne hmove hj ▸ hq)
  · simp only [hholds]
    exact h.answered j ks ((finished_iff_of_moved hmove hkeep j ks).mp hj) k hk
  · simpa only [hslots, hsucceeded] using h.last
  · simpa only [hsucceeded] using h.turns

private theorem Taken.stop (h : Taken t₀ key take ready picks before w took) {e : ε} (hmove : w.Moved i u)
    (hu : u = w.finish i (.error e)) : Taken t₀ key take ready picks before u took := by
  have hkeep : ¬ u.succeeded i := by
    rintro ⟨ks, hks⟩
    simp [hu, World.finish, World.set_session] at hks
  have hslots : u.slots t₀ = (w.slots t₀).map (Slot.rollback i) := by rw [hu]; rfl
  have hget (n : Nat) : (u.slots t₀)[n]? = ((w.slots t₀)[n]?).map (Slot.rollback i) := by
    rw [hslots, List.getElem?_map]
  have hcommitted : (u.slots t₀).map Slot.committed = (w.slots t₀).map Slot.committed := by
    rw [hslots, List.map_map]
    exact List.map_congr_left fun s _ => committed_rollback
  have hholds (n : Nat) (k : K) : u.holds t₀ key n k ↔ w.holds t₀ key n k := holds_congr hcommitted n k
  have hsucceeded := succeeded_iff_of_moved hmove hkeep
  refine ⟨?_, fun n s hs => ?_, fun j q hq => ?_, fun j ks hj k hk => ?_, fun n s row hs hrow => ?_, ?_⟩
  · simpa only [hholds] using h.keys
  · rw [hget] at hs
    obtain ⟨r, hr, rfl⟩ := Option.map_eq_some_iff.mp hs
    obtain ⟨row, hrow, hpending⟩ := h.stored n r hr
    refine ⟨row, committed_rollback.trans hrow, fun j new hnew => ?_⟩
    simp only [hsucceeded]
    exact hpending j new (pending_of_rollback hnew)
  · have hj : j ≠ i := by
      rintro rfl
      simp [hu, World.finish, World.set_session, Session.todo] at hq
    simp only [hholds, hcommitted]
    refine (h.asking j q (sessions_of_ne hmove hj ▸ hq)).imp_right fun hasked => ⟨hasked.1, hasked.2.1, fun n hn => ?_⟩
    obtain ⟨s, row, hs, hp⟩ := hasked.2.2 n hn
    refine ⟨s.rollback i, row, by rw [hget, hs]; rfl, ?_⟩
    simp [Slot.rollback, hp, hj]
  · simp only [hholds]
    exact h.answered j ks ((finished_iff_of_moved hmove hkeep j ks).mp hj) k hk
  · rw [hget] at hs
    obtain ⟨r, hr, rfl⟩ := Option.map_eq_some_iff.mp hs
    simp only [hsucceeded]
    exact h.last n r row hr (by rwa [committed_rollback] at hrow)
  · simpa only [hsucceeded] using h.turns

/-- A client takes the rows that its UPDATE changes. -/
private theorem Taken.write (h : Taken t₀ key take ready picks before w took) (hmove : w.Moved i u) {targets : Nat → Bool}
    {which : Row t₀ → Bool} {change : Row t₀ → Option (Row t₀)} {next : List (Row t₀) → Prog Row ε (List K)}
    (hkey : ∀ i row, key (take i row) = key row) (htrans : ∀ i j k, before i j → before j k → before i k)
    (hready : ∀ i j row, ready i (take j row) → before j i) (hs : w.sessions i = .updating t₀ targets which change next)
    (hfree : ∀ n s, (w.slots t₀)[n]? = some s → targets n = true → s.locked i = false)
    (hu : u = (w.set_slots t₀ (rewrite_slots i targets which change (w.slots t₀))).set_session i
      (.running (next (rewritten i targets which change (w.slots t₀))))) :
    ∃ took', Taken t₀ key take ready picks before u took' := by
  have htodo : (w.sessions i).todo = some (.update t₀ which change next) := by rw [hs]; rfl
  obtain ⟨hnone, known, hprog, -, hknown⟩ :=
    (h.asking i _ htodo).resolve_right fun hdone => hdone.1.1 rfl
  have hchange (row : Row t₀) : change row = some (take i row) := (hprog.1 rfl row).1
  have hnext := (hprog.2 (rewritten i targets which change (w.slots t₀))).1 rfl
  have hsession : u.sessions i = .running (next (rewritten i targets which change (w.slots t₀))) := by
    rw [hu, sessions_set_session]
  have hkeep : ¬ u.succeeded i := by
    rintro ⟨ks, hks⟩
    rw [hsession] at hks
    cases hks
  have hslots : u.slots t₀ = rewrite_slots i targets which change (w.slots t₀) := by
    rw [hu]
    exact Function.update_self _ _ _
  have hclean : ∀ n s, (w.slots t₀)[n]? = some s → targets n = true → s.pending = none := by
    intro n s hn htarget
    obtain ⟨row, -, hpending⟩ := h.stored n s hn
    cases hp : s.pending with
    | none => rfl
    | some p =>
      obtain ⟨j, new⟩ := p
      obtain rfl : j = i := by simpa [Slot.locked, hp] using hfree n s hn htarget
      exact absurd (hpending j new hp).2.1 (hnone n)
  have hsucceeded := succeeded_iff_of_moved hmove hkeep
  have hcommitted : (u.slots t₀).map Slot.committed = (w.slots t₀).map Slot.committed :=
    hslots ▸ map_committed_rewrite_slots ..
  have hholds (n : Nat) (k : K) : u.holds t₀ key n k ↔ w.holds t₀ key n k := holds_congr hcommitted n k
  -- the row still meets what the client's UPDATE demands of it
  have hmine {n : Nat} {row : Row t₀} (hrow : (w.slots t₀)[n]? = some ⟨some row, none⟩) (hwhich : which row = true) (j : ι)
      (hj : w.succeeded j) (htook : took j n) : before j i := by
    have hrow_known : known row :=
      hknown row (List.mem_map.mpr ⟨_, List.mem_of_getElem? hrow, rfl⟩) ⟨rfl, hwhich⟩
    exact h.comes_after htrans hready hrow rfl ((hprog.1 rfl row).2 hrow_known hwhich) hj htook
  refine ⟨fun j n => took j n ∨ j = i ∧ ∃ s row, (u.slots t₀)[n]? = some s ∧ s.pending = some (i, row), ?_⟩
  have htook (j : ι) (hj : w.succeeded j) (n : Nat) :
      (took j n ∨ j = i ∧ ∃ s row, (u.slots t₀)[n]? = some s ∧ s.pending = some (i, row)) ↔ took j n := by
    refine or_iff_left fun hown => hkeep ?_
    exact (hsucceeded i).mpr (hown.1 ▸ hj)
  refine ⟨?_, fun n s hs' => ?_, fun j q hq => ?_, fun j ks hj k hk => ?_, fun n s row hs' hrow => ?_, ?_⟩
  · simpa only [hholds] using h.keys
  · rw [hslots] at hs'
    obtain hsame | ⟨row, hold, htarget, hwhich, hnew⟩ := rewrite_slots_get hclean n
    · obtain ⟨row, hrow, hpending⟩ := h.stored n s (hsame ▸ hs')
      refine ⟨row, hrow, fun j new hp => ?_⟩
      obtain ⟨hversion, hj, hahead⟩ := hpending j new hp
      refine ⟨hversion, .inl hj, fun k hk hk' => ?_⟩
      rw [hsucceeded] at hk
      exact hahead k hk ((htook k hk n).mp hk')
    · obtain rfl := Option.some.inj (hnew.symm.trans hs')
      refine ⟨row, rfl, fun j new hp => ?_⟩
      obtain ⟨rfl, rfl⟩ := Prod.mk.inj (Option.some.inj hp)
      refine ⟨hchange row, .inr ⟨rfl, _, _, hslots ▸ hnew, rfl⟩, fun k hk hk' => ?_⟩
      rw [hsucceeded] at hk
      exact hmine hold hwhich k hk ((htook k hk n).mp hk')
  · simp only [hholds, hcommitted]
    by_cases hj : j = i
    · subst hj
      rw [hsession] at hq
      obtain rfl := Option.some.inj hq
      refine .inr ⟨hnext.1, returns_mono hnext.2 fun ks hks k hk => ?_, fun n hn => hn.elim (absurd · (hnone n)) And.right⟩
      obtain ⟨out, hout, rfl⟩ := hks k hk
      obtain ⟨n, row, hold, htarget, hwhich, rfl⟩ := (mem_rewritten hclean out).mp hout
      have hnew : (u.slots t₀)[n]? = some ⟨some row, some (j, change row)⟩ := by
        rw [hslots, rewrite_slots, List.getElem?_mapIdx, hold]
        simp [htarget, Slot.rewrite, Slot.visible, hwhich]
      refine ⟨n, .inr ⟨rfl, _, _, hnew, rfl⟩, _, row, hold, rfl, ?_⟩
      rw [answer, hchange, Option.getD_some]
      exact (hkey j row).symm
    · obtain ⟨hnot, hprog'⟩ | ⟨hdone, hkeys, hpending⟩ := h.asking j q (sessions_of_ne hmove hj ▸ hq)
      · exact .inl ⟨fun n hn => hn.elim (hnot n) fun hn => hj hn.1, hprog'⟩
      · refine .inr ⟨hdone, returns_mono hkeys fun ks hks k hk => ?_, fun n hn => ?_⟩
        · obtain ⟨n, hn, hheld⟩ := hks k hk
          exact ⟨n, .inl hn, hheld⟩
        · obtain ⟨s, row, hold, hp⟩ := hpending n (hn.resolve_right fun hn => hj hn.1)
          obtain hsame | ⟨row', hold', -⟩ := rewrite_slots_get hclean n
          · exact ⟨s, row, by rw [hslots, hsame, hold], hp⟩
          · obtain rfl := Option.some.inj (hold.symm.trans hold')
            cases hp
  · simp only [hholds]
    obtain ⟨n, hn, hheld⟩ := h.answered j ks ((finished_iff_of_moved hmove hkeep j ks).mp hj) k hk
    exact ⟨n, .inl hn, hheld⟩
  · have hcommitted : ∃ r, (w.slots t₀)[n]? = some r ∧ r.committed = some row := by
      rw [hslots] at hs'
      obtain hsame | ⟨row', hold, -, -, hnew⟩ := rewrite_slots_get hclean n
      · exact ⟨s, hsame ▸ hs', hrow⟩
      · obtain rfl := Option.some.inj (hnew.symm.trans hs')
        exact ⟨_, hold, hrow⟩
    obtain ⟨r, hr, hr_row⟩ := hcommitted
    obtain hnobody | ⟨l, old, hl, hl_took, hversion, hlast⟩ := h.last n r row hr hr_row
    · refine .inl fun j hj hn => ?_
      rw [hsucceeded] at hj
      exact hnobody j hj ((htook j hj n).mp hn)
    · refine .inr ⟨l, old, (hsucceeded l).mpr hl, .inl hl_took, hversion, fun j hj hn => ?_⟩
      rw [hsucceeded] at hj
      exact hlast j hj ((htook j hj n).mp hn)
  · intro n j k hj hk hn hn'
    rw [hsucceeded] at hj hk
    exact h.turns n j k hj hk ((htook j hj n).mp hn) ((htook k hk n).mp hn')

/-- A commit makes its client the last one that took its rows. -/
private theorem Taken.commit (h : Taken t₀ key take ready picks before w took) (hkey : ∀ i row, key (take i row) = key row)
    {ks : List K} (hs : w.sessions i = .running (.done (.ok ks))) (hspares : w.spares t₀ picks i) (hmove : w.Moved i u)
    (hu : u = w.finish i (.ok ks)) :
    Taken t₀ key take ready picks before u took := by
  have hget (n : Nat) : (u.slots t₀)[n]? = ((w.slots t₀)[n]?).map (Slot.commit i) := by
    rw [hu, ← List.getElem?_map]
    rfl
  have hsession : u.sessions i = .finished (.ok ks) := by simp [hu, World.finish, World.set_session]
  have hsucceeded (j : ι) : u.succeeded j ↔ j = i ∨ w.succeeded j := by
    by_cases hj : j = i
    · subst hj
      exact iff_of_true ⟨ks, hsession⟩ (.inl rfl)
    · simp [World.succeeded, sessions_of_ne hmove hj, hj]
  have hpending : ∀ n, took i n → ∃ s row, (w.slots t₀)[n]? = some s ∧ s.pending = some (i, row) := by
    obtain ⟨hnone, -⟩ | ⟨-, -, hpending⟩ := h.asking i _ (by rw [hs]; rfl)
    · exact fun n hn => absurd hn (hnone n)
    · exact hpending
  have hslot (n : Nat) (s : Slot ι (Row t₀)) (hn : (u.slots t₀)[n]? = some s) :=
    h.slot_of_commit hpending ((hget n).symm.trans hn)
  have hholds (n : Nat) (k : K) : u.holds t₀ key n k ↔ w.holds t₀ key n k := by
    constructor
    · rintro ⟨s, row, hn, hrow, hk⟩
      obtain ⟨r, old, hr, hold, -, rfl, -⟩ | ⟨-, hr⟩ := hslot n s hn
      · obtain rfl := Option.some.inj hrow
        exact ⟨r, old, hr, hold, hkey i old ▸ hk⟩
      · exact ⟨s, row, hr, hrow, hk⟩
    · rintro ⟨r, row, hr, hrow, hk⟩
      have hn : (u.slots t₀)[n]? = some (r.commit i) := by rw [hget, hr]; rfl
      obtain ⟨r', old, hr', hold, -, hnew, -⟩ | ⟨-, hr'⟩ := hslot n _ hn
      · obtain rfl := Option.some.inj (hr.symm.trans hr')
        obtain rfl := Option.some.inj (hrow.symm.trans hold)
        exact ⟨_, _, hn, by rw [hnew], (hkey i row).trans hk⟩
      · have hsame : r.commit i = r := Option.some.inj (hr'.symm.trans hr)
        exact ⟨_, row, hn, by rw [hsame, hrow], hk⟩
  refine ⟨?_, fun n s hn => ?_, fun j q hq => ?_, fun j ks' hj k hk => ?_, fun n s row hn hrow => ?_, ?_⟩
  · simpa only [hholds] using h.keys
  · obtain ⟨r, row, -, -, -, rfl, -⟩ | ⟨htook, hr⟩ := hslot n s hn
    · exact ⟨_, rfl, fun j new hp => by cases hp⟩
    · obtain ⟨row, hrow, hversion⟩ := h.stored n s hr
      refine ⟨row, hrow, fun j new hp => ?_⟩
      obtain ⟨hnew, hj, hahead⟩ := hversion j new hp
      refine ⟨hnew, hj, fun l hl hl_took => ?_⟩
      obtain rfl | hl := (hsucceeded l).mp hl
      · exact absurd hl_took htook
      · exact hahead l hl hl_took
  · have hj : j ≠ i := by
      rintro rfl
      rw [hsession] at hq
      cases hq
    simp only [hholds]
    have htodo : (w.sessions j).todo = some q := sessions_of_ne hmove hj ▸ hq
    obtain ⟨hnone, known, htakes, hall, hknown⟩ | ⟨hdone, hkeys, hwritten⟩ := h.asking j q htodo
    · refine .inl ⟨hnone, known, htakes, hall, fun row hrow hmatches => ?_⟩
      by_cases hpicks : picks j
      · obtain ⟨s, hs', hrow⟩ := List.mem_map.mp hrow
        obtain ⟨n, hn⟩ := List.mem_iff_getElem?.mp hs'
        obtain ⟨r, old, hr, -, -, rfl, -, hnew⟩ | ⟨-, hr⟩ := hslot n s hn
        · obtain rfl := Option.some.inj hrow
          rw [World.spares, hs] at hspares
          exact absurd hmatches (hspares j hpicks q htodo r (List.mem_of_getElem? hr) _ hnew)
        · exact hknown row (List.mem_map.mpr ⟨s, List.mem_of_getElem? hr, hrow⟩) hmatches
      · exact hall hpicks row
    · refine .inr ⟨hdone, hkeys, fun n hn => ?_⟩
      obtain ⟨s, row, hs', hp⟩ := hwritten n hn
      exact ⟨s.commit i, row, by rw [hget, hs']; rfl, by simp [Slot.commit, hp, hj]⟩
  · simp only [hholds]
    by_cases hji : j = i
    · subst hji
      obtain rfl : ks = ks' := by simpa [hsession] using hj
      obtain ⟨-, hprog⟩ | ⟨-, hkeys, -⟩ := h.asking j _ (by rw [hs]; rfl)
      · obtain ⟨known, htakes, -⟩ := hprog
        obtain rfl : ks = [] := htakes
        cases hk
      · exact hkeys k hk
    · exact h.answered j ks' (sessions_of_ne hmove hji ▸ hj) k hk
  · obtain ⟨r, old, -, -, htook, rfl, hahead, -⟩ | ⟨htook, hr⟩ := hslot n s hn
    · obtain rfl := Option.some.inj hrow
      refine .inr ⟨i, old, (hsucceeded i).mpr (.inl rfl), htook, rfl, fun j hj hj_took => ?_⟩
      exact ((hsucceeded j).mp hj).imp_right fun hj => hahead j hj hj_took
    · obtain hnobody | ⟨l, old, hl, hl_took, hversion, hlast⟩ := h.last n s row hr hrow
      · refine .inl fun j hj hj_took => ?_
        obtain rfl | hj := (hsucceeded j).mp hj
        · exact htook hj_took
        · exact hnobody j hj hj_took
      · refine .inr ⟨l, old, (hsucceeded l).mpr (.inr hl), hl_took, hversion, fun j hj hj_took => ?_⟩
        obtain rfl | hj := (hsucceeded j).mp hj
        · exact absurd hj_took htook
        · exact hlast j hj hj_took
  · intro n j l hj hl hj_took hl_took
    have hahead : ∀ m, w.succeeded m → took m n → took i n → before m i := by
      intro m hm hm_took hi_took
      obtain ⟨s, new, hn, hp⟩ := hpending n hi_took
      obtain ⟨_, _, hversion⟩ := h.stored n s hn
      exact (hversion i new hp).2.2 m hm hm_took
    rcases (hsucceeded j).mp hj with rfl | hj <;> rcases (hsucceeded l).mp hl with rfl | hl
    · exact .inl rfl
    · exact .inr (.inr (hahead l hl hl_took hj_took))
    · exact .inr (.inl (hahead j hj hj_took hl_took))
    · exact h.turns n j l hj hl hj_took hl_took

private theorem Taken.moved (h : Taken t₀ key take ready picks before w took) (hkey : ∀ i row, key (take i row) = key row)
    (htrans : ∀ i j k, before i j → before j k → before i k) (hready : ∀ i j row, ready i (take j row) → before j i)
    (hallowed : (∃ e, u = w.finish i (.error e)) ∨ w.spares t₀ picks i)
    (hmove : w.Moved i u) : ∃ took', Taken t₀ key take ready picks before u took' := by
  have running (p : Prog Row ε (List K)) (hs : u.sessions i = .running p) : ¬ u.succeeded i := by
    rintro ⟨ks, hks⟩
    rw [hs] at hks
    cases hks
  cases hmove with
  | commit ks hs hu =>
    have hsession : u.sessions i = .finished (.ok ks) := by simp [hu, World.finish, World.set_session]
    obtain ⟨e, he⟩ | hspares := hallowed
    · simp [he, World.finish, World.set_session] at hsession
    · exact ⟨took, h.commit hkey hs hspares (.commit ks hs hu) hu⟩
  | stop e hs hu => exact ⟨took, h.stop (.stop e hs hu) hu⟩
  | read next hs hu =>
    have htodo : (w.sessions i).todo = some (.select next) := by rw [hs]; rfl
    have hsession : u.sessions i = .running (next (w.view i)) := by rw [hu, sessions_set_session]
    refine ⟨took, h.progress (.read next hs hu) (running _ hsession) (by rw [hu]; rfl) htodo (by rw [hsession]; rfl)
      (fun hp => hp _) (fun _ hp => hp _) fun hnone hp => ?_⟩
    obtain ⟨known, htakes, -⟩ := hp
    refine ⟨_, htakes (w.view i) (h.nodup_view hnone), fun hpicks row hp => absurd hp hpicks, fun row hrow _ _ => ?_⟩
    obtain ⟨s, hs', hrow⟩ := List.mem_map.mp hrow
    exact List.mem_filterMap.mpr ⟨s, hs', (h.visible_eq hnone hs').trans hrow⟩
  | pick t which change next hs hu =>
    have hsession : u.sessions i = .updating t (w.targets i t which) which change next := by rw [hu, sessions_set_session]
    have hkeep : ¬ u.succeeded i := by
      rintro ⟨ks, hks⟩
      rw [hsession] at hks
      cases hks
    exact ⟨took, h.progress (.pick t which change next hs hu) hkeep (by rw [hu]; rfl) (by rw [hs]; rfl)
      (by rw [hsession]; rfl) id (fun _ => id) fun _ => id⟩
  | write t targets which change next hs hfree hu =>
    have htodo : (w.sessions i).todo = some (.update t which change next) := by rw [hs]; rfl
    have hsession : u.sessions i = .running (next (rewritten i targets which change (w.slots t))) := by
      rw [hu, sessions_set_session]
    by_cases ht : t = t₀
    · subst ht
      exact h.write (.write t targets which change next hs hfree hu) hkey htrans hready hs hfree hu
    · refine ⟨took, h.progress (.write t targets which change next hs hfree hu) (running _ hsession) ?_ htodo
        (by rw [hsession]; rfl) (fun hp => hp.2 _) (fun _ hp => hp _) fun _ hp =>
          hp.elim fun _ hasks => asks_of_takes ((hasks.1.2 _).2 ht)⟩
      rw [hu]
      exact Function.update_of_ne (Ne.symm ht) _ _
  | violate t values next hs hclash hu =>
    have htodo : (w.sessions i).todo = some (.insert t values next) := by rw [hs]; rfl
    have hsession : u.sessions i = .running (next none) := by rw [hu, sessions_set_session]
    exact ⟨took, h.progress (.violate t values next hs hclash hu) (running _ hsession) (by rw [hu]; rfl) htodo
      (by rw [hsession]; rfl) (fun hp => hp.2 _) (fun _ hp => hp _) fun _ hp =>
        hp.elim fun _ hasks => asks_of_takes (hasks.1.2 _)⟩
  | add t values next hs hclash hu =>
    have hsession : u.sessions i = .running (next (some (values (w.seq t)))) := by rw [hu, sessions_set_session]
    have htodo : (w.sessions i).todo = some (.insert t values next) := by rw [hs]; rfl
    have ht : t ≠ t₀ := by
      obtain ⟨-, hprog⟩ | ⟨hdone, -⟩ := h.asking i _ htodo
      · obtain ⟨known, htakes, -⟩ := hprog
        exact htakes.1
      · exact hdone.1
    refine ⟨took, h.progress (.add t values next hs hclash hu) (running _ hsession) ?_ htodo (by rw [hsession]; rfl)
      (fun hp => hp.2 _) (fun _ hp => hp _) fun _ hp =>
        hp.elim fun _ hasks => asks_of_takes (hasks.1.2 _)⟩
    rw [hu]
    exact Function.update_of_ne (Ne.symm ht) _ _

omit [DecidableEq ι] [DecidableEq T] [Schema Row] in
private theorem taken_start {db : Db Row} {progs : ι → Prog Row ε (List K)} (hkeys : ((db.rows t₀).map key).Nodup)
    (htakes : ∀ i, (progs i).takes t₀ key (take i) (ready i) (picks i) fun _ => True) :
    Taken t₀ key take ready picks before (World.start db progs) fun _ _ => False := by
  have hslot (n : Nat) (s : Slot ι (Row t₀)) (hn : ((World.start db progs).slots t₀)[n]? = some s) :
      ∃ row, (db.rows t₀)[n]? = some row ∧ s = ⟨some row, none⟩ := by
    change ((db.rows t₀).map fun row => (⟨some row, none⟩ : Slot ι (Row t₀)))[n]? = some s at hn
    rw [List.getElem?_map] at hn
    obtain ⟨row, hrow, rfl⟩ := Option.map_eq_some_iff.mp hn
    exact ⟨row, hrow, rfl⟩
  refine ⟨?_, fun n s hn => ?_, fun i p hp => .inl ⟨fun _ => id, ?_⟩, fun i ks hi => ?_, ?_, ?_⟩
  · rintro n m k ⟨s, row, hn, hrow, hk⟩ ⟨s', row', hm, hrow', hk'⟩
    obtain ⟨r, hr, rfl⟩ := hslot n s hn
    obtain ⟨r', hr', rfl⟩ := hslot m s' hm
    obtain rfl := Option.some.inj hrow
    obtain rfl := Option.some.inj hrow'
    have hget (l : Nat) (row : Row t₀) (hl : (db.rows t₀)[l]? = some row) : ((db.rows t₀).map key)[l]? = some (key row) := by
      rw [List.getElem?_map, hl]
      rfl
    have hlt : n < ((db.rows t₀).map key).length := (List.getElem?_eq_some_iff.mp (hget n r hr)).1
    exact (List.getElem?_inj hlt hkeys).mp ((hget n r hr).trans (by rw [hk, ← hk', hget m r' hr']))
  · obtain ⟨row, -, rfl⟩ := hslot n s hn
    exact ⟨row, rfl, fun i new hp => by cases hp⟩
  · obtain rfl := Option.some.inj hp
    exact asks_of_takes (htakes i)
  · cases hi
  · exact fun n s row _ _ => .inl fun _ _ => id
  · exact fun n i j _ _ hi => hi.elim

/-- Clients that take rows of a table, each by an UPDATE of its own that only
matches what is `ready`, take every row one after the other: of two that
committed and answered with the same key one comes before the other. A client
that picks its rows by a read of its own must be spared until it has written. -/
theorem taken_in_turn {db : Db Row} {progs : ι → Prog Row ε (List K)} (hkeys : ((db.rows t₀).map key).Nodup)
    (htakes : ∀ i, (progs i).takes t₀ key (take i) (ready i) (picks i) fun _ => True)
    (hkey : ∀ i row, key (take i row) = key row) (htrans : ∀ i j k, before i j → before j k → before i k)
    (hready : ∀ i j row, ready i (take j row) → before j i)
    (hrun : Interleaving (fun w a => ∀ i, a = .advance i → w.spares t₀ picks i) (World.start db progs) w)
    {i j : ι} (hne : i ≠ j) {ks ks' : List K} (hi : w.sessions i = .finished (.ok ks))
    (hj : w.sessions j = .finished (.ok ks')) {k : K} (hk : k ∈ ks) (hk' : k ∈ ks') : before i j ∨ before j i := by
  suffices htaken : ∃ took, Taken t₀ key take ready picks before w took by
    obtain ⟨took, h⟩ := htaken
    obtain ⟨n, hn, hheld⟩ := h.answered i ks hi k hk
    obtain ⟨m, hm, hheld'⟩ := h.answered j ks' hj k hk'
    obtain rfl := h.keys n m k hheld hheld'
    exact (h.turns n i j ⟨ks, hi⟩ ⟨ks', hj⟩ hn hm).resolve_left hne
  clear hi hj
  induction hrun with
  | start => exact ⟨_, taken_start hkeys htakes⟩
  | @step v u a _ hallowed hstep ih =>
    obtain ⟨took, h⟩ := ih
    refine h.moved hkey htrans hready ?_ (moved_of_step hstep)
    cases a with
    | advance l => exact .inr (hallowed l rfl)
    | abort l e =>
      refine .inl ⟨e, ?_⟩
      simp only [World.step] at hstep
      split at hstep
      · cases hstep
      · exact (Option.some.inj hstep).symm

end Taken

end sql
