import Mathlib.Data.List.Infix
import Mathlib.Data.List.Nodup
import Mathlib.Data.List.Pairwise
import Mathlib.Logic.Relation

namespace polling

variable {R : Type}

/-- Where a consumer is that polls a log by a cursor. While it fires it knows
the cursor it polled from, the last id it read, and which ids of the batch it
has sent. -/
inductive Phase where
  | down
  | starting (latest : Nat)
  | ready (cursor : Nat)
  | firing (cursor last : Nat) (unsent sent : List Nat)
  | persisting (last : Nat) (sent : List Nat)

/-- What was sent since the cursor was last stored. -/
def Phase.sent : Phase → List Nat
  | .firing _ _ _ sent => sent
  | .persisting _ sent => sent
  | _ => []

/-- The cursor in memory. -/
def Phase.cursor : Phase → Option Nat
  | .ready cursor => some cursor
  | .firing cursor _ _ _ => some cursor
  | .persisting last _ => some last
  | _ => none

/-- The visible log and one consumer of it. No row below `floor` will become
visible any more. `since` is the log when the consumer first started, and
`interrupted` what it had sent when it went down before it stored its cursor. -/
structure Lane (R : Type) where
  log : List R
  floor : Nat
  stored : Option Nat
  phase : Phase
  since : Option (List R)
  attempts : List Nat
  interrupted : List Nat
  completed : Nat

section Model

variable (id : R → Nat) (wanted : R → Bool) (base : Option Nat) (limit : Nat)

def latest_id (log : List R) : Nat :=
  (log.map id).foldr max 0

/-- The next rows behind the cursor. -/
def batch (cursor : Nat) (log : List R) : List R :=
  (log.filter fun r => cursor < id r).take limit

def last_id (cursor : Nat) (rows : List R) : Nat :=
  (rows.getLast?.map id).getD cursor

/-- Wanted rows that became visible after the consumer first started. -/
def Lane.Due (L : Lane R) (r : R) : Prop :=
  r ∈ L.log ∧ wanted r = true ∧ ∃ old, L.since = some old ∧ r ∉ old

/-- A consumer that starts again without a stored cursor has already sent what it will pass over. -/
def Lane.KeepsPlace (L : Lane R) (latest : Nat) : Prop :=
  L.stored = none → base = none → ∀ r, L.Due wanted r → id r ≤ latest → id r ∈ L.attempts

inductive Step (guard : Lane R → Nat → Prop) (L : Lane R) : Lane R → Prop where
  | grow (rows : List R) (floor : Nat) (hsorted : rows.Pairwise fun a b => id a < id b)
      (hnew : ∀ r ∈ rows, L.floor ≤ id r ∧ id r < floor) (hfloor : L.floor ≤ floor) :
      Step guard L { L with log := L.log ++ rows, floor := floor }
  | crash : Step guard L { L with phase := .down, interrupted := L.interrupted ++ L.phase.sent }
  | boot (hphase : L.phase = .down) : Step guard L { L with phase := .starting (latest_id id L.log) }
  | start (latest : Nat) (hphase : L.phase = .starting latest) (hguard : guard L latest) :
      Step guard L { L with
        phase := .ready (L.stored.getD (base.getD latest)), since := some (L.since.getD L.log) }
  | poll (cursor : Nat) (hphase : L.phase = .ready cursor) :
      Step guard L { L with
        phase := .firing cursor (last_id id cursor (batch id limit cursor L.log))
          (((batch id limit cursor L.log).filter wanted).map id) [] }
  | send (cursor last n : Nat) (before after sent : List Nat)
      (hphase : L.phase = .firing cursor last (before ++ n :: after) sent) :
      Step guard L { L with
        phase := .firing cursor last (before ++ after) (sent ++ [n]), attempts := L.attempts ++ [n] }
  | rest (cursor : Nat) (sent : List Nat) (hphase : L.phase = .firing cursor cursor [] sent) :
      Step guard L { L with phase := .ready cursor, completed := L.completed + 1 }
  | finish (cursor last : Nat) (sent : List Nat) (hphase : L.phase = .firing cursor last [] sent) (hne : last ≠ cursor) :
      Step guard L { L with phase := .persisting last sent }
  | persist (last : Nat) (sent : List Nat) (hphase : L.phase = .persisting last sent) :
      Step guard L { L with phase := .ready last, stored := some last, completed := L.completed + 1 }

end Model

section Batch

variable {id : R → Nat} {limit cursor : Nat} {log : List R}

theorem le_latest_id {r : R} (hr : r ∈ log) : id r ≤ latest_id id log := by
  induction log with
  | nil => cases hr
  | cons a log ih =>
    change id r ≤ max (id a) (latest_id id log)
    cases List.mem_cons.mp hr with
    | inl heq => exact heq ▸ Nat.le_max_left _ _
    | inr hmem => exact Nat.le_trans (ih hmem) (Nat.le_max_right _ _)

theorem latest_id_lt {bound : Nat} (hpos : 0 < bound) (h : ∀ r ∈ log, id r < bound) : latest_id id log < bound := by
  induction log with
  | nil => exact hpos
  | cons a log ih =>
    rw [List.forall_mem_cons] at h
    change max (id a) (latest_id id log) < bound
    exact Nat.max_lt.mpr ⟨h.1, ih h.2⟩

theorem mem_batch {r : R} (h : r ∈ batch id limit cursor log) : r ∈ log ∧ cursor < id r := by
  have hmem := List.mem_of_mem_take h
  simpa using hmem

theorem batch_sorted (limit cursor : Nat) (h : log.Pairwise fun a b => id a < id b) :
    (batch id limit cursor log).Pairwise fun a b => id a < id b :=
  (h.sublist List.filter_sublist).sublist (List.take_sublist _ _)

theorem last_id_eq (id : R → Nat) (cursor : Nat) (rows : List R) : (rows = [] ∧ last_id id cursor rows = cursor) ∨
    ∃ r ∈ rows, last_id id cursor rows = id r := by
  cases h : rows.getLast? with
  | none => exact .inl ⟨List.getLast?_eq_none_iff.mp h, by simp [last_id, h]⟩
  | some r => exact .inr ⟨r, List.mem_of_getLast? h, by simp [last_id, h]⟩

/-- In a sorted batch no id is behind the last one. -/
theorem le_last_id {rows : List R} (hsorted : rows.Pairwise fun a b => id a < id b) {r : R} (hr : r ∈ rows) :
    id r ≤ last_id id cursor rows := by
  obtain ⟨front, last, rfl⟩ := List.eq_nil_or_concat' rows |>.resolve_left (List.ne_nil_of_mem hr)
  rw [List.pairwise_append] at hsorted
  have hlast : last_id id cursor (front ++ [last]) = id last := by simp [last_id]
  rw [hlast]
  cases List.mem_append.mp hr with
  | inl hmem => exact Nat.le_of_lt (hsorted.2.2 r hmem last (List.mem_singleton_self _))
  | inr hmem => exact Nat.le_of_eq (congrArg id (List.mem_singleton.mp hmem))

/-- The batch leaves out no row up to its last id. -/
theorem mem_batch_of_le (hsorted : log.Pairwise fun a b => id a < id b) {r : R} (hr : r ∈ log) (hcursor : cursor < id r)
    (hle : id r ≤ last_id id cursor (batch id limit cursor log)) : r ∈ batch id limit cursor log := by
  have hbehind : r ∈ log.filter fun r => cursor < id r := by simp [hr, hcursor]
  rw [← List.take_append_drop limit (log.filter fun r => cursor < id r)] at hbehind
  cases List.mem_append.mp hbehind with
  | inl htake => exact htake
  | inr hdrop =>
    have hsplit := hsorted.sublist (List.filter_sublist (p := fun r => decide (cursor < id r)))
    rw [← List.take_append_drop limit (log.filter fun r => cursor < id r), List.pairwise_append] at hsplit
    obtain ⟨hempty, hlast⟩ | ⟨last, hmem, hlast⟩ := last_id_eq id cursor (batch id limit cursor log)
    · omega
    · have hlt := hsplit.2.2 last hmem r hdrop
      omega

/-- A poll finds something when there is something. -/
theorem lt_last_id (hlimit : 0 < limit) {r : R} (hr : r ∈ log) (hcursor : cursor < id r) :
    cursor < last_id id cursor (batch id limit cursor log) := by
  obtain ⟨hempty, -⟩ | ⟨last, hmem, hlast⟩ := last_id_eq id cursor (batch id limit cursor log)
  · have hbehind : r ∈ log.filter fun r => cursor < id r := by simp [hr, hcursor]
    have hnil : log.filter (fun r => cursor < id r) = [] := by
      cases List.take_eq_nil_iff.mp hempty with
      | inl hzero => omega
      | inr hnil => exact hnil
    rw [hnil] at hbehind
    cases hbehind
  · rw [hlast]
    exact (mem_batch hmem).2

end Batch

section Safety

variable {id : R → Nat} {wanted : R → Bool} {base : Option Nat} {limit : Nat} {guard : Lane R → Nat → Prop} {L M : Lane R}

/-- The cursors that the consumer has: in memory, stored, or about to be taken up. -/
def Lane.Cursor (L : Lane R) (c : Nat) : Prop :=
  L.stored = some c ∨ L.phase.cursor = some c

/-- The log is sorted, and no cursor has passed a row that may yet become visible. -/
structure Ordered (id : R → Nat) (base : Option Nat) (L : Lane R) : Prop where
  sorted : L.log.Pairwise fun a b => id a < id b
  below : ∀ r ∈ L.log, id r < L.floor
  positive : 0 < L.floor
  base_below : ∀ b, base = some b → b < L.floor
  cursor_below : ∀ c, L.Cursor c → c < L.floor
  latest_below : ∀ latest, L.phase = .starting latest → latest < L.floor
  last_below : ∀ c last unsent sent, L.phase = .firing c last unsent sent → c ≤ last ∧ last < L.floor
  stored_le : ∀ c m, L.stored = some c → L.phase.cursor = some m → c ≤ m

theorem Ordered.last_of_poll (h : Ordered id base L) (limit : Nat) {cursor : Nat} (hcursor : L.phase = .ready cursor) :
    cursor ≤ last_id id cursor (batch id limit cursor L.log) ∧ last_id id cursor (batch id limit cursor L.log) < L.floor := by
  obtain ⟨-, hlast⟩ | ⟨r, hr, hlast⟩ := last_id_eq id cursor (batch id limit cursor L.log)
  · rw [hlast]
    exact ⟨Nat.le_refl _, h.cursor_below cursor (.inr (by rw [hcursor]; rfl))⟩
  · rw [hlast]
    obtain ⟨hmem, hlt⟩ := mem_batch hr
    exact ⟨Nat.le_of_lt hlt, h.below r hmem⟩

theorem Ordered.step (h : Ordered id base L) (hstep : Step id wanted base limit guard L M) : Ordered id base M := by
  obtain ⟨hsorted, hbelow, hpositive, hbase, hcursor, hlatest, hlast, hstored⟩ := h
  cases hstep with
  | grow rows floor hrows hnew hfloor =>
    refine ⟨?_, fun r hr => ?_, Nat.lt_of_lt_of_le hpositive hfloor, fun b hb => ?_, fun c hc => ?_, fun l hl => ?_,
      fun c l u s hp => ?_, hstored⟩
    · refine List.pairwise_append.mpr ⟨hsorted, hrows, fun a ha b hb => ?_⟩
      exact Nat.lt_of_lt_of_le (hbelow a ha) (hnew b hb).1
    · cases List.mem_append.mp hr with
      | inl hold => exact Nat.lt_of_lt_of_le (hbelow r hold) hfloor
      | inr hmem => exact (hnew r hmem).2
    · exact Nat.lt_of_lt_of_le (hbase b hb) hfloor
    · exact Nat.lt_of_lt_of_le (hcursor c hc) hfloor
    · exact Nat.lt_of_lt_of_le (hlatest l hl) hfloor
    · exact ⟨(hlast c l u s hp).1, Nat.lt_of_lt_of_le (hlast c l u s hp).2 hfloor⟩
  | crash =>
    refine ⟨hsorted, hbelow, hpositive, hbase, fun c hc => ?_, by simp, by simp, by simp [Phase.cursor]⟩
    cases hc with
    | inl hc => exact hcursor c (.inl hc)
    | inr hc => cases hc
  | boot hphase =>
    refine ⟨hsorted, hbelow, hpositive, hbase, fun c hc => ?_, fun l hl => ?_, by simp, by simp [Phase.cursor]⟩
    · cases hc with
      | inl hc => exact hcursor c (.inl hc)
      | inr hc => cases hc
    · obtain rfl := Phase.starting.inj hl
      exact latest_id_lt hpositive hbelow
  | start latest hphase hguard =>
    have hfrom : L.stored.getD (base.getD latest) < L.floor := by
      cases hs : L.stored with
      | some c => exact hcursor c (.inl hs)
      | none =>
        cases hb : base with
        | some b => exact hbase b hb
        | none => exact hlatest latest hphase
    refine ⟨hsorted, hbelow, hpositive, hbase, fun c hc => ?_, by simp, by simp, fun c m hc hm => ?_⟩
    · cases hc with
      | inl hc => exact hcursor c (.inl hc)
      | inr hc => exact Option.some.inj hc ▸ hfrom
    · have hm' : L.stored.getD (base.getD latest) = m := Option.some.inj hm
      have hc' : L.stored = some c := hc
      simp [← hm', hc']
  | poll cursor hphase =>
    have hbounds := Ordered.last_of_poll
      ⟨hsorted, hbelow, hpositive, hbase, hcursor, hlatest, hlast, hstored⟩ limit hphase
    refine ⟨hsorted, hbelow, hpositive, hbase, fun c hc => hcursor c ?_, by simp, fun c l u s hp => ?_, fun c m hc hm => ?_⟩
    · simpa [Lane.Cursor, hphase, Phase.cursor] using hc
    · obtain ⟨rfl, rfl, -, -⟩ := Phase.firing.inj hp
      exact hbounds
    · exact hstored c m hc (by simpa [hphase, Phase.cursor] using hm)
  | send cursor last n before after sent hphase =>
    refine ⟨hsorted, hbelow, hpositive, hbase, fun c hc => hcursor c ?_, by simp, fun c l u s hp => ?_, fun c m hc hm => ?_⟩
    · simpa [Lane.Cursor, hphase, Phase.cursor] using hc
    · obtain ⟨rfl, rfl, -, -⟩ := Phase.firing.inj hp
      exact hlast _ _ _ _ hphase
    · exact hstored c m hc (by simpa [hphase, Phase.cursor] using hm)
  | rest cursor sent hphase =>
    refine ⟨hsorted, hbelow, hpositive, hbase, fun c hc => hcursor c ?_, by simp, by simp, fun c m hc hm => ?_⟩
    · simpa [Lane.Cursor, hphase, Phase.cursor] using hc
    · exact hstored c m hc (by simpa [hphase, Phase.cursor] using hm)
  | finish cursor last sent hphase hne =>
    obtain ⟨hle, hlt⟩ := hlast _ _ _ _ hphase
    refine ⟨hsorted, hbelow, hpositive, hbase, fun c hc => ?_, by simp, by simp, fun c m hc hm => ?_⟩
    · cases hc with
      | inl hc => exact hcursor c (.inl hc)
      | inr hc => exact Option.some.inj hc ▸ hlt
    · have hold := hstored c cursor hc (by rw [hphase]; rfl)
      have hm' : last = m := Option.some.inj hm
      omega
  | persist last sent hphase =>
    have hlt := hcursor last (.inr (by rw [hphase]; rfl))
    refine ⟨hsorted, hbelow, hpositive, hbase, fun c hc => ?_, by simp, by simp, fun c m hc hm => ?_⟩
    · cases hc with
      | inl hc => exact Option.some.inj hc ▸ hlt
      | inr hc => exact Option.some.inj hc ▸ hlt
    · exact Nat.le_of_eq ((Option.some.inj hc).symm.trans (Option.some.inj hm))

/-- A row that becomes visible is not below the floor. -/
theorem floor_le_of_new (hstep : Step id wanted base limit guard L M) {r : R} (hr : r ∈ M.log) (hnew : r ∉ L.log) :
    L.floor ≤ id r := by
  cases hstep with
  | grow rows floor hrows hbounds hfloor =>
    cases List.mem_append.mp hr with
    | inl hold => exact absurd hold hnew
    | inr hmem => exact (hbounds r hmem).1
  | crash | boot | start | poll | send | rest | finish | persist => exact absurd hr hnew

theorem floor_mono (hstep : Step id wanted base limit guard L M) : L.floor ≤ M.floor := by
  cases hstep with
  | grow rows floor hrows hnew hfloor => exact hfloor
  | crash | boot | start | poll | send | rest | finish | persist => exact Nat.le_refl _

/-- The stored cursor never decreases. -/
theorem Ordered.stored_mono (h : Ordered id base L) (hstep : Step id wanted base limit guard L M) {c : Nat}
    (hc : L.stored = some c) : ∃ c', M.stored = some c' ∧ c ≤ c' := by
  cases hstep with
  | persist last sent hphase => exact ⟨last, rfl, h.stored_le c last hc (by rw [hphase]; rfl)⟩
  | grow | crash | boot | start | poll | send | rest | finish => exact ⟨c, hc, Nat.le_refl _⟩

/-- Nor does the one in memory, as long as there is one. -/
theorem Ordered.cursor_mono (h : Ordered id base L) (hstep : Step id wanted base limit guard L M) {c c' : Nat}
    (hc : L.phase.cursor = some c) (hc' : M.phase.cursor = some c') : c ≤ c' := by
  cases hstep with
  | grow rows floor hrows hnew hfloor => exact Nat.le_of_eq (Option.some.inj (hc.symm.trans hc'))
  | crash | boot => cases hc'
  | start latest hphase =>
    rw [hphase] at hc
    cases hc
  | poll _ hphase | send _ _ _ _ _ _ hphase | rest _ _ hphase | persist _ _ hphase =>
    rw [hphase] at hc
    exact Nat.le_of_eq (Option.some.inj (hc.symm.trans hc'))
  | finish cursor last sent hphase hne =>
    rw [hphase] at hc
    obtain rfl : cursor = c := Option.some.inj hc
    obtain rfl : last = c' := Option.some.inj hc'
    exact (h.last_below _ _ _ _ hphase).1

end Safety

section Coverage

variable {id : R → Nat} {wanted : R → Bool} {base : Option Nat} {limit : Nat} {L M : Lane R}

/-- The rows that are due up to the cursor have been sent. -/
def Covered (id : R → Nat) (wanted : R → Bool) (L : Lane R) (c : Nat) : Prop :=
  ∀ r, L.Due wanted r → id r ≤ c → id r ∈ L.attempts

/-- Every cursor covers what is behind it, and a batch what it has not sent. -/
structure Covering (id : R → Nat) (wanted : R → Bool) (base : Option Nat) (L : Lane R) : Prop where
  ordered : Ordered id base L
  since_part : ∀ old, L.since = some old → old ⊆ L.log
  base_before : ∀ b, base = some b → ∀ r, L.Due wanted r → b < id r
  cursors : ∀ c, L.Cursor c → Covered id wanted L c
  batch : ∀ c last unsent sent, L.phase = .firing c last unsent sent →
    ∀ r, L.Due wanted r → id r ≤ last → id r ∈ L.attempts ∨ id r ∈ unsent

/-- Rows that become visible are behind what a cursor covers. -/
private theorem due_of_grow {rows : List R} {floor c : Nat} {r : R} (hnew : ∀ r ∈ rows, L.floor ≤ id r ∧ id r < floor)
    (hc : c < L.floor) (hdue : Lane.Due wanted { L with log := L.log ++ rows, floor := floor } r) (hle : id r ≤ c) :
    L.Due wanted r := by
  obtain ⟨hr, hwanted, hsince⟩ := hdue
  cases List.mem_append.mp hr with
  | inl hold => exact ⟨hold, hwanted, hsince⟩
  | inr hmem =>
    have hfloor := (hnew r hmem).1
    omega

private theorem Covering.grow (h : Covering id wanted base L) {rows : List R} {floor : Nat}
    (hnew : ∀ r ∈ rows, L.floor ≤ id r ∧ id r < floor)
    (hordered : Ordered id base { L with log := L.log ++ rows, floor := floor }) :
    Covering id wanted base { L with log := L.log ++ rows, floor := floor } := by
  refine ⟨hordered, fun old hold => ?_, fun b hb r hdue => ?_, fun c hc r hdue hle => ?_, fun c l u s hp r hdue hle => ?_⟩
  · exact List.subset_append_of_subset_left _ (h.since_part old hold)
  · by_contra hle
    have hbefore := h.base_before b hb r (due_of_grow hnew (h.ordered.base_below b hb) hdue (Nat.not_lt.mp hle))
    exact hle hbefore
  · exact h.cursors c hc r (due_of_grow hnew (h.ordered.cursor_below c hc) hdue hle) hle
  · exact h.batch c l u s hp r (due_of_grow hnew (h.ordered.last_below c l u s hp).2 hdue hle) hle

private theorem Covering.start (h : Covering id wanted base L) {latest : Nat} (hkeeps : L.KeepsPlace id wanted base latest)
    {N : Lane R} (hN : N = { L with
      phase := .ready (L.stored.getD (base.getD latest)), since := some (L.since.getD L.log) })
    (hordered : Ordered id base N) : Covering id wanted base N := by
  subst hN
  -- Only a consumer that was started before has rows due.
  have hdue {r : R} (hr : Lane.Due wanted { L with
      phase := .ready (L.stored.getD (base.getD latest)), since := some (L.since.getD L.log) } r) : L.Due wanted r := by
    obtain ⟨hmem, hwanted, old, hold, hr⟩ := hr
    cases hs : L.since with
    | some since =>
      obtain rfl : since = old := by simpa [hs] using hold
      exact ⟨hmem, hwanted, since, hs, hr⟩
    | none =>
      obtain rfl : L.log = old := by simpa [hs] using hold
      exact absurd hmem hr
  refine ⟨hordered, fun old hold => ?_, fun b hb r hr => h.base_before b hb r (hdue hr), fun c hc r hr hle => ?_, by simp⟩
  · cases hs : L.since with
    | some since =>
      obtain rfl : since = old := by simpa [hs] using hold
      exact h.since_part since hs
    | none =>
      obtain rfl : L.log = old := by simpa [hs] using hold
      exact List.Subset.refl _
  · cases hc with
    | inl hc => exact h.cursors c (.inl hc) r (hdue hr) hle
    | inr hc =>
      have hfrom : L.stored.getD (base.getD latest) = c := Option.some.inj hc
      cases hs : L.stored with
      | some stored =>
        obtain rfl : stored = c := by simpa [hs] using hfrom
        exact h.cursors stored (.inl hs) r (hdue hr) hle
      | none =>
        cases hb : base with
        | some b =>
          obtain rfl : b = c := by simpa [hs, hb] using hfrom
          have hbefore := h.base_before b hb r (hdue hr)
          omega
        | none =>
          obtain rfl : latest = c := by simpa [hs, hb] using hfrom
          exact hkeeps hs hb r (hdue hr) hle

theorem Covering.step (h : Covering id wanted base L)
    (hstep : Step id wanted base limit (Lane.KeepsPlace id wanted base) L M) : Covering id wanted base M := by
  have hordered := h.ordered.step hstep
  have keep {c : Nat} {attempts : List Nat} (hsub : L.attempts ⊆ attempts) (hc : L.Cursor c) {r : R}
      (hdue : L.Due wanted r) (hle : id r ≤ c) : id r ∈ attempts := hsub (h.cursors c hc r hdue hle)
  cases hstep with
  | grow rows floor hrows hnew hfloor => exact h.grow hnew hordered
  | start latest hphase hguard => exact h.start hguard rfl hordered
  | crash | boot hphase =>
    refine ⟨hordered, h.since_part, h.base_before, fun c hc => ?_, by simp⟩
    cases hc with
    | inl hc => exact h.cursors c (.inl hc)
    | inr hc => cases hc
  | poll cursor hphase =>
    refine ⟨hordered, h.since_part, h.base_before, fun c hc => h.cursors c ?_, fun c l u s hp r hdue hle => ?_⟩
    · simpa [Lane.Cursor, hphase, Phase.cursor] using hc
    · obtain ⟨rfl, rfl, rfl, -⟩ := Phase.firing.inj hp
      by_cases hbehind : cursor < id r
      · refine .inr (List.mem_map_of_mem ?_)
        have hmem := mem_batch_of_le h.ordered.sorted hdue.1 hbehind hle
        simp [hmem, hdue.2.1]
      · exact .inl (h.cursors cursor (.inr (by rw [hphase]; rfl)) r hdue (Nat.not_lt.mp hbehind))
  | send cursor last n before after sent hphase =>
    have hsub : L.attempts ⊆ L.attempts ++ [n] := List.subset_append_left _ _
    refine ⟨hordered, h.since_part, h.base_before, fun c hc r hdue hle => keep hsub ?_ hdue hle, fun c l u s hp r hdue hle => ?_⟩
    · simpa [Lane.Cursor, hphase, Phase.cursor] using hc
    · obtain ⟨rfl, rfl, rfl, -⟩ := Phase.firing.inj hp
      have hold := h.batch _ _ _ _ hphase r hdue hle
      simp only [List.mem_append, List.mem_cons] at hold ⊢
      grind
  | rest cursor sent hphase =>
    refine ⟨hordered, h.since_part, h.base_before, fun c hc => h.cursors c ?_, by simp⟩
    simpa [Lane.Cursor, hphase, Phase.cursor] using hc
  | finish cursor last sent hphase hne =>
    refine ⟨hordered, h.since_part, h.base_before, fun c hc r hdue hle => ?_, by simp⟩
    cases hc with
    | inl hc => exact h.cursors c (.inl hc) r hdue hle
    | inr hc =>
      obtain rfl : last = c := Option.some.inj hc
      cases h.batch _ _ _ _ hphase r hdue hle with
      | inl hsent => exact hsent
      | inr hunsent => cases hunsent
  | persist last sent hphase =>
    have hcursor : L.Cursor last := .inr (by rw [hphase]; rfl)
    refine ⟨hordered, h.since_part, h.base_before, fun c hc => ?_, by simp⟩
    cases hc with
    | inl hc => exact Option.some.inj hc ▸ h.cursors last hcursor
    | inr hc => exact Option.some.inj hc ▸ h.cursors last hcursor

end Coverage

section Once

variable {id : R → Nat} {wanted : R → Bool} {base : Option Nat} {limit : Nat} {guard : Lane R → Nat → Prop} {L M : Lane R}

/-- Every attempt but one was interrupted, and behind the stored cursor every
one but what is being sent. -/
structure Sparing (id : R → Nat) (base : Option Nat) (L : Lane R) : Prop where
  ordered : Ordered id base L
  once : ∀ n, L.attempts.count n ≤ L.interrupted.count n + 1
  behind : ∀ n, (∀ c, L.stored = some c → c < n) → L.attempts.count n ≤ L.interrupted.count n + L.phase.sent.count n
  firing : ∀ c last unsent sent, L.phase = .firing c last unsent sent →
    (unsent ++ sent).Nodup ∧ ∀ n ∈ unsent ++ sent, c < n ∧ n ≤ last
  persisting : ∀ last sent, L.phase = .persisting last sent → sent.Nodup ∧ ∀ n ∈ sent, n ≤ last

theorem Sparing.step (h : Sparing id base L) (hstep : Step id wanted base limit guard L M) : Sparing id base M := by
  have hordered := h.ordered.step hstep
  have hbehind := h.behind
  cases hstep with
  | grow => exact ⟨hordered, h.once, h.behind, h.firing, h.persisting⟩
  | crash =>
    refine ⟨hordered, fun n => ?_, fun n hn => ?_, by simp, by simp⟩
    · have honce := h.once n
      simp only [List.count_append]
      omega
    · have hold := h.behind n hn
      change L.attempts.count n ≤ (L.interrupted ++ L.phase.sent).count n + 0
      rw [List.count_append]
      exact hold
  | boot hphase | start _ hphase =>
    simp only [hphase, Phase.sent] at hbehind
    exact ⟨hordered, h.once, hbehind, by simp, by simp⟩
  | poll cursor hphase =>
    simp only [hphase, Phase.sent] at hbehind
    refine ⟨hordered, h.once, hbehind, fun c l u s hp => ?_, by simp⟩
    obtain ⟨rfl, rfl, rfl, rfl⟩ := Phase.firing.inj hp
    have hsorted := batch_sorted limit cursor h.ordered.sorted
    rw [List.append_nil]
    refine ⟨?_, fun n hn => ?_⟩
    · exact List.Pairwise.map id (fun _ _ hlt => Nat.ne_of_lt hlt) (hsorted.sublist List.filter_sublist)
    · obtain ⟨r, hr, rfl⟩ := List.mem_map.mp hn
      have hmem := List.mem_of_mem_filter hr
      exact ⟨(mem_batch hmem).2, le_last_id hsorted hmem⟩
  | send cursor last n before after sent hphase =>
    obtain ⟨hnodup, hbounds⟩ := h.firing _ _ _ _ hphase
    simp only [hphase, Phase.sent] at hbehind
    have hperm : (before ++ after ++ (sent ++ [n])).Perm (before ++ n :: after ++ sent) := by
      have hmiddle : (before ++ n :: (after ++ sent)).Perm (n :: (before ++ (after ++ sent))) := List.perm_middle
      have hend : (before ++ after ++ sent ++ [n]).Perm (n :: (before ++ after ++ sent)) := List.perm_append_singleton _ _
      simpa using hend.trans (by simpa using hmiddle.symm)
    have hfresh : sent.count n = 0 := by
      rw [List.count_eq_zero]
      intro hmem
      rw [List.nodup_append] at hnodup
      exact hnodup.2.2 n (by simp) n hmem rfl
    have hcursor : ∀ c, L.stored = some c → c < n := by
      intro c hc
      have hle := h.ordered.stored_le c cursor hc (by rw [hphase]; rfl)
      have hlt := (hbounds n (by simp)).1
      omega
    refine ⟨hordered, fun k => ?_, fun k hk => ?_, fun c l u s hp => ?_, by simp⟩
    · rw [List.count_append]
      by_cases hkn : k = n
      · subst hkn
        have hold := hbehind k hcursor
        simp only [List.count_singleton_self]
        omega
      · have honce := h.once k
        rw [List.count_singleton, if_neg (by simpa using Ne.symm hkn)]
        omega
    · have hold := hbehind k hk
      simp only [Phase.sent, List.count_append]
      omega
    · obtain ⟨rfl, rfl, rfl, rfl⟩ := Phase.firing.inj hp
      exact ⟨hperm.nodup_iff.mpr hnodup, fun k hk => hbounds k (hperm.mem_iff.mp hk)⟩
  | rest cursor sent hphase =>
    obtain ⟨-, hbounds⟩ := h.firing _ _ _ _ hphase
    have hsent : sent = [] := by
      refine List.eq_nil_iff_forall_not_mem.mpr fun n hn => ?_
      have hn' := hbounds n hn
      omega
    simp only [hphase, Phase.sent, hsent] at hbehind
    exact ⟨hordered, h.once, hbehind, by simp, by simp⟩
  | finish cursor last sent hphase hne =>
    obtain ⟨hnodup, hbounds⟩ := h.firing _ _ _ _ hphase
    simp only [hphase, Phase.sent] at hbehind
    refine ⟨hordered, h.once, hbehind, by simp, fun l s hp => ?_⟩
    obtain ⟨rfl, rfl⟩ := Phase.persisting.inj hp
    exact ⟨hnodup, fun n hn => (hbounds n hn).2⟩
  | persist last sent hphase =>
    obtain ⟨hnodup, hbounds⟩ := h.persisting _ _ hphase
    simp only [hphase, Phase.sent] at hbehind
    refine ⟨hordered, h.once, fun n hn => ?_, by simp, by simp⟩
    have hlast : last < n := hn last rfl
    have hold := hbehind n fun c hc => by
      have hle := h.ordered.stored_le c last hc (by rw [hphase]; rfl)
      omega
    have hcount : sent.count n = 0 := by
      rw [List.count_eq_zero]
      intro hmem
      have hle := hbounds n hmem
      omega
    rw [hcount] at hold
    exact hold

end Once

section Progress

variable {id : R → Nat} {wanted : R → Bool} {base : Option Nat} {limit : Nat} {L M : Lane R}

/-- The visible rows up to an id. -/
def Lane.rank (id : R → Nat) (L : Lane R) (n : Nat) : Nat :=
  (L.log.filter fun r => id r ≤ n).length

def Lane.stored_rank (id : R → Nat) (L : Lane R) : Nat :=
  (L.stored.map (L.rank id)).getD 0

theorem rank_mono {m n : Nat} (h : m ≤ n) : L.rank id m ≤ L.rank id n := by
  apply List.Sublist.length_le
  apply List.monotone_filter_right
  intro r hr
  simp only [decide_eq_true_eq] at hr ⊢
  omega

theorem rank_lt {m : Nat} {r : R} (hr : r ∈ L.log) (h : m < id r) : L.rank id m < L.rank id (id r) := by
  refine Nat.lt_of_le_of_ne (rank_mono (Nat.le_of_lt h)) fun heq => ?_
  have hsub : (L.log.filter fun a => id a ≤ m).Sublist (L.log.filter fun a => id a ≤ id r) := by
    apply List.monotone_filter_right
    intro a ha
    simp only [decide_eq_true_eq] at ha ⊢
    omega
  have hmem : r ∈ L.log.filter fun a => id a ≤ id r := by simp [hr]
  rw [← hsub.eq_of_length heq] at hmem
  have hle : id r ≤ m := by simpa using (List.mem_filter.mp hmem).2
  omega

/-- Rows that become visible do not change the rank of what is below the floor. -/
theorem rank_grow {rows : List R} {floor n : Nat} (hnew : ∀ r ∈ rows, L.floor ≤ id r ∧ id r < floor) (hn : n < L.floor) :
    Lane.rank id { L with log := L.log ++ rows, floor := floor } n = L.rank id n := by
  have hnone : rows.filter (fun r => decide (id r ≤ n)) = [] := by
    rw [List.filter_eq_nil_iff]
    intro r hr
    have hfloor := (hnew r hr).1
    simp only [decide_eq_true_eq]
    omega
  simp [Lane.rank, List.filter_append, hnone]

/-- A poll that found nothing is under way, although the row is there now. -/
def Phase.stale (n : Nat) : Phase → Nat
  | .firing cursor last _ _ => if last = cursor ∧ cursor < n then 1 else 0
  | _ => 0

theorem stale_le_one (n : Nat) (phase : Phase) : phase.stale n ≤ 1 := by
  unfold Phase.stale
  split
  · split <;> omega
  · omega

/-- A batch that was not empty ends with a row of the log, behind the stored cursor. -/
structure Reading (id : R → Nat) (base : Option Nat) (L : Lane R) : Prop where
  ordered : Ordered id base L
  firing : ∀ c last unsent sent, L.phase = .firing c last unsent sent → last ≠ c → ∃ a ∈ L.log, id a = last
  persisting : ∀ last sent, L.phase = .persisting last sent →
    (∃ a ∈ L.log, id a = last) ∧ ∀ c, L.stored = some c → c < last

theorem Reading.step {guard : Lane R → Nat → Prop} (h : Reading id base L) (hstep : Step id wanted base limit guard L M) :
    Reading id base M := by
  have hordered := h.ordered.step hstep
  cases hstep with
  | grow rows floor hrows hnew hfloor =>
    refine ⟨hordered, fun c last unsent sent hp hne => ?_, fun last sent hp => ?_⟩
    · obtain ⟨a, ha, hid⟩ := h.firing c last unsent sent hp hne
      exact ⟨a, List.mem_append_left _ ha, hid⟩
    · obtain ⟨⟨a, ha, hid⟩, hmoved⟩ := h.persisting last sent hp
      exact ⟨⟨a, List.mem_append_left _ ha, hid⟩, hmoved⟩
  | crash | boot | start | rest | persist => exact ⟨hordered, by simp, by simp⟩
  | poll cursor hphase =>
    refine ⟨hordered, fun c last unsent sent hp hne => ?_, by simp⟩
    obtain ⟨rfl, rfl, -, -⟩ := Phase.firing.inj hp
    obtain ⟨-, hlast⟩ | ⟨a, ha, hlast⟩ := last_id_eq id cursor (batch id limit cursor L.log)
    · exact absurd hlast hne
    · exact ⟨a, (mem_batch ha).1, hlast.symm⟩
  | send cursor last n before after sent hphase =>
    refine ⟨hordered, fun c last' unsent sent' hp hne => ?_, by simp⟩
    obtain ⟨rfl, rfl, -, -⟩ := Phase.firing.inj hp
    exact h.firing _ _ _ _ hphase hne
  | finish cursor last sent hphase hne =>
    refine ⟨hordered, by simp, fun last' sent' hp => ?_⟩
    obtain ⟨rfl, rfl⟩ := Phase.persisting.inj hp
    refine ⟨h.firing _ _ _ _ hphase hne, fun c hc => ?_⟩
    have hle := h.ordered.stored_le c cursor hc (by rw [hphase]; rfl)
    have hlast := (h.ordered.last_below _ _ _ _ hphase).1
    omega

variable {r : R} {rank before : Nat}

theorem Lane.Due.step (h : L.Due wanted r) {guard : Lane R → Nat → Prop}
    (hstep : Step id wanted base limit guard L M) : M.Due wanted r := by
  obtain ⟨hr, hwanted, old, hold, hnew⟩ := h
  cases hstep with
  | grow => exact ⟨List.mem_append_left _ hr, hwanted, old, hold, hnew⟩
  | start latest => exact ⟨hr, hwanted, old, by simp [hold], hnew⟩
  | crash | boot | poll | send | rest | finish | persist => exact ⟨hr, hwanted, old, hold, hnew⟩

/-- Either the row has been sent, or each completed poll but one has moved the
stored cursor past another row. -/
structure Advancing (id : R → Nat) (wanted : R → Bool) (base : Option Nat) (r : R) (rank before : Nat) (L : Lane R) : Prop where
  covering : Covering id wanted base L
  reading : Reading id base L
  due : L.Due wanted r
  rank_eq : L.rank id (id r) = rank
  progress : id r ∈ L.attempts ∨ L.completed + L.phase.stale (id r) ≤ before + 1 + L.stored_rank id

theorem Advancing.of_due (hcovering : Covering id wanted base L) (hreading : Reading id base L) (hdue : L.Due wanted r) :
    Advancing id wanted base r (L.rank id (id r)) L.completed L := by
  refine ⟨hcovering, hreading, hdue, rfl, .inr ?_⟩
  have hstale := stale_le_one (id r) L.phase
  omega

theorem Advancing.step (h : Advancing id wanted base r rank before L) (hlimit : 0 < limit)
    (hstep : Step id wanted base limit (Lane.KeepsPlace id wanted base) L M) : Advancing id wanted base r rank before M := by
  have hcovering := h.covering.step hstep
  have hreading := h.reading.step hstep
  have hdue := h.due.step hstep
  have hordered := h.covering.ordered
  have hprogress := h.progress
  cases hstep with
  | grow rows floor hrows hnew hfloor =>
    refine ⟨hcovering, hreading, hdue, ?_, hprogress.imp_right fun hle => ?_⟩
    · rw [rank_grow hnew (hordered.below r h.due.1)]
      exact h.rank_eq
    · have hsame : Lane.stored_rank id { L with log := L.log ++ rows, floor := floor } = L.stored_rank id := by
        unfold Lane.stored_rank
        cases hs : L.stored with
        | none => rfl
        | some c => exact rank_grow hnew (hordered.cursor_below c (.inl hs))
      rw [hsame]
      exact hle
  | crash | boot | start =>
    refine ⟨hcovering, hreading, hdue, h.rank_eq, hprogress.imp_right fun hle => ?_⟩
    exact Nat.le_trans (Nat.le_add_right _ _) hle
  | poll cursor hphase =>
    refine ⟨hcovering, hreading, hdue, h.rank_eq, hprogress.imp_right fun hle => ?_⟩
    have hfound : ¬ (last_id id cursor (batch id limit cursor L.log) = cursor ∧ cursor < id r) := by
      intro hstale
      have hlt := lt_last_id hlimit h.due.1 hstale.2
      omega
    simp only [Phase.stale, if_neg hfound]
    exact Nat.le_trans (Nat.le_add_right _ _) hle
  | send cursor last n before after sent hphase =>
    refine ⟨hcovering, hreading, hdue, h.rank_eq, ?_⟩
    rw [hphase] at hprogress
    exact hprogress.imp_left fun hsent => List.mem_append_left _ hsent
  | rest cursor sent hphase =>
    refine ⟨hcovering, hreading, hdue, h.rank_eq, ?_⟩
    by_cases hbehind : cursor < id r
    · refine hprogress.imp_right fun hle => ?_
      have hcounted : L.completed + 1 ≤ before + 1 + L.stored_rank id := by
        simpa [hphase, Phase.stale, hbehind] using hle
      exact hcounted
    · exact .inl (h.covering.cursors cursor (.inr (by rw [hphase]; rfl)) r h.due (Nat.not_lt.mp hbehind))
  | finish cursor last sent hphase hne =>
    refine ⟨hcovering, hreading, hdue, h.rank_eq, hprogress.imp_right fun hle => ?_⟩
    exact Nat.le_trans (Nat.le_add_right _ _) hle
  | persist last sent hphase =>
    refine ⟨hcovering, hreading, hdue, h.rank_eq, hprogress.imp_right fun hle => ?_⟩
    obtain ⟨⟨a, ha, rfl⟩, hmoved⟩ := h.reading.persisting last sent hphase
    have hrank : L.stored_rank id + 1 ≤ L.rank id (id a) := by
      unfold Lane.stored_rank
      cases hs : L.stored with
      | none => exact List.length_pos_of_mem (by simpa using ha : a ∈ L.log.filter fun b => id b ≤ id a)
      | some c => exact rank_lt ha (hmoved c hs)
    have hcompleted : L.completed ≤ before + 1 + L.stored_rank id := Nat.le_trans (Nat.le_add_right _ _) hle
    change L.completed + 1 + 0 ≤ before + 1 + L.rank id (id a)
    omega

/-- Once as many polls have completed as there are rows up to it, and one more,
the row has been sent. -/
theorem Advancing.sent (h : Advancing id wanted base r rank before L) (hcompleted : before + rank + 1 ≤ L.completed) :
    id r ∈ L.attempts := by
  cases h.progress with
  | inl hsent => exact hsent
  | inr hle =>
    by_contra hunsent
    have hrank : L.stored_rank id < rank := by
      rw [← h.rank_eq]
      unfold Lane.stored_rank
      cases hs : L.stored with
      | none => exact List.length_pos_of_mem (by simpa using h.due.1 : r ∈ L.log.filter fun b => id b ≤ id r)
      | some c =>
        refine rank_lt h.due.1 (Nat.lt_of_not_le fun hbehind => ?_)
        exact hunsent (h.covering.cursors c (.inl hs) r h.due hbehind)
    omega

end Progress

section Lost

variable {id : R → Nat} {wanted : R → Bool} {base : Option Nat} {limit : Nat} {guard : Lane R → Nat → Prop} {L M : Lane R}
  {r : R}

/-- A row that was not sent and that no cursor is before. -/
structure Lost (id : R → Nat) (r : R) (L : Lane R) : Prop where
  visible : r ∈ L.log
  unsent : id r ∉ L.attempts
  cursors : ∀ c, L.Cursor c → id r ≤ c
  latest : ∀ latest, L.phase = .starting latest → id r ≤ latest
  batch : ∀ c last unsent sent, L.phase = .firing c last unsent sent → id r ∉ unsent ∧ id r ≤ last

/-- It will never be sent. -/
theorem Lost.step (h : Lost id r L) (hbase : base = none) (hstep : Step id wanted base limit guard L M) : Lost id r M := by
  subst hbase
  have hmemory {m : Nat} (hm : L.phase.cursor = some m) : id r ≤ m := h.cursors m (.inr hm)
  cases hstep with
  | grow => exact ⟨List.mem_append_left _ h.visible, h.unsent, h.cursors, h.latest, h.batch⟩
  | crash =>
    refine ⟨h.visible, h.unsent, fun c hc => ?_, by simp, by simp⟩
    cases hc with
    | inl hc => exact h.cursors c (.inl hc)
    | inr hc => cases hc
  | boot =>
    refine ⟨h.visible, h.unsent, fun c hc => ?_, fun latest hlatest => ?_, by simp⟩
    · cases hc with
      | inl hc => exact h.cursors c (.inl hc)
      | inr hc => cases hc
    · exact Phase.starting.inj hlatest ▸ le_latest_id h.visible
  | start latest hphase =>
    refine ⟨h.visible, h.unsent, fun c hc => ?_, by simp, by simp⟩
    cases hc with
    | inl hc => exact h.cursors c (.inl hc)
    | inr hc =>
      have hfrom : L.stored.getD latest = c := Option.some.inj hc
      cases hs : L.stored with
      | some stored =>
        obtain rfl : stored = c := by simpa [hs] using hfrom
        exact h.cursors stored (.inl hs)
      | none =>
        obtain rfl : latest = c := by simpa [hs] using hfrom
        exact h.latest latest hphase
  | poll cursor hphase =>
    refine ⟨h.visible, h.unsent, fun c hc => h.cursors c ?_, by simp, fun c l u s hp => ?_⟩
    · simpa [Lane.Cursor, hphase, Phase.cursor] using hc
    · obtain ⟨-, rfl, rfl, -⟩ := Phase.firing.inj hp
      have hle := hmemory (m := cursor) (by rw [hphase]; rfl)
      refine ⟨fun hmem => ?_, ?_⟩
      · obtain ⟨a, ha, hid⟩ := List.mem_map.mp hmem
        have hlt := (mem_batch (List.mem_of_mem_filter ha)).2
        omega
      · obtain ⟨-, hlast⟩ | ⟨a, ha, hlast⟩ := last_id_eq id cursor (polling.batch id limit cursor L.log)
        · omega
        · have hlt := (mem_batch ha).2
          omega
  | send cursor last n before after sent hphase =>
    obtain ⟨hbatch, hlast⟩ := h.batch _ _ _ _ hphase
    refine ⟨h.visible, fun hmem => ?_, fun c hc => h.cursors c ?_, by simp, fun c l u s hp => ?_⟩
    · cases List.mem_append.mp hmem with
      | inl hold => exact h.unsent hold
      | inr hnew => exact hbatch (by simp [List.mem_singleton.mp hnew])
    · simpa [Lane.Cursor, hphase, Phase.cursor] using hc
    · obtain ⟨-, rfl, rfl, -⟩ := Phase.firing.inj hp
      refine ⟨fun hmem => hbatch ?_, hlast⟩
      cases List.mem_append.mp hmem with
      | inl hbefore => exact List.mem_append_left _ hbefore
      | inr hafter => exact List.mem_append_right _ (List.mem_cons_of_mem _ hafter)
  | rest cursor sent hphase =>
    refine ⟨h.visible, h.unsent, fun c hc => h.cursors c ?_, by simp, by simp⟩
    simpa [Lane.Cursor, hphase, Phase.cursor] using hc
  | finish cursor last sent hphase hne =>
    obtain ⟨-, hlast⟩ := h.batch _ _ _ _ hphase
    refine ⟨h.visible, h.unsent, fun c hc => ?_, by simp, by simp⟩
    cases hc with
    | inl hc => exact h.cursors c (.inl hc)
    | inr hc => exact Option.some.inj hc ▸ hlast
  | persist last sent hphase =>
    have hlast := hmemory (m := last) (by rw [hphase]; rfl)
    refine ⟨h.visible, h.unsent, fun c hc => ?_, by simp, by simp⟩
    cases hc with
    | inl hc => exact Option.some.inj hc ▸ hlast
    | inr hc => exact Option.some.inj hc ▸ hlast

end Lost

end polling
