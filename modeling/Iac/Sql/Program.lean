import Mathlib.Data.List.Basic
import Mathlib.Logic.Function.Basic

namespace sql

/-- The tables of a schema and the type of row each of them holds. Two rows
of one table clash when a PRIMARY KEY or UNIQUE constraint forbids both. -/
class Schema {T : Type} (Row : T → Type) where
  clash : (t : T) → Row t → Row t → Bool

/-- What a SELECT can see: the rows of every table, in storage order. -/
abbrev Rows {T : Type} (Row : T → Type) := (t : T) → List (Row t)

/-- A committed database. Every table also has the sequence its generated ids
come from; ids are never given back. -/
structure Db {T : Type} (Row : T → Type) where
  rows : Rows Row
  seq : T → Nat

/-- A transaction as the sequence of statements it issues. The continuation
of a statement is what the program does with its answer; `done` is the COMMIT
(`ok`) or the ROLLBACK (`error`) that ends it. A locking SELECT is the UPDATE
that leaves its rows as they are, and a DELETE the one that leaves none. -/
inductive Prog {T : Type} (Row : T → Type) (ε α : Type) where
  | done (result : Except ε α)
  | select (next : Rows Row → Prog Row ε α)
  | update (t : T) (which : Row t → Bool) (change : Row t → Option (Row t)) (next : List (Row t) → Prog Row ε α)
  | insert (t : T) (values : Nat → Row t) (next : Option (Row t) → Prog Row ε α)

variable {T : Type} {Row : T → Type} {ε α β : Type}

/-- Sequencing, with the early return of `?` on an error. -/
def Prog.bind : Prog Row ε α → (α → Prog Row ε β) → Prog Row ε β
  | .done (.ok a), k => k a
  | .done (.error e), _ => .done (.error e)
  | .select next, k => .select fun rows => (next rows).bind k
  | .update t which change next, k => .update t which change fun out => (next out).bind k
  | .insert t values next, k => .insert t values fun out => (next out).bind k

instance : Monad (Prog Row ε) where
  pure a := .done (.ok a)
  bind := Prog.bind

theorem Prog.bind_assoc {γ : Type} (p : Prog Row ε α) (k : α → Prog Row ε β) (l : β → Prog Row ε γ) :
    p >>= k >>= l = p >>= fun a => k a >>= l := by
  change (p.bind k).bind l = p.bind fun a => (k a).bind l
  induction p with
  | done result => cases result <;> rfl
  | select next ih => exact congrArg Prog.select (funext ih)
  | update t which change next ih => exact congrArg (Prog.update t which change) (funext ih)
  | insert t values next ih => exact congrArg (Prog.insert t values) (funext ih)

def Prog.throw (e : ε) : Prog Row ε α := .done (.error e)

/-- `?` on a computation that makes no statement. -/
def Prog.ofExcept (result : Except ε α) : Prog Row ε α := .done result

def Prog.query (q : Rows Row → α) : Prog Row ε α := .select fun rows => .done (.ok (q rows))

/-- UPDATE, answering with the new versions of the rows it changed. -/
def Prog.update_where (t : T) (which : Row t → Bool) (change : Row t → Row t) :
    Prog Row ε (List (Row t)) :=
  .update t which (fun row => some (change row)) fun out => .done (.ok out)

/-- DELETE, answering with the rows it deleted. -/
def Prog.delete_where (t : T) (which : Row t → Bool) : Prog Row ε (List (Row t)) :=
  .update t which (fun _ => none) fun out => .done (.ok out)

/-- INSERT, answering with the inserted row; a violated constraint is an error. -/
def Prog.insert_into (violation : ε) (t : T) (values : Nat → Row t) : Prog Row ε (Row t) :=
  .insert t values fun
    | some row => .done (.ok row)
    | none => .done (.error violation)

/-- What an UPDATE or DELETE answers with for a row: the new version, or the old one of a deleted row. -/
def answer {R : Type} (change : R → Option R) (row : R) : R :=
  (change row).getD row

/-- What an UPDATE or DELETE leaves in the place of `row`. -/
def rewrite {R : Type} (which : R → Bool) (change : R → Option R) (row : R) : Option R :=
  if which row then change row else some row

theorem answer_some {R : Type} (change : R → R) : answer (fun row => some (change row)) = change := rfl

theorem answer_none {R : Type} : answer (fun _ : R => none) = id := rfl

section Serial

variable [DecidableEq T]

def Db.set_rows (db : Db Row) (t : T) (rows : List (Row t)) : Db Row :=
  { db with rows := Function.update db.rows t rows }

def Db.next_id (db : Db Row) (t : T) : Db Row :=
  { db with seq := Function.update db.seq t (db.seq t + 1) }

/-- The row an UPDATE leaves in the place of `row`. -/
def updated {R : Type} (which : R → Bool) (change : R → R) (row : R) : R :=
  if which row then change row else row

theorem updated_of_false {R : Type} {which : R → Bool} {change : R → R} {row : R} (h : which row = false) :
    updated which change row = row := by
  simp [updated, h]

theorem updated_of_true {R : Type} {which : R → Bool} {change : R → R} {row : R} (h : which row = true) :
    updated which change row = change row := by
  simp [updated, h]

theorem filterMap_rewrite_some {R : Type} (which : R → Bool) (change : R → R) (rows : List R) :
    rows.filterMap (rewrite which fun row => some (change row)) = rows.map (updated which change) := by
  rw [← List.filterMap_eq_map]
  refine List.filterMap_congr fun row _ => ?_
  cases hwhich : which row <;> simp [rewrite, updated, hwhich]

theorem filterMap_rewrite_none {R : Type} (which : R → Bool) (rows : List R) :
    rows.filterMap (rewrite which fun _ => none) = rows.filter fun row => !which row := by
  rw [← List.filterMap_eq_filter]
  refine List.filterMap_congr fun row _ => ?_
  cases hwhich : which row <;> simp [rewrite, Option.guard, hwhich]

theorem map_updated_eq_self {R : Type} {which : R → Bool} {change : R → R} {rows : List R}
    (h : ∀ row ∈ rows, which row = false) : rows.map (updated which change) = rows := by
  conv_rhs => rw [← List.map_id rows]
  exact List.map_congr_left fun row hrow => updated_of_false (h row hrow)

/-- Executing the statements of a transaction with no other transaction open. -/
def Prog.run [Schema Row] : Prog Row ε α → Db Row → Except ε α × Db Row
  | .done result, db => (result, db)
  | .select next, db => (next db.rows).run db
  | .update t which change next, db =>
    (next (((db.rows t).filter which).map (answer change))).run (db.set_rows t ((db.rows t).filterMap (rewrite which change)))
  | .insert t values next, db =>
    let row := values (db.seq t)
    if (db.rows t).any (Schema.clash t row) then (next none).run (db.next_id t)
    else (next (some row)).run ((db.next_id t).set_rows t (db.rows t ++ [row]))

/-- A whole transaction: an error rolls every row change back, but not the ids taken. -/
def Prog.exec [Schema Row] (p : Prog Row ε α) (db : Db Row) : Except ε α × Db Row :=
  match p.run db with
  | (.ok a, after) => (.ok a, after)
  | (.error e, after) => (.error e, { db with seq := after.seq })

@[simp] theorem Db.set_rows_self (db : Db Row) (t : T) (rows : List (Row t)) :
    (db.set_rows t rows).rows t = rows := by
  simp [Db.set_rows]

@[simp] theorem Db.set_rows_of_ne (db : Db Row) {t u : T} (rows : List (Row t)) (h : u ≠ t) :
    (db.set_rows t rows).rows u = db.rows u := by
  simp [Db.set_rows, Function.update_of_ne h]

@[simp] theorem Db.set_rows_seq (db : Db Row) (t : T) (rows : List (Row t)) :
    (db.set_rows t rows).seq = db.seq := rfl

theorem Db.set_rows_rows (db : Db Row) (t : T) : db.set_rows t (db.rows t) = db := by
  simp [Db.set_rows]

theorem Db.set_rows_set_rows (db : Db Row) (t : T) (first second : List (Row t)) :
    (db.set_rows t first).set_rows t second = db.set_rows t second := by
  simp [Db.set_rows]

@[simp] theorem Db.next_id_rows (db : Db Row) (t : T) : (db.next_id t).rows = db.rows := rfl

section Run

variable [Schema Row]

@[simp] theorem run_done (result : Except ε α) (db : Db Row) :
    (Prog.done result : Prog Row ε α).run db = (result, db) := rfl

@[simp] theorem run_pure (a : α) (db : Db Row) :
    (pure a : Prog Row ε α).run db = (.ok a, db) := rfl

@[simp] theorem run_throw (e : ε) (db : Db Row) :
    (Prog.throw e : Prog Row ε α).run db = (.error e, db) := rfl

@[simp] theorem run_ofExcept (result : Except ε α) (db : Db Row) :
    (Prog.ofExcept result : Prog Row ε α).run db = (result, db) := rfl

@[simp] theorem run_query (q : Rows Row → α) (db : Db Row) :
    (Prog.query q : Prog Row ε α).run db = (.ok (q db.rows), db) := rfl

@[simp] theorem run_update_where (t : T) (which : Row t → Bool) (change : Row t → Row t) (db : Db Row) :
    (Prog.update_where t which change : Prog Row ε _).run db =
      (.ok (((db.rows t).filter which).map change), db.set_rows t ((db.rows t).map (updated which change))) := by
  simp only [Prog.update_where, Prog.run, filterMap_rewrite_some, answer_some]

@[simp] theorem run_delete_where (t : T) (which : Row t → Bool) (db : Db Row) :
    (Prog.delete_where t which : Prog Row ε _).run db =
      (.ok ((db.rows t).filter which), db.set_rows t ((db.rows t).filter fun row => !which row)) := by
  simp only [Prog.delete_where, Prog.run, filterMap_rewrite_none, answer_none, List.map_id]

theorem run_insert_into (violation : ε) (t : T) (values : Nat → Row t) (db : Db Row) :
    (Prog.insert_into violation t values).run db =
      if (db.rows t).any (Schema.clash t (values (db.seq t))) then (.error violation, db.next_id t)
      else (.ok (values (db.seq t)), (db.next_id t).set_rows t (db.rows t ++ [values (db.seq t)])) := by
  simp only [Prog.insert_into, Prog.run]

/-- Running a sequence runs the second program where the first one stopped. -/
theorem run_bind (p : Prog Row ε α) (k : α → Prog Row ε β) (db : Db Row) :
    (p >>= k).run db =
      match p.run db with
      | (.ok a, mid) => (k a).run mid
      | (.error e, mid) => (.error e, mid) := by
  change (p.bind k).run db = _
  induction p generalizing db with
  | done result => cases result <;> rfl
  | select next ih => exact ih _ _
  | update t which change next ih => exact ih _ _
  | insert t values next ih =>
    simp only [Prog.bind, Prog.run]
    split <;> exact ih _ _

theorem run_bind_ok {p : Prog Row ε α} {k : α → Prog Row ε β} {db mid : Db Row} {a : α}
    (hp : p.run db = (.ok a, mid)) : (p >>= k).run db = (k a).run mid := by
  rw [run_bind, hp]

theorem run_bind_eq_ok_iff {p : Prog Row ε α} {k : α → Prog Row ε β} {db after : Db Row} {b : β} :
    (p >>= k).run db = (.ok b, after) ↔
      ∃ a mid, p.run db = (.ok a, mid) ∧ (k a).run mid = (.ok b, after) := by
  rw [run_bind]
  rcases p.run db with ⟨result | a, mid⟩ <;> simp

theorem run_ofExcept_bind_eq_ok_iff {result : Except ε α} {k : α → Prog Row ε β} {db after : Db Row} {b : β} :
    (Prog.ofExcept result >>= k).run db = (.ok b, after) ↔ ∃ a, result = .ok a ∧ (k a).run db = (.ok b, after) := by
  rw [run_bind, run_ofExcept]
  cases result with
  | ok a => simp
  | error e => simp

theorem exec_of_run_ok {p : Prog Row ε α} {db after : Db Row} {a : α}
    (hp : p.run db = (.ok a, after)) : p.exec db = (.ok a, after) := by
  rw [Prog.exec, hp]

theorem exec_of_run_error {p : Prog Row ε α} {db after : Db Row} {e : ε}
    (hp : p.run db = (.error e, after)) : p.exec db = (.error e, { db with seq := after.seq }) := by
  rw [Prog.exec, hp]

/-- A transaction either fails and leaves every row as it was, or its
statements ran to the end. -/
theorem exec_cases (p : Prog Row ε α) (db : Db Row) :
    (∃ e, (p.exec db).1 = .error e ∧ (p.exec db).2.rows = db.rows) ∨
      ∃ a after, p.run db = (.ok a, after) ∧ p.exec db = (.ok a, after) := by
  rcases h : p.run db with ⟨e | a, after⟩
  · exact .inl ⟨e, by rw [exec_of_run_error h], by rw [exec_of_run_error h]⟩
  · exact .inr ⟨a, after, rfl, exec_of_run_ok h⟩

end Run

end Serial

end sql

namespace sql

variable {T : Type} {Row : T → Type} {ε α β : Type} [DecidableEq T] [Schema Row]

/-- Executed from `rows` with whatever ids its INSERTs draw, the program ends
in an error or in `Q`. -/
def Prog.wp : Prog Row ε α → Rows Row → (α → Rows Row → Prop) → Prop
  | .done (.ok a), rows, Q => Q a rows
  | .done (.error _), _, _ => True
  | .select next, rows, Q => (next rows).wp rows Q
  | .update t which change next, rows, Q =>
    (next (((rows t).filter which).map (answer change))).wp
      (Function.update rows t ((rows t).filterMap (rewrite which change))) Q
  | .insert t values next, rows, Q => ∀ id,
    if (rows t).any (Schema.clash t (values id)) then (next none).wp rows Q
    else (next (some (values id))).wp (Function.update rows t (rows t ++ [values id])) Q

variable {p : Prog Row ε α} {k : α → Prog Row ε β} {rows : Rows Row}

theorem wp_mono {Q Q' : α → Rows Row → Prop} (h : ∀ a rows, Q a rows → Q' a rows) (hp : p.wp rows Q) : p.wp rows Q' := by
  induction p generalizing rows with
  | done result =>
    cases result with
    | ok a => exact h a rows hp
    | error e => trivial
  | select next ih => exact ih _ hp
  | update t which change next ih => exact ih _ hp
  | insert t values next ih =>
    intro id
    have hid := hp id
    split_ifs at hid ⊢
    · exact ih _ hid
    · exact ih _ hid

/-- A sequence: the first program has to end where the second one ends in `Q`. -/
theorem wp_bind {Q : β → Rows Row → Prop} : (p >>= k).wp rows Q ↔ p.wp rows fun a rows => (k a).wp rows Q := by
  change (p.bind k).wp rows Q ↔ _
  induction p generalizing rows with
  | done result => cases result <;> exact Iff.rfl
  | select next ih => exact ih _
  | update t which change next ih => exact ih _
  | insert t values next ih =>
    refine forall_congr' fun id => ?_
    split_ifs
    · exact ih _
    · exact ih _

/-- Executed alone, a program that ends ok ends in `Q`. -/
theorem run_of_wp {db after : Db Row} {a : α} {Q : α → Rows Row → Prop} (hp : p.wp db.rows Q)
    (hrun : p.run db = (.ok a, after)) : Q a after.rows := by
  induction p generalizing db with
  | done result =>
    obtain ⟨rfl, rfl⟩ := Prod.mk.inj hrun
    exact hp
  | select next ih => exact ih _ hp hrun
  | update t which change next ih => exact @ih _ (db.set_rows t ((db.rows t).filterMap (rewrite which change))) hp hrun
  | insert t values next ih =>
    have hid := hp (db.seq t)
    simp only [Prog.run] at hrun
    split_ifs at hid hrun
    · exact @ih _ (db.next_id t) hid hrun
    · exact @ih _ ((db.next_id t).set_rows t (db.rows t ++ [values (db.seq t)])) hid hrun

section Statements

variable {Q : α → Rows Row → Prop}

@[simp] theorem wp_pure (a : α) : (pure a : Prog Row ε α).wp rows Q ↔ Q a rows := Iff.rfl

@[simp] theorem wp_throw (e : ε) : (Prog.throw e : Prog Row ε α).wp rows Q ↔ True := Iff.rfl

theorem wp_ofExcept (result : Except ε α) :
    (Prog.ofExcept result : Prog Row ε α).wp rows Q ↔ ∀ a, result = .ok a → Q a rows := by
  cases result with
  | ok a => simp [Prog.ofExcept, Prog.wp]
  | error e => simp [Prog.ofExcept, Prog.wp]

@[simp] theorem wp_query (q : Rows Row → α) : (Prog.query q : Prog Row ε α).wp rows Q ↔ Q (q rows) rows := Iff.rfl

@[simp] theorem wp_update_where (t : T) (which : Row t → Bool) (change : Row t → Row t)
    {Q : List (Row t) → Rows Row → Prop} :
    (Prog.update_where t which change : Prog Row ε _).wp rows Q ↔
      Q (((rows t).filter which).map change) (Function.update rows t ((rows t).map (updated which change))) := by
  simp only [Prog.update_where, Prog.wp, filterMap_rewrite_some, answer_some]

@[simp] theorem wp_delete_where (t : T) (which : Row t → Bool) {Q : List (Row t) → Rows Row → Prop} :
    (Prog.delete_where t which : Prog Row ε _).wp rows Q ↔
      Q ((rows t).filter which) (Function.update rows t ((rows t).filter fun row => !which row)) := by
  simp only [Prog.delete_where, Prog.wp, filterMap_rewrite_none, answer_none, List.map_id]

theorem wp_insert_into (violation : ε) (t : T) (values : Nat → Row t) {Q : Row t → Rows Row → Prop} :
    (Prog.insert_into violation t values : Prog Row ε _).wp rows Q ↔
      ∀ id, (rows t).any (Schema.clash t (values id)) = false →
        Q (values id) (Function.update rows t (rows t ++ [values id])) := by
  refine forall_congr' fun id => ?_
  split_ifs with hclash
  · simp [hclash, Prog.wp]
  · simp [hclash, Prog.wp]

end Statements

/-- The ids a program draws only count up. -/
theorem seq_le_run (p : Prog Row ε α) (db : Db Row) (t : T) : db.seq t ≤ (p.run db).2.seq t := by
  induction p generalizing db with
  | done result => exact Nat.le_refl _
  | select next ih => exact ih _ _
  | update u which change next ih => exact ih _ (db.set_rows u _)
  | insert u values next ih =>
    have hnext : db.seq t ≤ (db.next_id u).seq t := by
      by_cases h : t = u
      · subst h
        simp [Db.next_id]
      · simp [Db.next_id, Function.update_of_ne h]
    simp only [Prog.run]
    split_ifs
    · exact Nat.le_trans hnext (ih _ _)
    · exact Nat.le_trans hnext (ih _ ((db.next_id u).set_rows u _))

theorem seq_le_exec (p : Prog Row ε α) (db : Db Row) (t : T) : db.seq t ≤ (p.exec db).2.seq t := by
  have hrun := seq_le_run p db t
  rw [Prog.exec]
  split
  · next heq => rwa [heq] at hrun
  · next heq => rwa [heq] at hrun

end sql
