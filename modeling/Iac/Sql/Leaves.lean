import Iac.Sql.Program

namespace sql

variable {T : Type} {Row : T → Type} {ε α β : Type} {t₀ : T}

/-- The program writes nothing in the table. -/
def Prog.leaves (t₀ : T) : Prog Row ε α → Prop
  | .done _ => True
  | .select next => ∀ rows, (next rows).leaves t₀
  | .update t _ _ next => t ≠ t₀ ∧ ∀ out, (next out).leaves t₀
  | .insert t _ next => t ≠ t₀ ∧ ∀ out, (next out).leaves t₀

/-- Whatever its statements answer, the program ends in an error or in `P`. -/
def Prog.returns (P : α → Prop) : Prog Row ε α → Prop
  | .done (.ok a) => P a
  | .done (.error _) => True
  | .select next => ∀ rows, (next rows).returns P
  | .update _ _ _ next => ∀ out, (next out).returns P
  | .insert _ _ next => ∀ out, (next out).returns P

variable {p : Prog Row ε α} {k : α → Prog Row ε β}

theorem leaves_bind (hp : p.leaves t₀) (hk : ∀ a, (k a).leaves t₀) : (p >>= k).leaves t₀ := by
  change (p.bind k).leaves t₀
  induction p with
  | done result =>
    cases result with
    | ok a => exact hk a
    | error e => trivial
  | select next ih => exact fun rows => ih rows (hp rows)
  | update t which change next ih => exact ⟨hp.1, fun out => ih out (hp.2 out)⟩
  | insert t values next ih => exact ⟨hp.1, fun out => ih out (hp.2 out)⟩

theorem leaves_pure (a : α) : (pure a : Prog Row ε α).leaves t₀ := trivial

theorem leaves_throw (e : ε) : (Prog.throw e : Prog Row ε α).leaves t₀ := trivial

theorem leaves_ofExcept (result : Except ε α) : (Prog.ofExcept result : Prog Row ε α).leaves t₀ := trivial

theorem leaves_query (q : Rows Row → α) : (Prog.query q : Prog Row ε α).leaves t₀ := fun _ => trivial

theorem leaves_update_where {t : T} (h : t ≠ t₀) (which : Row t → Bool) (change : Row t → Row t) :
    (Prog.update_where t which change : Prog Row ε _).leaves t₀ :=
  ⟨h, fun _ => trivial⟩

theorem leaves_insert_into {t : T} (h : t ≠ t₀) (violation : ε) (values : Nat → Row t) :
    (Prog.insert_into violation t values : Prog Row ε _).leaves t₀ := by
  refine ⟨h, fun out => ?_⟩
  cases out <;> trivial

/-- A table that the program leaves keeps its rows. -/
theorem rows_of_leaves [DecidableEq T] [Schema Row] (hp : p.leaves t₀) (db : Db Row) :
    (p.run db).2.rows t₀ = db.rows t₀ := by
  induction p generalizing db with
  | done result => rfl
  | select next ih => exact ih _ (hp _) db
  | update t which change next ih =>
    rw [Prog.run, ih _ (hp.2 _)]
    exact Db.set_rows_of_ne _ _ hp.1.symm
  | insert t values next ih =>
    rw [Prog.run]
    split
    · exact ih _ (hp.2 _) _
    · rw [ih _ (hp.2 _)]
      exact Db.set_rows_of_ne _ _ hp.1.symm

theorem returns_bind {P : α → Prop} {Q : β → Prop} (hp : p.returns P) (hk : ∀ a, P a → (k a).returns Q) :
    (p >>= k).returns Q := by
  change (p.bind k).returns Q
  induction p with
  | done result =>
    cases result with
    | ok a => exact hk a hp
    | error e => trivial
  | select next ih => exact fun rows => ih rows (hp rows)
  | update t which change next ih => exact fun out => ih out (hp out)
  | insert t values next ih => exact fun out => ih out (hp out)

theorem returns_any (p : Prog Row ε α) : p.returns fun _ => True := by
  induction p with
  | done result => cases result <;> trivial
  | select next ih => exact ih
  | update t which change next ih => exact ih
  | insert t values next ih => exact ih

theorem returns_mono {P Q : α → Prop} (hp : p.returns P) (h : ∀ a, P a → Q a) : p.returns Q := by
  induction p with
  | done result =>
    cases result with
    | ok a => exact h a hp
    | error e => trivial
  | select next ih => exact fun rows => ih rows (hp rows)
  | update t which change next ih => exact fun out => ih out (hp out)
  | insert t values next ih => exact fun out => ih out (hp out)

end sql

namespace sql

variable {T U : Type} {Row : U → Type} {ε α : Type} (f : T → U)

/-- A program on the tables that a larger schema has under the names `f`. -/
def Prog.along : Prog (fun t => Row (f t)) ε α → Prog Row ε α
  | .done result => .done result
  | .select next => .select fun rows => (next fun t => rows (f t)).along
  | .update t which change next => .update (f t) which change fun out => (next out).along
  | .insert t values next => .insert (f t) values fun out => (next out).along

/-- It writes to no table with another name. -/
theorem leaves_along {u : U} (h : ∀ t, f t ≠ u) (p : Prog (fun t => Row (f t)) ε α) : (p.along f).leaves u := by
  induction p with
  | done result => trivial
  | select next ih => exact fun rows => ih _
  | update t which change next ih => exact ⟨h t, fun out => ih out⟩
  | insert t values next ih => exact ⟨h t, fun out => ih out⟩

section Unique

variable [DecidableEq U] [Schema Row] {u : U}

/-- Two of the rows violate a constraint. -/
def clashing (u : U) (rows : List (Row u)) : Bool :=
  !decide (rows.Pairwise fun a b => Schema.clash u a b = false)

/-- An UPDATE of columns under a constraint. -/
def Prog.update_unique (violation : ε) (u : U) (which : Row u → Bool) (change : Row u → Row u) :
    Prog Row ε (List (Row u)) := do
  let refused ← Prog.query fun rows => clashing u ((rows u).map (updated which change))
  if refused then Prog.throw violation else Prog.update_where u which change

theorem run_update_unique (violation : ε) (which : Row u → Bool) (change : Row u → Row u) (db : Db Row) :
    (Prog.update_unique violation u which change).run db =
      if clashing u ((db.rows u).map (updated which change)) then (.error violation, db)
      else (.ok (((db.rows u).filter which).map change), db.set_rows u ((db.rows u).map (updated which change))) := by
  rw [Prog.update_unique, run_bind_ok (run_query _ _)]
  split
  · rfl
  · exact run_update_where _ _ _ _

omit [DecidableEq U] in
/-- A constraint on a key is violated when the key occurs twice. -/
theorem clashing_eq_false_iff {K : Type} {key : Row u → K} (hclash : ∀ a b, Schema.clash u a b = false ↔ key a ≠ key b)
    {rows : List (Row u)} : clashing u rows = false ↔ (rows.map key).Nodup := by
  simp only [clashing, Bool.not_eq_false', decide_eq_true_eq, hclash, List.Nodup, List.pairwise_map]

end Unique

end sql
