import Mathlib.Data.List.ReduceOption
import Iac.Sql.Program

namespace sql

/-- A row as concurrent transactions store it: the committed version, if
there is one, and what an open transaction wrote over it, a new version or a
deletion. That transaction holds the lock of the row until it ends. -/
structure Slot (ι R : Type) where
  committed : Option R
  pending : Option (ι × Option R)

/-- Where a client is in its transaction. An UPDATE or DELETE has two steps: it
picks its rows from its snapshot, then waits for their locks and evaluates its
WHERE clause once more on the row versions it gets. -/
inductive Session {T : Type} (Row : T → Type) (ε α : Type) where
  | running (p : Prog Row ε α)
  | updating (t : T) (targets : Nat → Bool) (which : Row t → Bool) (change : Row t → Option (Row t))
      (next : List (Row t) → Prog Row ε α)
  | finished (result : Except ε α)

/-- The storage and the clients of a database under read-committed isolation. -/
structure World {T : Type} (ι : Type) (Row : T → Type) (ε α : Type) where
  slots : (t : T) → List (Slot ι (Row t))
  seq : T → Nat
  sessions : ι → Session Row ε α

/-- What happens next: a client's statement is executed, or its connection
fails (a deadlock victim, a lost connection) and it sees the error `e`. -/
inductive Action (ι ε : Type) where
  | advance (i : ι)
  | abort (i : ι) (e : ε)

variable {T ι : Type} {Row : T → Type} {ε α : Type} {R : Type} [DecidableEq ι]

/-- The version of a row that a statement of `i` sees: its own, else the committed one. -/
def Slot.visible (i : ι) (s : Slot ι R) : Option R :=
  match s.pending with
  | some (j, row) => if j = i then row else s.committed
  | none => s.committed

def Slot.locked (i : ι) (s : Slot ι R) : Bool :=
  match s.pending with
  | some (j, _) => !decide (j = i)
  | none => false

def Slot.owned (i : ι) (s : Slot ι R) : Bool :=
  match s.pending with
  | some (j, _) => decide (j = i)
  | none => false

def Slot.rewrite (i : ι) (which : R → Bool) (change : R → Option R) (s : Slot ι R) : Slot ι R :=
  match s.visible i with
  | some row => if which row then { s with pending := some (i, change row) } else s
  | none => s

def Slot.commit (i : ι) (s : Slot ι R) : Slot ι R :=
  match s.pending with
  | some (j, row) => if j = i then ⟨row, none⟩ else s
  | none => s

def Slot.rollback (i : ι) (s : Slot ι R) : Slot ι R :=
  match s.pending with
  | some (j, _) => if j = i then { s with pending := none } else s
  | none => s

def World.view (w : World ι Row ε α) (i : ι) : Rows Row := fun t =>
  (w.slots t).filterMap (Slot.visible i)

def World.committed (w : World ι Row ε α) : Rows Row := fun t =>
  (w.slots t).filterMap Slot.committed

/-- The rows of `t` that match in the snapshot of a statement of `i`. -/
def World.targets (w : World ι Row ε α) (i : ι) (t : T) (which : Row t → Bool) (n : Nat) : Bool :=
  match (w.slots t)[n]? with
  | some s => (s.visible i).any which
  | none => false

/-- Client `i` has written a row of `t` and not committed. -/
def World.uncommitted (w : World ι Row ε α) (i : ι) (t : T) : Bool :=
  (w.slots t).any (Slot.owned i)

def World.set_session (w : World ι Row ε α) (i : ι) (s : Session Row ε α) : World ι Row ε α :=
  { w with sessions := Function.update w.sessions i s }

def World.finish (w : World ι Row ε α) (i : ι) (result : Except ε α) : World ι Row ε α :=
  match result with
  | .ok a => { w with slots := fun t => (w.slots t).map (Slot.commit i) }.set_session i (.finished (.ok a))
  | .error e => { w with slots := fun t => (w.slots t).map (Slot.rollback i) }.set_session i (.finished (.error e))

section Steps

variable [DecidableEq T]

def World.set_slots (w : World ι Row ε α) (t : T) (slots : List (Slot ι (Row t))) : World ι Row ε α :=
  { w with slots := Function.update w.slots t slots }

def World.next_id (w : World ι Row ε α) (t : T) : World ι Row ε α :=
  { w with seq := Function.update w.seq t (w.seq t + 1) }

/-- Whether a row that `i` inserts clashes with this one depends on how its writer ends. -/
def Slot.undecided (i : ι) (clashes : R → Bool) (s : Slot ι R) : Bool :=
  match s.pending with
  | some (j, row) => !decide (j = i) && (s.committed.any clashes != row.any clashes)
  | none => false

/-- Whether an UPDATE of `i` must wait for the writer of one of its rows. -/
def waits (i : ι) (targets : Nat → Bool) (slots : List (Slot ι R)) : Bool :=
  (slots.mapIdx fun n s => targets n && s.locked i).any id

/-- The slots after an UPDATE of `i`, and the rows it answers with. -/
def rewrite_slots (i : ι) (targets : Nat → Bool) (which : R → Bool) (change : R → Option R)
    (slots : List (Slot ι R)) : List (Slot ι R) :=
  slots.mapIdx fun n s => if targets n then s.rewrite i which change else s

def rewritten (i : ι) (targets : Nat → Bool) (which : R → Bool) (change : R → Option R)
    (slots : List (Slot ι R)) : List R :=
  (slots.mapIdx fun n s =>
    if targets n then ((s.visible i).filter which).map (answer change) else none).reduceOption

/-- The next statement of client `i`, when it need not wait. A SELECT reads
committed rows and the client's own; an INSERT waits for the transactions that
decide whether it clashes. -/
def World.advance [Schema Row] (w : World ι Row ε α) (i : ι) : Option (World ι Row ε α) :=
  match w.sessions i with
  | .running (.done result) => some (w.finish i result)
  | .running (.select next) => some (w.set_session i (.running (next (w.view i))))
  | .running (.update t which change next) =>
    some (w.set_session i (.updating t (w.targets i t which) which change next))
  | .updating t targets which change next =>
    if waits i targets (w.slots t) then none
    else some ((w.set_slots t (rewrite_slots i targets which change (w.slots t))).set_session i
      (.running (next (rewritten i targets which change (w.slots t)))))
  | .running (.insert t values next) =>
    let row := values (w.seq t)
    if (w.slots t).any (Slot.undecided i (Schema.clash t row)) then none
    else if (w.view i t).any (Schema.clash t row) then
      some ((w.next_id t).set_session i (.running (next none)))
    else some (((w.next_id t).set_slots t (w.slots t ++ [⟨none, some (i, some row)⟩])).set_session i
      (.running (next (some row))))
  | .finished _ => none

def World.step [Schema Row] (w : World ι Row ε α) : Action ι ε → Option (World ι Row ε α)
  | .advance i => w.advance i
  | .abort i e =>
    match w.sessions i with
    | .finished _ => none
    | _ => some (w.finish i (.error e))

/-- The clients `progs` at the start, over the rows of `db`. -/
def World.start (db : Db Row) (progs : ι → Prog Row ε α) : World ι Row ε α where
  slots t := (db.rows t).map fun row => ⟨some row, none⟩
  seq := db.seq
  sessions i := .running (progs i)

/-- The states an interleaving can reach when `allowed` admits each of its steps. -/
inductive Interleaving [Schema Row] (allowed : World ι Row ε α → Action ι ε → Prop) (w : World ι Row ε α) :
    World ι Row ε α → Prop where
  | start : Interleaving allowed w w
  | step {v u : World ι Row ε α} {a : Action ι ε} (hrun : Interleaving allowed w v)
      (hallowed : allowed v a) (hstep : v.step a = some u) : Interleaving allowed w u

/-- The state a schedule leads to, when each of its steps is allowed and possible. -/
def World.follow [Schema Row] (ok : World ι Row ε α → Action ι ε → Bool) (w : World ι Row ε α) :
    List (Action ι ε) → Option (World ι Row ε α)
  | [] => some w
  | a :: schedule => if ok w a then (w.step a).bind fun u => u.follow ok schedule else none

private theorem interleaving_follow [Schema Row] {allowed : World ι Row ε α → Action ι ε → Prop}
    {ok : World ι Row ε α → Action ι ε → Bool} (hok : ∀ w a, ok w a = true → allowed w a) {w u v : World ι Row ε α}
    {schedule : List (Action ι ε)} (hrun : Interleaving allowed w u) (h : u.follow ok schedule = some v) :
    Interleaving allowed w v := by
  induction schedule generalizing u with
  | nil => exact Option.some.inj h ▸ hrun
  | cons a schedule ih =>
    simp only [World.follow] at h
    split_ifs at h with hallowed
    obtain ⟨next, hstep, hrest⟩ := Option.bind_eq_some_iff.mp h
    exact ih (hrun.step (hok u a hallowed) hstep) hrest

/-- A schedule that leads to a state with `p` shows that there is such a state. -/
theorem interleaving_of_follow [Schema Row] {allowed : World ι Row ε α → Action ι ε → Prop}
    {ok : World ι Row ε α → Action ι ε → Bool} (hok : ∀ w a, ok w a = true → allowed w a) {w : World ι Row ε α}
    {schedule : List (Action ι ε)} {p : World ι Row ε α → Bool} (h : (w.follow ok schedule).any p = true) :
    ∃ u, Interleaving allowed w u ∧ p u = true := by
  cases hu : w.follow ok schedule with
  | none => simp [hu] at h
  | some u => exact ⟨u, interleaving_follow hok .start hu, by simpa [hu] using h⟩

/-- Any step. -/
def any_step : World ι Row ε α → Action ι ε → Bool := fun _ _ => true

end Steps

/-- The client has committed. -/
def Session.committed : Session Row ε α → Bool
  | .finished (.ok _) => true
  | _ => false

/-- The client has ended in an error. -/
def Session.failed : Session Row ε α → Bool
  | .finished (.error _) => true
  | _ => false

theorem Session.committed_iff {s : Session Row ε α} : s.committed = true ↔ ∃ a, s = .finished (.ok a) := by
  cases s with
  | running p => simp [Session.committed]
  | updating t targets which change next => simp [Session.committed]
  | finished result => cases result <;> simp [Session.committed]

end sql
