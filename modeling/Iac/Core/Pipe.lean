import Mathlib.Data.List.Basic

namespace os

abbrev Pid := Nat

inductive ExitStatus where
  | code (n : Nat)
  | signal (n : Nat)
  deriving DecidableEq, Repr

def ExitStatus.success (status : ExitStatus) : Bool := status == .code 0

/-- `ExitStatus::code`. -/
def ExitStatus.exit_code : ExitStatus → Option Nat
  | .code n => some n
  | .signal _ => none

/-- An output pipe: the processes that hold its write end, the bytes in it, and
what its reader has taken out so far. `ended` is the reader's end of file. -/
structure Output where
  writers : List Pid
  buffered : List UInt8 := []
  buf : List UInt8 := []
  ended : Bool := false
  deriving DecidableEq

/-- Everything that was written. -/
def Output.written (o : Output) : List UInt8 := o.buf ++ o.buffered

/-- A write blocks unless its bytes fit in. -/
def Output.write (capacity : Nat) (p : Pid) (bytes : List UInt8) (o : Output) : Option Output :=
  if p ∈ o.writers ∧ o.buffered.length + bytes.length ≤ capacity then
    some { o with buffered := o.buffered ++ bytes }
  else none

def Output.close (p : Pid) (o : Output) : Output :=
  { o with writers := o.writers.filter (· != p) }

/-- A new process has what its parent has. -/
def Output.fork (p q : Pid) (o : Output) : Output :=
  if p ∈ o.writers then { o with writers := q :: o.writers } else o

/-- The reader has something to read, or has come to the end. -/
def Output.readable (o : Output) : Bool := !o.ended && (!o.buffered.isEmpty || o.writers.isEmpty)

/-- One turn of `read_to_end`. -/
def Output.read (o : Output) : Option Output :=
  if o.readable then
    if o.buffered.isEmpty then some { o with ended := true }
    else some { o with buf := o.buf ++ o.buffered, buffered := [] }
  else none

/-- At the end of file nothing is left and nobody can write. -/
def Output.Drained (o : Output) : Prop := o.ended = true → o.buffered = [] ∧ o.writers = []

section Output

variable {o o' : Output} {p q : Pid} {bytes : List UInt8} {capacity : Nat}

/-- What a step of a process or of the reader does to an output pipe. -/
structure Output.Follows (o o' : Output) : Prop where
  written : o.written <+: o'.written
  ended : o.ended = true → o'.ended = true ∧ o'.written = o.written
  drained : o'.Drained
  writers : o.writers = [] → o'.writers = []

theorem Output.Follows.refl (h : o.Drained) : o.Follows o := ⟨List.prefix_refl _, fun he => ⟨he, rfl⟩, h, id⟩

theorem Output.follows_write (h : o.Drained) (hwrite : o.write capacity p bytes = some o') : o.Follows o' := by
  rw [Output.write] at hwrite
  split_ifs at hwrite with hfits
  obtain rfl := Option.some.inj hwrite
  have hopen : o.ended ≠ true := fun hended => by simp [(h hended).2] at hfits
  refine ⟨⟨bytes, by simp [Output.written]⟩, fun hended => absurd hended hopen, fun hended => absurd hended hopen, id⟩

theorem Output.follows_close (h : o.Drained) : o.Follows (o.close p) := by
  refine ⟨List.prefix_refl _, fun hended => ⟨hended, rfl⟩, fun hended => ⟨(h hended).1, ?_⟩, fun hnone => ?_⟩
  · simp [Output.close, (h hended).2]
  · simp [Output.close, hnone]

theorem Output.follows_fork (h : o.Drained) : o.Follows (o.fork p q) := by
  rw [Output.fork]
  split_ifs with hp
  · have hopen : o.writers ≠ [] := List.ne_nil_of_mem hp
    exact ⟨List.prefix_refl _, fun hended => absurd (h hended).2 hopen, fun hended => absurd (h hended).2 hopen,
      fun hnone => absurd hnone hopen⟩
  · exact .refl h

theorem Output.follows_read (hread : o.read = some o') : o.Follows o' := by
  rw [Output.read] at hread
  split_ifs at hread with hreadable hempty
  · obtain rfl := Option.some.inj hread
    have hbuffered : o.buffered = [] := by simpa using hempty
    refine ⟨List.prefix_refl _, fun _ => ⟨rfl, rfl⟩, fun _ => ⟨hbuffered, ?_⟩, id⟩
    simpa [Output.readable, hbuffered] using (Bool.and_eq_true_iff.mp hreadable).2
  · obtain rfl := Option.some.inj hread
    have hopen : o.ended = false := by simpa using (Bool.and_eq_true_iff.mp hreadable).1
    exact ⟨by simp [Output.written], fun hended => by simp [hopen] at hended, fun hended => by simp [hopen] at hended, id⟩

/-- A reader that waits has not ended because someone still can write. -/
theorem Output.held_of_not_readable (hreadable : o.readable = false) (hended : o.ended = false) : o.writers ≠ [] := by
  intro hnone
  simp [Output.readable, hended, hnone] at hreadable

theorem Output.buf_of_ended (h : o.Drained) (hended : o.ended = true) : o.buf = o.written := by
  rw [Output.written, (h hended).1, List.append_nil]

end Output

/-- An input pipe: the processes that hold its read end, the bytes in it, and what is
still to be written. `closed` is the writer's end: all was written, or nobody reads. -/
structure Input where
  readers : List Pid
  unsent : List UInt8
  buffered : List UInt8 := []
  closed : Bool := false
  deriving DecidableEq

def Input.close (p : Pid) (i : Input) : Input :=
  { i with readers := i.readers.filter (· != p) }

def Input.fork (p q : Pid) (i : Input) : Input :=
  if p ∈ i.readers then { i with readers := q :: i.readers } else i

/-- A reader takes the first `n` bytes. -/
def Input.consume (p : Pid) (n : Nat) (i : Input) : Option Input :=
  if p ∈ i.readers then some { i with buffered := i.buffered.drop n } else none

/-- The writer has something to do: the pipe has room, all is written, or the pipe is broken. -/
def Input.writable (capacity : Nat) (i : Input) : Bool :=
  !i.closed && (i.unsent.isEmpty || i.readers.isEmpty || decide (i.buffered.length < capacity))

/-- As many bytes as there is room for. -/
def Input.push (capacity : Nat) (i : Input) : Input :=
  { i with buffered := i.buffered ++ i.unsent.take (capacity - i.buffered.length)
           unsent := i.unsent.drop (capacity - i.buffered.length) }

end os
