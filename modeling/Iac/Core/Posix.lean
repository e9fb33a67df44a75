import Iac.Collections.Paths
import Iac.Collections.Script
import Mathlib.Data.UInt
import Mathlib.Logic.Function.Basic

open Script

namespace posix

abbrev Path := List Char

/-- The twelve bits of a mode. -/
abbrev mode_of (mode : Nat) : Fin 4096 := Fin.ofNat 4096 mode

/-- The id that stands for none: `chown` leaves the owner as it is. -/
def KEEP_ID : UInt32 := 4294967295

/-- The id of an owner or a group. No file has the one that stands for none. -/
abbrev OwnerId := {n : UInt32 // n ≠ KEEP_ID}

theorem zero_ne_keep_id : (0 : UInt32) ≠ KEEP_ID := by decide

def OwnerId.root : OwnerId := ⟨0, zero_ne_keep_id⟩

/-- A regular file. A mode has twelve bits. -/
structure Regular where
  content : List UInt8
  mode : Fin 4096
  uid : OwnerId
  gid : OwnerId
  deriving DecidableEq

inductive Entry where
  | regular (file : Regular)
  | directory
  | symlink
  | other
  deriving DecidableEq

/-- What stands at each absolute path in normal form. -/
abbrev Tree := Path → Option Entry

/-- Why a call fails: nothing stands at the path, or another reason. -/
inductive Errno where
  | NotFound
  | Other (text : String)

def Errno.to_string : Errno → String
  | .NotFound => "No such file or directory (os error 2)"
  | .Other text => text

inductive Call where
  | lstat
  | openat
  | mkdir
  | creat
  | write
  | sync
  | chmod
  | chown
  | rename
  | unlink
  | copy
  deriving DecidableEq

/-- The kernel as a process sees it: the calls that it refuses although the tree
does not forbid them, how much of a refused write is in the file, whose files
the process creates, and what a change of the owner leaves of a mode. -/
structure Kernel where
  refuses : Call → Path → Tree → Option String
  written : Nat
  uid : OwnerId
  gid : OwnerId
  after_chown : Fin 4096 → Fin 4096

namespace Kernel

variable (k : Kernel) {ε α : Type}

/-- A call that looks at the tree. -/
def look (call : Call) (path : Path) (f : Tree → Except Errno α) : Script Tree ε (Except Errno α) := do
  let tree ← get
  match k.refuses call path tree with
  | some text => return .error (.Other text)
  | none => return f tree

/-- A call that changes the tree in one step, or fails and leaves it as it is. -/
def change (call : Call) (path : Path) (f : Tree → Except Errno Tree) : Script Tree ε (Except Errno Unit) := do
  let tree ← get
  match k.refuses call path tree with
  | some text => return .error (.Other text)
  | none =>
    match f tree with
    | .error e => return .error e
    | .ok tree' =>
      put fun _ => tree'
      return .ok ()

def lstat (path : Path) : Script Tree ε (Except Errno Entry) :=
  k.look .lstat path fun tree => (tree path).elim (.error .NotFound) .ok

/-- The file at the path, opened to be read or copied. -/
def open_file (path : Path) : Script Tree ε (Except Errno Regular) :=
  k.look .openat path fun tree =>
    match tree path with
    | some (.regular file) => .ok file
    | some _ => .error (.Other "Is a directory (os error 21)")
    | none => .error .NotFound

/-- `O_DIRECTORY | O_NOFOLLOW`. -/
def open_directory (path : Path) : Script Tree ε (Except Errno Unit) :=
  k.look .openat path fun tree =>
    match tree path with
    | some .directory => .ok ()
    | some _ => .error (.Other "Not a directory (os error 20)")
    | none => .error .NotFound

def mkdir (path : Path) : Script Tree ε (Except Errno Unit) :=
  k.change .mkdir path fun tree =>
    match tree path with
    | some _ => .error (.Other "File exists (os error 17)")
    | none => .ok (Function.update tree path (some .directory))

/-- `O_CREAT | O_EXCL`: the file is empty, and the process owns it. -/
def create (path : Path) (mode : Fin 4096) : Script Tree ε (Except Errno Unit) :=
  k.change .creat path fun tree =>
    match tree path with
    | some _ => .error (.Other "File exists (os error 17)")
    | none => .ok (Function.update tree path (some (.regular ⟨[], mode, k.uid, k.gid⟩)))

/-- A change of the regular file at the path. -/
def on_file (path : Path) (f : Regular → Regular) (tree : Tree) : Except Errno Tree :=
  match tree path with
  | some (.regular file) => .ok (Function.update tree path (some (.regular (f file))))
  | some _ => .error (.Other "Bad file descriptor (os error 9)")
  | none => .error .NotFound

/-- A write that fails may have put part of the bytes in the file. -/
def write_all (path : Path) (bytes : List UInt8) : Script Tree ε (Except Errno Unit) := do
  match ← k.change .write path (on_file path fun file => { file with content := bytes.take k.written }) with
  | .error e => return .error e
  | .ok () => k.change .write path (on_file path fun file => { file with content := bytes })

def sync_all (path : Path) : Script Tree ε (Except Errno Unit) := k.look .sync path fun _ => .ok ()

def chmod (path : Path) (mode : Nat) : Script Tree ε (Except Errno Unit) :=
  k.change .chmod path (on_file path fun file => { file with mode := mode_of mode })

/-- The id after `chown`, which may be given another one. -/
def owned_id (given : Option UInt32) (id : OwnerId) : OwnerId :=
  match given with
  | some n => if h : n = KEEP_ID then id else ⟨n, h⟩
  | none => id

/-- The file with other owners, where they are given. -/
def owned (uid gid : Option UInt32) (file : Regular) : Regular :=
  { file with uid := owned_id uid file.uid, gid := owned_id gid file.gid, mode := k.after_chown file.mode }

def chown (path : Path) (uid gid : Option UInt32) : Script Tree ε (Except Errno Unit) :=
  k.change .chown path (on_file path (k.owned uid gid))

/-- What stands at the new path is replaced, unless it is a directory. -/
def moved (path target : Path) (tree : Tree) : Except Errno Tree :=
  match tree path, tree target with
  | none, _ => .error .NotFound
  | some _, some .directory => .error (.Other "Is a directory (os error 21)")
  | some entry, _ => .ok (Function.update (Function.update tree path none) target (some entry))

def rename (path target : Path) : Script Tree ε (Except Errno Unit) := k.change .rename path (moved path target)

def removed (path : Path) (tree : Tree) : Except Errno Tree :=
  match tree path with
  | none => .error .NotFound
  | some .directory => .error (.Other "Is a directory (os error 21)")
  | some _ => .ok (Function.update tree path none)

def unlink (path : Path) : Script Tree ε (Except Errno Unit) := k.change .unlink path (removed path)

/-- Opens the destination of a copy: a new file, or the one that is there, emptied. -/
def truncate (path : Path) (mode : Fin 4096) (tree : Tree) : Except Errno Tree :=
  match tree path with
  | none => .ok (Function.update tree path (some (.regular ⟨[], mode, k.uid, k.gid⟩)))
  | some (.regular file) => .ok (Function.update tree path (some (.regular { file with content := [], mode })))
  | some _ => .error (.Other "Is a directory (os error 21)")

/-- `fs::copy`: the mode, and the content once the destination is empty. -/
def copy (path target : Path) : Script Tree ε (Except Errno Unit) := do
  match ← k.open_file path with
  | .error e => return .error e
  | .ok file =>
    match ← k.change .copy target (k.truncate target file.mode) with
    | .error e => return .error e
    | .ok () =>
      match ← k.open_file path with
      | .error e => return .error e
      | .ok file => k.write_all target file.content

/-- The directories, each in the one before it. -/
def make_dirs : List Path → Script Tree ε (Except Errno Unit)
  | [] => return .ok ()
  | dir :: dirs => do
    let tree ← get
    if tree dir = some .directory then make_dirs dirs
    else
      match ← k.mkdir dir with
      | .error e => return .error e
      | .ok () => make_dirs dirs

/-- The path and the directories above it, without the root. -/
def ancestors (p : Path) : List Path := (path.resolve p).inits.tail.map path.render

/-- A failure of the call is one of the caller. -/
def checked (wrap : Errno → ε) (call : Script Tree ε (Except Errno α)) : Script Tree ε α := do
  match ← call with
  | .ok a => return a
  | .error e => fail (wrap e)

section Rules

variable {k} {β : Type} {I : Tree → Prop} {Q : Except ε β → Tree → Prop} {tree : Tree} {call : Call} {p : Path}
  {wrap : Errno → ε}

/-- Why a call fails: the tree forbids it, or the kernel refuses it. -/
def Fails (refusal : Option String) (result : Except Errno α) (e : Errno) : Prop :=
  result = .error e ∨ ∃ text, refusal = some text ∧ e = .Other text

theorem ensures_look_bind {f : Tree → Except Errno α} {next : Except Errno α → Script Tree ε β}
    (herror : ∀ e, Fails (k.refuses call p tree) (f tree) e → (next (.error e)).Ensures I Q tree)
    (hok : ∀ a, f tree = .ok a → (next (.ok a)).Ensures I Q tree) :
    (k.look call p f >>= next).Ensures I Q tree := by
  have hlook : (k.look call p f >>= next).Ensures I Q tree ↔ (next (match k.refuses call p tree with
      | some text => .error (.Other text)
      | none => f tree)).Ensures I Q tree := by
    rw [look, bind_assoc, ensures_get_bind]
    cases k.refuses call p tree <;> rfl
  rw [hlook]
  cases hrefuses : k.refuses call p tree with
  | some text => exact herror _ (.inr ⟨text, hrefuses, rfl⟩)
  | none =>
    cases hf : f tree with
    | error e => exact herror e (.inl hf)
    | ok a => exact hok a hf

theorem ensures_change_bind {f : Tree → Except Errno Tree} {next : Except Errno Unit → Script Tree ε β} (hI : I tree)
    (herror : ∀ e, Fails (k.refuses call p tree) (f tree) e → (next (.error e)).Ensures I Q tree)
    (hok : ∀ tree', f tree = .ok tree' → (next (.ok ())).Ensures I Q tree') :
    (k.change call p f >>= next).Ensures I Q tree := by
  rw [change, bind_assoc, ensures_get_bind]
  cases hrefuses : k.refuses call p tree with
  | some text => exact herror _ (.inr ⟨text, hrefuses, rfl⟩)
  | none =>
    cases hf : f tree with
    | error e => exact herror e (.inl hf)
    | ok tree' => exact ⟨hI, hok tree' hf⟩

theorem ensures_checked_bind {c : Script Tree ε (Except Errno α)} {next : α → Script Tree ε β}
    (h : (c >>= fun result => match result with
      | .ok a => next a
      | .error e => fail (wrap e)).Ensures I Q tree) : (checked wrap c >>= next).Ensures I Q tree := by
  have hchecked : (checked wrap c >>= next) = c >>= fun result => match result with
      | .ok a => next a
      | .error e => fail (wrap e) := by
    rw [checked, bind_assoc]
    refine congrArg (c >>= ·) (funext fun result => ?_)
    cases result <;> simp
  rw [hchecked]
  exact h

theorem ensures_checked_look {f : Tree → Except Errno α} {next : α → Script Tree ε β} (hI : I tree)
    (herror : ∀ e, Q (.error e) tree) (hok : ∀ a, f tree = .ok a → (next a).Ensures I Q tree) :
    (checked wrap (k.look call p f) >>= next).Ensures I Q tree :=
  ensures_checked_bind (ensures_look_bind (fun e _ => ⟨hI, herror (wrap e)⟩) hok)

theorem ensures_checked_change {f : Tree → Except Errno Tree} {next : Unit → Script Tree ε β} (hI : I tree)
    (herror : ∀ e, Q (.error e) tree) (hok : ∀ tree', f tree = .ok tree' → (next ()).Ensures I Q tree') :
    (checked wrap (k.change call p f) >>= next).Ensures I Q tree :=
  ensures_checked_bind (ensures_change_bind hI (fun e _ => ⟨hI, herror (wrap e)⟩) hok)

/-- The tree with other bytes in the file at the path. -/
def with_content (tree : Tree) (p : Path) (file : Regular) (bytes : List UInt8) : Tree :=
  Function.update tree p (some (.regular { file with content := bytes }))

theorem on_file_eq {file : Regular} {f : Regular → Regular} (hfile : tree p = some (.regular file)) :
    on_file p f tree = .ok (Function.update tree p (some (.regular (f file)))) := by
  rw [on_file, hfile]

theorem owned_id_self (id before : OwnerId) : owned_id (some id.val) before = id := dif_neg id.2

/-- A file gets the id that `chown` is given, save for the one that stands for none. -/
theorem owned_id_eq_iff {n : UInt32} {id : OwnerId} : (owned_id (some n) id).val = n ↔ n ≠ KEEP_ID := by
  constructor
  · intro hid
    exact hid ▸ (owned_id (some n) id).2
  · exact fun hne => congrArg Subtype.val (owned_id_self ⟨n, hne⟩ id)

theorem lstat_not_found {refusal : Option String}
    (h : Fails refusal ((tree p).elim (.error .NotFound) .ok : Except Errno Entry) .NotFound) : tree p = none := by
  obtain hnone | ⟨text, -, htext⟩ := h
  · cases hp : tree p with
    | none => rfl
    | some entry => rw [hp] at hnone; cases hnone
  · cases htext

theorem lstat_found {entry : Entry} (h : (tree p).elim (.error .NotFound) .ok = (.ok entry : Except Errno Entry)) :
    tree p = some entry := by
  cases hp : tree p with
  | none => rw [hp] at h; cases h
  | some entry' => rw [hp] at h; exact congrArg some (Except.ok.inj h)

theorem moved_ok {target : Path} {entry : Entry} {tree' : Tree} (hentry : tree p = some entry)
    (h : moved p target tree = .ok tree') : tree' = Function.update (Function.update tree p none) target (some entry) := by
  rw [moved, hentry] at h
  cases htarget : tree target with
  | none => rw [htarget] at h; exact (Except.ok.inj h).symm
  | some old =>
    rw [htarget] at h
    cases old with
    | directory => cases h
    | _ => exact (Except.ok.inj h).symm

theorem removed_not_found {refusal : Option String} (h : Fails refusal (removed p tree) .NotFound) : tree p = none := by
  obtain hnone | ⟨text, -, htext⟩ := h
  · rw [removed] at hnone
    split at hnone
    · next h => exact h
    · cases hnone
    · cases hnone
  · cases htext

theorem removed_ok {tree' : Tree} (h : removed p tree = .ok tree') : tree' = Function.update tree p none := by
  rw [removed] at h
  split at h
  · cases h
  · cases h
  · exact (Except.ok.inj h).symm

/-- A write, complete or not, changes the content of the file only. -/
theorem ensures_write_all_bind {file : Regular} {bytes : List UInt8} {next : Except Errno Unit → Script Tree ε β}
    (hfile : tree p = some (.regular file)) (hI : I tree) (herror : ∀ e, (next (.error e)).Ensures I Q tree)
    (hpart : ∀ part, I (with_content tree p file part) ∧ ∀ e, (next (.error e)).Ensures I Q (with_content tree p file part))
    (hok : (next (.ok ())).Ensures I Q (with_content tree p file bytes)) :
    (k.write_all p bytes >>= next).Ensures I Q tree := by
  rw [write_all, bind_assoc]
  refine ensures_change_bind hI (fun e _ => herror e) fun tree' htree' => ?_
  rw [on_file_eq hfile] at htree'
  obtain rfl := Except.ok.inj htree'
  obtain ⟨hIpart, herror'⟩ := hpart (bytes.take k.written)
  refine ensures_change_bind hIpart (fun e _ => herror' e) fun tree' htree' => ?_
  have hthere : with_content tree p file (bytes.take k.written) p =
      some (.regular { file with content := bytes.take k.written }) := Function.update_self ..
  have hdone : on_file p (fun file => { file with content := bytes }) (with_content tree p file (bytes.take k.written)) =
      .ok (with_content tree p file bytes) := by
    rw [on_file_eq hthere, with_content, Function.update_idem, with_content]
  obtain rfl := Except.ok.inj (hdone.symm.trans htree')
  exact hok

theorem ensures_checked_write_all {file : Regular} {bytes : List UInt8} {next : Unit → Script Tree ε β}
    (hfile : tree p = some (.regular file)) (hI : I tree) (herror : ∀ e, Q (.error e) tree)
    (hpart : ∀ part, I (with_content tree p file part) ∧ ∀ e, Q (.error e) (with_content tree p file part))
    (hok : (next ()).Ensures I Q (with_content tree p file bytes)) :
    (checked wrap (k.write_all p bytes) >>= next).Ensures I Q tree :=
  ensures_checked_bind (ensures_write_all_bind hfile hI (fun e => ⟨hI, herror (wrap e)⟩)
    (fun part => ⟨(hpart part).1, fun e => ⟨(hpart part).1, (hpart part).2 (wrap e)⟩⟩) hok)

/-- Directories have been made where nothing was. -/
def Grown (dirs : List Path) (before after : Tree) : Prop :=
  ∀ p, after p = before p ∨ p ∈ dirs ∧ before p = none ∧ after p = some .directory

theorem Grown.refl (dirs : List Path) (tree : Tree) : Grown dirs tree tree := fun _ => .inl rfl

theorem Grown.mkdir {dirs : List Path} {before after : Tree} {dir : Path} (h : Grown dirs before after) (hdir : dir ∈ dirs)
    (hnone : after dir = none) : Grown dirs before (Function.update after dir (some .directory)) := by
  intro p
  by_cases hp : p = dir
  · subst hp
    obtain hsame | ⟨-, -, hmade⟩ := h p
    · exact .inr ⟨hdir, hsame.symm.trans hnone, Function.update_self ..⟩
    · rw [hnone] at hmade
      cases hmade
  · rw [Function.update_of_ne hp]
    exact h p

/-- Whatever happens to it, making directories only makes directories. -/
theorem ensures_checked_make_dirs {dirs all : List Path} {before : Tree} {next : Unit → Script Tree ε β} (hdirs : dirs ⊆ all)
    (htree : Grown all before tree) (hI : ∀ t, Grown all before t → I t ∧ ∀ e, Q (.error e) t)
    (hok : ∀ t, Grown all before t → (next ()).Ensures I Q t) :
      (checked wrap (k.make_dirs dirs) >>= next).Ensures I Q tree := by
  obtain ⟨hItree, herror⟩ := hI tree htree
  refine ensures_checked_bind ?_
  induction dirs generalizing tree with
  | nil => exact hok tree htree
  | cons dir dirs ih =>
    obtain ⟨hdir, hrest⟩ := List.cons_subset.mp hdirs
    rw [make_dirs, bind_assoc, ensures_get_bind]
    by_cases hthere : tree dir = some .directory
    · rw [if_pos hthere]
      exact ih hrest htree hItree herror
    · rw [if_neg hthere, bind_assoc]
      refine ensures_change_bind hItree (fun e _ => ⟨hItree, herror _⟩) fun tree' htree' => ?_
      cases hnone : tree dir with
      | some entry => rw [hnone] at htree'; cases htree'
      | none =>
        rw [hnone] at htree'
        obtain rfl := Except.ok.inj htree'
        have hgrown := htree.mkdir hdir hnone
        exact ih hrest hgrown (hI _ hgrown).1 (hI _ hgrown).2

end Rules

end Kernel

end posix
