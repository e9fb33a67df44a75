import Iac.Core.Posix
import Iac.Providers.File.Spec
import Iac.Providers.Lifecycle

open iac_core iac_core.executor posix posix.Kernel serde_json Script

namespace iac_core.executor

def StepResult.skipped (message : String) : StepResult := ⟨.Skipped, message, .null, none⟩

end iac_core.executor

namespace iac_providers.file

inductive FileAction where
  | Write
  | Delete
  deriving DecidableEq, Repr

def FileAction.as_str : FileAction → String
  | .Write => "file.write"
  | .Delete => "file.delete"

def FileAction.parse : String → Except Error FileAction
  | "file.write" => .ok .Write
  | "file.delete" => .ok .Delete
  | other => .error (.Provider "FileAction" ("unknown step action " ++ str.debug other))

def BACKUP_FILENAME : List Char := "backup.bin".toList

def provider_error (message : String) : Error := .Provider "file" message

def io_error (p : Path) (e : Errno) : Error := .Io (String.ofList p) e.to_string

/-- `Path::parent` of a path in normal form. -/
def parent (p : Path) : Option Path :=
  if path.resolve p = [] then none else some (path.render (path.resolve p).dropLast)

/-- `Path::file_name` of a path in normal form. -/
def file_name (p : Path) : Option (List Char) := (path.resolve p).getLast?

/-- `format!("0{mode:o}")`. -/
def octal (mode : Nat) : String := String.ofList ('0' :: Nat.toDigits 8 mode)

/-- What `parse_mode` makes of a mode without its leading zeros. -/
def parse_octal (text : String) : Option Nat := (parse_mode (text.toList.dropWhile (· = '0'))).toOption

def as_u32 : Value → Option UInt32
  | .number (.PosInt n) => if n < num.u32_bound then some (UInt32.ofNat n) else none
  | _ => none

def as_bool : Value → Option Bool
  | .bool b => some b
  | _ => none

def of_u32 (n : UInt32) : Value := of_nat n.toNat

def file_kind_label : Entry → String
  | .regular _ => "regular"
  | .directory => "directory"
  | .symlink => "symlink"
  | .other => "other"

section Operations

variable (k : Kernel) (sha256_hex : List UInt8 → String)

def read_to_string (tree : Tree) (p : Path) : Except String String :=
  match k.refuses .openat p tree, tree p with
  | some text, _ => .error text
  | none, none => .error Errno.NotFound.to_string
  | none, some (.regular file) =>
    match String.fromUTF8? ⟨file.content.toArray⟩ with
    | some text => .ok text
    | none => .error "stream did not contain valid UTF-8"
  | none, some _ => .error "Is a directory (os error 21)"

/-- A number, or the number that the database has for the name. -/
def resolve_id (database noun label : String) (tree : Tree) (spec : String) : Except String UInt32 :=
  match num.from_str_radix 10 num.u32_bound spec.toList with
  | some n => .ok (UInt32.ofNat n)
  | none => do
    let content ← read_to_string k tree database.toList
    match ((str.lines content.toList).map (·.splitOn ':')).find? fun parts => parts.getD 0 [] = spec.toList with
    | none => .error (noun ++ " " ++ str.debug spec ++ " not found in " ++ database)
    | some parts =>
      match num.from_str_radix 10 num.u32_bound (parts.getD 2 []) with
      | some n => .ok (UInt32.ofNat n)
      | none => .error ("bad " ++ label ++ " for " ++ spec ++ ": " ++ num.parse_int_error 10 num.u32_bound (parts.getD 2 []))

def resolve_uid : Tree → String → Except String UInt32 := resolve_id k "/etc/passwd" "user" "uid"

def resolve_gid : Tree → String → Except String UInt32 := resolve_id k "/etc/group" "group" "gid"

/-- What is known of a regular file. -/
def facts_of (file : Regular) : List (String × Value) :=
  [("kind", .string "regular"), ("content_sha256", .string (sha256_hex file.content)), ("size", of_nat file.content.length),
    ("mode", .string (octal file.mode)), ("uid", of_u32 file.uid), ("gid", of_u32 file.gid)]

def observe (spec : FileSpec) : Script Tree Error ObservedState := do
  match ← k.lstat spec.path.toList with
  | .error .NotFound => return ⟨false, .null, []⟩
  | .error e => fail (io_error spec.path.toList e)
  | .ok (.regular found) =>
    let file ← checked (io_error spec.path.toList) (k.open_file spec.path.toList)
    let found := { found with content := file.content }
    return {
      present := true
      spec := json [("path", .string spec.path), ("state", .string "present"), ("mode", .string (octal found.mode)),
        ("owner_uid", of_u32 found.uid), ("group_gid", of_u32 found.gid),
        ("content_sha256", .string (sha256_hex found.content)), ("size", of_nat found.content.length)]
      facts := facts_of sha256_hex found }
  | .ok entry =>
    return ⟨true, .null, [("kind", .string (file_kind_label entry)), ("present_but_not_regular", .bool true)]⟩

/-- A change of the attribute, with the reason for it. -/
abbrev Finding := Option FieldChange × Option String

def content_finding (spec : FileSpec) (facts : Value) : Finding :=
  match spec.content with
  | none => (none, none)
  | some want =>
    let want_sha := sha256_hex want.toUTF8.data.toList
    let have_sha := ((facts.get "content_sha256").bind Value.as_str).getD ""
    if want_sha ≠ have_sha then
      (some ⟨"content_sha256", some (.string have_sha), some (.string want_sha), false⟩, some "content sha256 differs")
    else (none, none)

def mode_finding (spec : FileSpec) (facts : Value) : Finding :=
  match spec.parsed_mode with
  | none => (none, none)
  | some want =>
    let found := (parse_octal (((facts.get "mode").bind Value.as_str).getD "")).getD 0
    if want ≠ found then
      (some ⟨"mode", some (.string (octal found)), some (.string (octal want)), false⟩,
        some ("mode " ++ octal found ++ " -> " ++ octal want))
    else (none, none)

/-- The owner and the group are compared when their names can be resolved. -/
def id_finding (field label : String) (resolve : String → Except String UInt32) (wanted : Option String) (facts : Value) :
    Finding :=
  match wanted with
  | none => (none, none)
  | some name =>
    match resolve name with
    | .error e => (none, some ("could not resolve " ++ field ++ " " ++ str.debug name ++ ": " ++ e))
    | .ok want =>
      let found := ((facts.get label).bind as_u32).getD 0
      if want ≠ found then
        (some ⟨field, some (of_u32 found), some (.string name), false⟩,
          some (field ++ " " ++ label ++ " " ++ toString found.toNat ++ " -> " ++ toString want.toNat))
      else (none, none)

def owner_finding (tree : Tree) (spec : FileSpec) : Value → Finding := id_finding "owner" "uid" (resolve_uid k tree) spec.owner

def group_finding (tree : Tree) (spec : FileSpec) : Value → Finding := id_finding "group" "gid" (resolve_gid k tree) spec.group

def findings (tree : Tree) (spec : FileSpec) (facts : Value) : List Finding :=
  [content_finding sha256_hex spec facts, mode_finding spec facts, owner_finding k tree spec facts,
    group_finding k tree spec facts]

/-- The names are resolved on the host, as it is when the diff is made. -/
def diff (tree : Tree) (spec : FileSpec) (observed : ObservedState) : Diff :=
  match spec.state, observed.present with
  | .Absent, false => .no_change
  | .Absent, true =>
    ⟨.Update, [⟨"state", some (.string "present"), some (.string "absent"), false⟩], ["file should be absent but exists"], true⟩
  | .Present, false =>
    ⟨.Create, [⟨"state", some (.string "absent"), some (.string "present"), false⟩],
      ["file should be present but is missing"], true⟩
  | .Present, true =>
    let found := findings k sha256_hex tree spec (.object observed.facts)
    let changes := found.filterMap Prod.fst
    if changes.isEmpty then .no_change else ⟨.Update, changes, found.filterMap Prod.snd, true⟩

def plan (id : Ulid) (spec : FileSpec) (diff : Diff) : List Step :=
  let step (action : FileAction) (verb : String) :=
    [Step.new id action.as_str (verb ++ " " ++ spec.path) (json [("path", .string spec.path)])]
  match diff.kind, spec.state with
  | .NoChange, _ => []
  | .Create, .Present | .Update, .Present => step .Write "write"
  | .Create, .Absent | .Update, .Absent | .Delete, _ => step .Delete "delete"

/-- The name of the file next to the target that becomes the target. -/
def tmp_name (basename : List Char) (ulid : Ulid) : List Char :=
  '.' :: (basename ++ ".iac.".toList ++ (ulid_text ulid).toList ++ ".tmp".toList)

/-- No symbolic link is followed, and no directory is replaced. -/
def check_target (p : Path) : Script Tree Error Unit := do
  match ← k.lstat p with
  | .ok .symlink =>
    fail (provider_error ("refusing to write through symlink at " ++ String.ofList p ++
      ": remove the symlink first or change the manifest path. A symlink at this location often signals an " ++
      "attacker-planted redirect aimed at privilege escalation."))
  | .ok .directory => fail (provider_error (String.ofList p ++ " is a directory, not a file — refusing to overwrite"))
  | .ok _ | .error .NotFound => return ()
  | .error e => fail (io_error p e)

/-- The attributes are changed before the file has its name. -/
def set_attributes (tmp : Path) (mode : Option Nat) (uid gid : Option UInt32) : Script Tree Error Unit := do
  if let some mode := mode then
    checked (io_error tmp) (k.chmod tmp mode)
  if uid.isSome || gid.isSome then
    checked (io_error tmp) (k.chown tmp uid gid)

def write_atomic_unix (ulid : Ulid) (p parent : Path) (content : List UInt8) (mode : Option Nat) (uid gid : Option UInt32) :
    Script Tree Error Unit := do
  match file_name p with
  | none => fail (provider_error ("path has no file name: " ++ String.ofList p))
  | some basename =>
    checked (io_error parent) (k.open_directory parent)
    check_target k p
    let tmp := path.join parent (tmp_name basename ulid)
    checked (io_error tmp) (k.create tmp (mode_of 0o600))
    checked (io_error tmp) (k.write_all tmp content)
    checked (io_error tmp) (k.sync_all tmp)
    set_attributes k tmp mode uid gid
    checked (io_error p) (k.rename tmp p)
    return ()

/-- The id of the name, if there is one. -/
def resolve_name (field : String) (resolve : Tree → String → Except String UInt32) (name : Option String) :
    Script Tree Error (Option UInt32) := do
  let tree ← get
  match name with
  | none => return none
  | some name =>
    match resolve tree name with
    | .ok id => return some id
    | .error e => fail (provider_error (field ++ " resolution failed: " ++ e))

/-- `create_dir_all` of a directory that is not there. -/
def ensure_dir (dir : Path) : Script Tree Error Unit := do
  let tree ← get
  if (tree dir).isNone then
    checked (io_error dir) (k.make_dirs (Kernel.ancestors dir))

def bytes_of (content : Option String) : List UInt8 := (content.getD "").toUTF8.data.toList

def write (ulid : Ulid) (spec : FileSpec) : Script Tree Error StepResult := do
  let p := spec.path.toList
  match parent p with
  | none => fail (provider_error ("path has no parent: " ++ spec.path))
  | some parent =>
    ensure_dir k parent
    let uid ← resolve_name "owner" (resolve_uid k) spec.owner
    let gid ← resolve_name "group" (resolve_gid k) spec.group
    let content := bytes_of spec.content
    write_atomic_unix k ulid p parent content spec.parsed_mode uid gid
    return { StepResult.ok ("wrote " ++ spec.path ++ " (" ++ toString content.length ++ " bytes)") with
      data := json [("path", .string spec.path), ("content_sha256", .string (sha256_hex content)),
        ("bytes", of_nat content.length)] }

def delete (p : Path) : Script Tree Error StepResult := do
  match ← k.unlink p with
  | .ok () => return .ok ("deleted " ++ String.ofList p)
  | .error .NotFound => return .skipped (String.ofList p ++ " already absent")
  | .error e => fail (io_error p e)

/-- The checkpoint of a file, or of its absence. -/
def checkpoint (p : Path) : Option Regular → Value
  | none => json [("existed", .bool false), ("path", .string (String.ofList p))]
  | some file =>
    json [("existed", .bool true), ("path", .string (String.ofList p)), ("backup", .string (String.ofList BACKUP_FILENAME)),
      ("mode", .string (octal file.mode)), ("uid", of_u32 file.uid), ("gid", of_u32 file.gid),
      ("size", of_nat file.content.length)]

def backup (p workspace : Path) : Script Tree Error Value := do
  checked (io_error workspace) (k.make_dirs (Kernel.ancestors workspace))
  match ← k.lstat p with
  | .error .NotFound => return checkpoint p none
  | .error e => fail (io_error p e)
  | .ok (.regular file) =>
    let copy := path.join workspace BACKUP_FILENAME
    checked (io_error copy) (k.copy p copy)
    return checkpoint p (some file)
  | .ok _ => fail (provider_error ("refusing to back up non-regular file " ++ String.ofList p))

/-- The name of the copy must not lead out of the workspace. -/
def escapes (name : List Char) : Bool := name.contains '/' || name.contains '\\' || name.tails.any ['.', '.'].isPrefixOf

/-- What is put back of the attributes; a failure is not looked at. -/
def put_back (tmp : Path) (data : Value) : Script Tree Error Unit := do
  if let some mode := ((data.get "mode").bind Value.as_str).bind parse_octal then
    let _ ← k.chmod tmp mode
  let uid := (data.get "uid").bind as_u32
  let gid := (data.get "gid").bind as_u32
  if uid.isSome || gid.isSome then
    let _ ← k.chown tmp uid gid

def restore (ulid : Ulid) (target : Path) (data : Value) (workspace : Path) : Script Tree Error Unit := do
  let stored := (data.get "path").bind Value.as_str
  if stored.any fun stored => stored.toList != target then
    fail (provider_error ("checkpoint path mismatch: stored=" ++ str.debug (stored.getD "") ++ " but resource path=" ++
      str.debug (String.ofList target) ++ " (refusing to restore — possible tampered checkpoint)"))
  else if !((data.get "existed").bind as_bool).getD false then
    match ← k.unlink target with
    | .ok () | .error .NotFound => return ()
    | .error e => fail (io_error target e)
  else
    let name := (((data.get "backup").bind Value.as_str).map String.toList).getD BACKUP_FILENAME
    if escapes name then
      fail (provider_error ("checkpoint backup name " ++ str.debug (String.ofList name) ++ " contains path separators"))
    else
      let copy := path.join workspace name
      let tree ← get
      if (tree copy).isNone then fail (provider_error ("backup file " ++ String.ofList copy ++ " not found"))
      else
        match parent target with
        | none => fail (provider_error ("path has no parent: " ++ String.ofList target))
        | some parent =>
          ensure_dir k parent
          let tmp := path.join parent (tmp_name ((file_name target).getD "tmp".toList) ulid)
          checked (io_error tmp) (k.copy copy tmp)
          put_back k tmp data
          checked (io_error target) (k.rename tmp target)
          return ()

def apply (ulid : Ulid) (spec : FileSpec) (step : Step) : Script Tree Error StepResult :=
  match FileAction.parse step.action with
  | .ok .Write => write k sha256_hex ulid spec
  | .ok .Delete => delete k spec.path.toList
  | .error e => fail e

def verify (spec : FileSpec) : Script Tree Error VerifyOutcome := do
  let observed ← observe k sha256_hex spec
  let tree ← get
  let diff := diff k sha256_hex tree spec observed
  if diff.is_change then
    return .Mismatch (if diff.changes.isEmpty then [⟨"state", none, none, false⟩] else diff.changes)
  else return .Match

/-- The path of the spec, else the one of the checkpoint. -/
def rollback (ulid : Ulid) (resource : Resource) (data : Value) (workspace : Path) : Script Tree Error Unit :=
  let target_from_spec := (parse_spec resource).toOption.map FileSpec.path
  let target_from_checkpoint := (data.get "path").bind Value.as_str
  match target_from_spec.or target_from_checkpoint with
  | some target => restore k ulid target.toList data workspace
  | none => fail (provider_error "rollback: neither resource spec nor checkpoint carried a path")

end Operations

end iac_providers.file
