import Iac.Collections.Script
import Iac.Controlplane.Secrets
import Iac.Controlplane.Store.Agents
import Iac.Controlplane.Store.Dispatch
import Iac.Core.Dalek
import Iac.Core.Protocol

open Script iac_core.protocol

namespace iac_controlplane.signing

/-- The directory `signing-keys`: the trimmed text of its file `active` and the
bytes of its `.bin` files, by the key id in their name. -/
structure KeysDir where
  path : String
  active : Option String
  files : List (String × List UInt8)

/-- The secrets by key id. A key is accepted as long as it is in the set. -/
structure SignerState where
  keys : List (String × List UInt8)
  active_id : String

def SignerState.try_active_entry (state : SignerState) : Except String (List UInt8) :=
  match state.keys.lookup state.active_id with
  | some secret => .ok secret
  | none =>
    .error ("internal invariant violated: active key " ++ state.active_id ++ " not in key set (size=" ++
      toString state.keys.length ++ ")")

def load_set (dir : KeysDir) : Except String SignerState :=
  match dir.active with
  | none => .error ("reading " ++ dir.path ++ "/active")
  | some active_id =>
    if active_id.isEmpty then .error (dir.path ++ "/active is empty")
    else
      match dir.files.find? fun file => file.2.length != 32 with
      | some file =>
        .error (dir.path ++ "/" ++ file.1 ++ ".bin has " ++ toString file.2.length ++ " bytes, expected 32")
      | none =>
        if (dir.files.lookup active_id).isSome then .ok { keys := dir.files, active_id }
        else .error ("active pointer " ++ active_id ++ " but no matching key in " ++ dir.path)

/-- The active key is in the set that `load_set` makes. -/
theorem active_entry_of_load_set {dir : KeysDir} {state : SignerState} (h : load_set dir = .ok state) :
    ∃ secret, state.keys.lookup state.active_id = some secret := by
  rw [load_set] at h
  split at h
  · cases h
  · split at h
    · cases h
    · split at h
      · cases h
      · split at h
        · rename_i hthere
          obtain rfl := Except.ok.inj h
          exact Option.isSome_iff_exists.mp hthere
        · cases h

/-- The file that `rename` puts in the place of another one of the name. -/
def KeysDir.write_key_file (dir : KeysDir) (key_id : String) (secret : List UInt8) : KeysDir :=
  { dir with files := (key_id, secret) :: dir.files.filter fun file => file.1 != key_id }

def KeysDir.write_active_pointer (dir : KeysDir) (key_id : String) : KeysDir :=
  { dir with active := some key_id }

def KeysDir.remove_file (dir : KeysDir) (key_id : String) : KeysDir :=
  { dir with files := dir.files.filter fun file => file.1 != key_id }

/-- The signature of the envelope under the active key. -/
def SignerState.sign (crates : Crates) (dalek : Dalek) (state : SignerState) (agent_id : String) (env : AssignmentEnvelope) :
    Except String String := do
  let secret ← state.try_active_entry
  return dalek.encode (dalek.sign secret (env.message crates agent_id))

def SignerState.key_id (state : SignerState) : String := state.active_id

/-- The directory of the server's state, as far as the signer uses it. -/
structure StateDir where
  path : String
  /-- The directory itself is there. -/
  present : Bool
  /-- The bytes of `signing-key.bin`. -/
  legacy_secret : Option (List UInt8)
  /-- The trimmed text of `signing-key.id`, or none where its bytes are no text. -/
  legacy_id : Option (Option String)
  keys_dir : Option KeysDir
  /-- Where a key id has a slash, the directory that its file would be in is there. -/
  outside : Bool

/-- A key as the random source and the clock give it. -/
structure NewKey where
  key_id : String
  secret : List UInt8
  named : key_id ≠ ""
  plain : '/' ∉ key_id.toList
  length : secret.length = 32

def StateDir.update (disk : StateDir) (f : KeysDir → KeysDir) : StateDir :=
  { disk with keys_dir := disk.keys_dir.map f }

def StateDir.create_keys_dir (disk : StateDir) : StateDir :=
  { disk with keys_dir := some (disk.keys_dir.getD ⟨disk.path ++ "/signing-keys", none, []⟩) }

/-- Writes a file that `load_set` skips: a temporary one, its permissions or the marker. -/
def put_skipped : Script StateDir String Unit := put id

def write_key_file (key_id : String) (bytes : List UInt8) : Script StateDir String Unit := do
  let disk ← get
  if '/' ∈ key_id.toList then
    if disk.outside then
      put_skipped
      put_skipped
      put_skipped
    else fail ("writing " ++ key_id)
  else
    put_skipped
    put_skipped
    put fun disk => disk.update fun dir => dir.write_key_file key_id bytes

def write_active_pointer (key_id : String) : Script StateDir String Unit := do
  put_skipped
  put fun disk => disk.update fun dir => dir.write_active_pointer key_id

def generate_and_persist (new : NewKey) : Script StateDir String String := do
  write_key_file new.key_id new.secret
  return new.key_id

/-- `load_set`, with the context that the caller gives its error. -/
def reload (context : Option String) : Script StateDir String SignerState := do
  let disk ← get
  match disk.keys_dir with
  | none => fail (context.getD ("reading " ++ disk.path ++ "/signing-keys/active"))
  | some dir =>
    match load_set dir with
    | .ok state => return state
    | .error e => fail (context.getD e)

def create_state_dir : Script StateDir String Unit := do
  let disk ← get
  if disk.present then return ()
  else put fun disk => { disk with present := true }

/-- The legacy key in the new layout; the legacy files stay. -/
def migrate (secret_bytes : List UInt8) (id_text : Option String) : Script StateDir String SignerState := do
  put StateDir.create_keys_dir
  if secret_bytes.length ≠ 32 then
    fail ("legacy signing-key.bin has " ++ toString secret_bytes.length ++ " bytes, expected 32")
  else
    match id_text with
    | none => fail "reading legacy signing-key.id"
    | some key_id =>
      write_key_file key_id secret_bytes
      write_active_pointer key_id
      reload none

def initialize_keys (new : NewKey) : Script StateDir String SignerState := do
  put StateDir.create_keys_dir
  let key_id ← generate_and_persist new
  write_active_pointer key_id
  let state ← reload none
  match state.try_active_entry with
  | .error e => fail e
  | .ok _ =>
    put_skipped
    return state

def load_or_create (new : NewKey) : Script StateDir String SignerState := do
  create_state_dir
  let disk ← get
  match disk.keys_dir with
  | some dir => reload (some ("loading key set from " ++ dir.path))
  | none =>
    match disk.legacy_secret, disk.legacy_id with
    | some secret_bytes, some id_text => migrate secret_bytes id_text
    | _, _ => initialize_keys new

/-- Ends with the set that the signer holds from then on. -/
def rotate (new : NewKey) : Script StateDir String SignerState := do
  let new_id ← generate_and_persist new
  write_active_pointer new_id
  reload (some "reloading key set after rotate")

/-- Ends with the set that the signer holds from then on, and whether the key was in it. -/
def retire (state_snapshot : SignerState) (key_id : String) : Script StateDir String (SignerState × Bool) := do
  if state_snapshot.active_id = key_id then
    fail ("cannot retire active key " ++ key_id ++ "; rotate first to elect a new active")
  else if (state_snapshot.keys.lookup key_id).isNone then return (state_snapshot, false)
  else
    let disk ← get
    if disk.keys_dir.any fun dir => (dir.files.lookup key_id).isSome then
      put fun disk => disk.update fun dir => dir.remove_file key_id
    let new_state ← reload none
    return (new_state, true)

/-- A call on the signer; `load_or_create` starts the process. -/
inductive KeyCall where
  | load_or_create (new : NewKey)
  | rotate (new : NewKey)
  | retire (key_id : String)

/-- A call, and after how many of its writes the process crashes if it does. -/
structure Event where
  call : KeyCall
  crash : Option Nat

/-- The disk, and the set in the memory of the process while it runs. -/
structure Server where
  disk : StateDir
  memory : Option SignerState

/-- What is in memory after a call that had `before` there. -/
def settle {α : Type} (before : Option SignerState) (stored : α → SignerState) : Option (Except String α) → Option SignerState
  | some (.ok a) => some (stored a)
  | some (.error _) => before
  | none => none

def Server.after (server : Server) (event : Event) : Server :=
  match event.call, server.memory with
  | .load_or_create new, _ =>
    let (result, disk) := (load_or_create new).outcome event.crash server.disk
    ⟨disk, settle none id result⟩
  | .rotate new, some state =>
    let (result, disk) := (rotate new).outcome event.crash server.disk
    ⟨disk, settle (some state) id result⟩
  | .retire key_id, some state =>
    let (result, disk) := (retire state key_id).outcome event.crash server.disk
    ⟨disk, settle (some state) Prod.fst result⟩
  | _, none => server

end iac_controlplane.signing

open iac_controlplane.secrets iac_controlplane.signing iac_controlplane.store iac_core.protocol sql

namespace iac_controlplane.api

/-- The payload with its secret references resolved, when the server has a registry. -/
def resolve_payload (registry : Option SecretRegistry) (payload : AssignmentPayload) : Except ApiError AssignmentPayload :=
  match registry with
  | none => .ok payload
  | some registry => do
    let resources ← payload.resources.mapM (resolve_resource registry)
    return ⟨resources⟩

def resolve_envelope (registry : Option SecretRegistry) (env : AssignmentEnvelope) : Except ApiError AssignmentEnvelope := do
  let payload ← resolve_payload registry env.payload
  return { env with payload }

def signing_failed (e : String) : ApiError := .Internal ("signing failed: " ++ e)

/-- The loop body of `list_assignments` while no rotation goes on. -/
def build_envelope (crates : Crates) (dalek : Dalek) (signer : SignerState) (registry : Option SecretRegistry)
    (agent_id : String) (env : AssignmentEnvelope) : Except ApiError AssignmentEnvelope := do
  let env ← resolve_envelope registry env
  let signature ← (signer.sign crates dalek agent_id env).mapError signing_failed
  return { env with signature, key_id := signer.key_id }

/-- Each of the store's functions is a transaction of its own. -/
def list_assignments (crates : Crates) (dalek : Dalek) (parse : String → Option jiff.Timestamp) (signer : SignerState)
    (registry : Option SecretRegistry) (lease : Int) (now : jiff.Timestamp) (agent_id token : String) (db : Store) :
    Except ApiError (List AssignmentEnvelope) × Store :=
  match ((authenticate crates parse now agent_id token).exec db).1 with
  | .error e => (.error e, db)
  | .ok _ =>
    match (fetch_pending_assignments crates lease now agent_id).exec db with
    | (.error e, db) => (.error e, db)
    | (.ok items, db) =>
      match items.mapM (build_envelope crates dalek signer registry agent_id) with
      | .ok items => (.ok items, db)
      | .error e => (.error e, ((revert_assignment_claims (items.map AssignmentEnvelope.assignment_id)).exec db).2)

theorem list_assignments_ok {crates : Crates} {dalek : Dalek} {parse : String → Option jiff.Timestamp} {signer : SignerState}
    {registry : Option SecretRegistry} {lease : Int} {now : jiff.Timestamp} {agent_id token : String} {db : Store}
    {items built : List AssignmentEnvelope}
    (hauthenticated : ((authenticate crates parse now agent_id token).exec db).1.isOk = true)
    (hfetched : ((fetch_pending_assignments crates lease now agent_id).exec db).1 = .ok items)
    (hbuilt : items.mapM (build_envelope crates dalek signer registry agent_id) = .ok built) :
    (list_assignments crates dalek parse signer registry lease now agent_id token db).1 = .ok built := by
  rw [list_assignments]
  cases hagent : ((authenticate crates parse now agent_id token).exec db).1 with
  | error e => simp [hagent, Except.isOk, Except.toBool] at hauthenticated
  | ok agent =>
    rcases hexec : (fetch_pending_assignments crates lease now agent_id).exec db with ⟨result, claimed⟩
    rw [hexec] at hfetched
    obtain rfl : result = .ok items := hfetched
    simp [hbuilt]

end iac_controlplane.api
