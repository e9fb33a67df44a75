import Iac.Collections.Run
import Iac.Controlplane.Store.Users

open iac_controlplane iac_controlplane.store

namespace iac_cli.credentials

structure Entry where
  username : String
  token : String
  expires_at : String
  saved_at : String
  roles : List String := []
  deriving DecidableEq, Repr

/-- The entries by server URL, in the order in which they were first inserted. -/
structure CredentialStore where
  version : Nat := 1
  credentials : List (String × Entry) := []

/-- `IndexMap::insert`. -/
def insert (key : String) (entry : Entry) : List (String × Entry) → List (String × Entry)
  | [] => [(key, entry)]
  | (k, e) :: rest => if k = key then (key, entry) :: rest else (k, e) :: insert key entry rest

def normalize (server_url : String) : String :=
  String.ofList (server_url.toList.rdropWhile (· == '/'))

/-- The entry under a normalized URL. -/
def CredentialStore.get (store : CredentialStore) (key : String) : Option Entry :=
  store.credentials.lookup key

def CredentialStore.lookup (store : CredentialStore) (server_url : String) : Option Entry :=
  store.get (normalize server_url)

def CredentialStore.upsert (store : CredentialStore) (server_url : String) (entry : Entry) : CredentialStore :=
  { store with credentials := insert (normalize server_url) entry store.credentials }

theorem get_upsert (store : CredentialStore) (server_url key : String) (entry : Entry) :
    (store.upsert server_url entry).get key = if key = normalize server_url then some entry else store.get key := by
  simp only [CredentialStore.get, CredentialStore.upsert]
  generalize normalize server_url = inserted
  induction store.credentials with
  | nil =>
    by_cases h : key = inserted
    · simp [insert, h]
    · simp [insert, h]
  | cons pair rest ih =>
    obtain ⟨k, e⟩ := pair
    rw [insert]
    by_cases hk : k = inserted
    · subst hk
      by_cases h : key = k
      · simp [h]
      · simp [h, List.lookup_cons, beq_false_of_ne h]
    · rw [if_neg hk, List.lookup_cons, List.lookup_cons, ih]
      by_cases h : key = k
      · simp [h, hk]
      · simp [beq_false_of_ne h]

def REFRESH_WINDOW_SECS : Int := 60 * 60

/-- `TOKEN_TTL_SECS` of the server. -/
def TOKEN_TTL_SECS : Int := 24 * 60 * 60

/-- Whether the rest of the entry's life is shorter than the window; an expiry that is no timestamp is taken as it is. -/
def needs_refresh (parse : String → Option jiff.Timestamp) (now : jiff.Timestamp) (entry : Entry) : Bool :=
  (parse entry.expires_at).any fun exp => decide (exp.nanos - now.nanos < REFRESH_WINDOW_SECS * jiff.nanos_per_second)

/-- What a process was started for: `iac login`, or a command that resolves the token of a server. -/
inductive Command where
  | login (server_url user password : String)
  | resolve (server_url : String) (iac_admin_token : Option String)

/-- How far a process has come. `saving` has read the file as `store` and has an
entry to put into it, that of a login or the one that `refreshed` was exchanged for. -/
inductive Proc where
  | started (command : Command)
  | logged_in (server_url : String) (entry : Entry)
  | loaded (server_url : String) (store : CredentialStore) (entry : Entry)
  | refreshing (server_url : String) (store : CredentialStore) (entry : Entry)
  | saving (server_url : String) (store : CredentialStore) (entry : Entry) (refreshed : Option Entry)
  | finished

/-- What `resolve_admin_token_with_refresh` returned from the file or from a
refresh, when, and whether the server let the bearer in at that moment. -/
structure Gift where
  entry : Entry
  now : jiff.Timestamp
  accepted : Bool

/-- The credentials file, the database of each server by its URL, the clock and
the processes, with the servers that have issued a token to a process and what was returned so far. -/
structure World (ι : Type) where
  file : Option CredentialStore
  servers : String → sql.Db UserTable.Row
  now : jiff.Timestamp
  procs : ι → Proc
  issued : List String := []
  given : List Gift := []

/-- One step of a process or the clock. `ask` is the request to the server, which
mints `token`; `refused` is a request that fails before it reaches the store. -/
inductive Action (ι : Type) where
  | tick (now : jiff.Timestamp)
  | load (i : ι)
  | check (i : ι)
  | ask (i : ι) (token : String)
  | refused (i : ι)
  | save (i : ι)

/-- A missing file is an empty store. -/
def load (file : Option CredentialStore) : CredentialStore := file.getD {}

section Steps

variable {ι : Type} [DecidableEq ι] (crates : UserCrates) (parse : String → Option jiff.Timestamp)

def World.set (w : World ι) (i : ι) (p : Proc) : World ι :=
  { w with procs := Function.update w.procs i p }

/-- The process returns the token of the entry. -/
def World.give (w : World ι) (i : ι) (server_url : String) (entry : Entry) : World ι :=
  { w.set i .finished with
    given := { entry, now := w.now
               accepted := accepts crates w.now (w.servers (normalize server_url)) entry.token } :: w.given }

def World.set_server (w : World ι) (server_url : String) (db : sql.Db UserTable.Row) : World ι :=
  { w with servers := Function.update w.servers (normalize server_url) db }

def World.issue (w : World ι) (server_url : String) : World ι :=
  { w with issued := normalize server_url :: w.issued }

/-- The entry that is made of the answer of a login or a refresh. -/
def new_entry (now : jiff.Timestamp) (username : String) (answer : String × String × UserRecord) : Entry :=
  { username, token := answer.1, expires_at := answer.2.1, saved_at := now.to_string
    roles := answer.2.2.roles.map role_name }

def World.login (w : World ι) (i : ι) (server_url user password token : String) : World ι :=
  let req : LoginRequest := { username := user, password, token, ttl_secs := TOKEN_TTL_SECS, now := w.now }
  match (store.login crates req).exec (w.servers (normalize server_url)) with
  | (.ok answer, db) => ((w.set_server server_url db).issue server_url).set i (.logged_in server_url (new_entry w.now user answer))
  | (.error _, db) => (w.set_server server_url db).set i .finished

/-- `try_refresh` and what becomes of its answer; a failure returns the stale token. -/
def World.refresh (w : World ι) (i : ι) (server_url : String) (store : CredentialStore) (entry : Entry) (token : String) :
    World ι :=
  let req : RefreshRequest := { token := entry.token, new_token := token, ttl_secs := TOKEN_TTL_SECS, now := w.now }
  match (refresh_user_token crates req).exec (w.servers (normalize server_url)) with
  | (.ok answer, db) =>
    ((w.set_server server_url db).issue server_url).set i
      (.saving server_url store (new_entry w.now entry.username answer) (some entry))
  | (.error _, db) => (w.set_server server_url db).give crates i server_url entry

/-- `save` writes another file and renames it. A refresh then returns the new token. -/
def World.save (w : World ι) (i : ι) (server_url : String) (store : CredentialStore) (entry : Entry) (refreshed : Option Entry) :
    World ι :=
  let w := { w with file := some (store.upsert server_url entry) }
  if refreshed.isSome then w.give crates i server_url entry else w.set i .finished

/-- `resolve_admin_token_with_refresh` up to the entry it finds. -/
def World.resolve (w : World ι) (i : ι) (server_url : String) (iac_admin_token : Option String) : World ι :=
  if iac_admin_token.any fun t => !t.isEmpty then w.set i .finished
  else
    match (load w.file).lookup server_url with
    | none => w.set i .finished
    | some entry => w.set i (.loaded server_url (load w.file) entry)

def step (w : World ι) : Action ι → Option (World ι)
  | .tick now => if w.now.nanos ≤ now.nanos then some { w with now } else none
  | .load i =>
    match w.procs i with
    | .started (.resolve server_url iac_admin_token) => some (w.resolve i server_url iac_admin_token)
    | .logged_in server_url entry => some (w.set i (.saving server_url (load w.file) entry none))
    | _ => none
  | .check i =>
    match w.procs i with
    | .loaded server_url store entry =>
      if needs_refresh parse w.now entry then some (w.set i (.refreshing server_url store entry))
      else some (w.give crates i server_url entry)
    | _ => none
  | .ask i token =>
    match w.procs i with
    | .started (.login server_url user password) => some (w.login crates i server_url user password token)
    | .refreshing server_url store entry => some (w.refresh crates i server_url store entry token)
    | _ => none
  | .refused i =>
    match w.procs i with
    | .started (.login _ _ _) => some (w.set i .finished)
    | .refreshing server_url _ entry => some (w.give crates i server_url entry)
    | _ => none
  | .save i =>
    match w.procs i with
    | .saving server_url store entry refreshed => some (w.save crates i server_url store entry refreshed)
    | _ => none

/-- No process is between its start and its end. -/
def World.ended (w : World ι) : Prop :=
  ∀ i, w.procs i = .finished ∨ ∃ command, w.procs i = .started command

/-- Every server that issued a token has one in the file that it accepts until
it expires, and every token that was returned before its expiry was accepted. -/
structure KeepsLiveTokens (w : World ι) : Prop where
  filed : w.ended → ∀ key ∈ w.issued, ∃ entry, (load w.file).get key = some entry ∧
    (unexpired parse w.now (some entry.expires_at) = true → accepts crates w.now (w.servers key) entry.token = true)
  given : ∀ gift ∈ w.given, unexpired parse gift.now (some gift.entry.expires_at) = true → gift.accepted = true

end Steps

end iac_cli.credentials
