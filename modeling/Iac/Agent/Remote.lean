import Iac.Controlplane.Store.Agents
import Iac.Core.Text
import Mathlib.Logic.Relation

open iac_controlplane iac_controlplane.store sql

namespace iac_agent.remote

structure ServerPubkey where
  key_id : String
  public_key : String

structure SigningPubkeyBundle where
  active_key_id : String
  keys : List ServerPubkey

/-- What the agent keeps in its identity file. -/
structure Identity where
  agent_id : String
  token : String
  server_url : String
  registered_at : String
  server_pubkeys : List ServerPubkey := []
  server_key_id : Option String := none
  server_public_key : Option String := none
  token_expires_at : Option String := none

def Identity.migrate_legacy_pubkey (identity : Identity) : Identity :=
  match identity.server_pubkeys, identity.server_key_id, identity.server_public_key with
  | [], some key_id, some public_key => { identity with server_pubkeys := [⟨key_id, public_key⟩] }
  | _, _, _ => identity

/-- The third-party functions the agent calls: base64, the check of an Ed25519
key and jiff's reader of timestamps. -/
structure Libraries where
  decode : String → Option (List UInt8)
  valid_key : List UInt8 → Bool
  parse : String → Option jiff.Timestamp

/-- How far a request gets: not to the server, to the server but its answer is
lost or cannot be read, or all the way. -/
inductive Delivery where
  | unsent
  | lost
  | undecodable
  | delivered
  deriving DecidableEq

/-- The agent with the client it holds, its identity file and the server it talks to. -/
structure World where
  server : Store
  now : jiff.Timestamp
  file : Option Identity := none
  client : Option Identity := none
  /-- The server has answered a request of the agent with 401. -/
  rejected : Bool := false

/-- The configuration of the agent. -/
structure AgentConfig where
  agent_name : String
  environment : String
  server_url : String

/-- What `fetch_signing_bundle` takes of the bundle it gets. -/
def check_bundle (bundle : SigningPubkeyBundle) : Except String SigningPubkeyBundle :=
  if bundle.keys.isEmpty then .error "server returned empty signing bundle"
  else if bundle.keys.any fun k => k.key_id == bundle.active_key_id then .ok bundle
  else .error ("server bundle is inconsistent: active_key_id " ++ bundle.active_key_id ++ " not in keys")

/-- The `HashMap` from key id to key; the last of several equal ids wins. -/
def key_by_id (bundle : SigningPubkeyBundle) (key_id : String) : Option String :=
  (bundle.keys.reverse.find? fun k => k.key_id == key_id).map ServerPubkey.public_key

def diverged (bundle : SigningPubkeyBundle) (pinned : ServerPubkey) : Bool :=
  (key_by_id bundle pinned.key_id).any fun public_key => public_key != pinned.public_key

def Identity.pin (identity : Identity) (bundle : SigningPubkeyBundle) : Identity :=
  { identity with
    server_pubkeys := bundle.keys
    server_key_id := some bundle.active_key_id
    server_public_key := (bundle.keys.find? fun k => k.key_id == bundle.active_key_id).map ServerPubkey.public_key }

/-- The first contact pins the keys of the server; later ones need a key that is pinned already. -/
def pin_bundle (identity : Identity) (bundle : SigningPubkeyBundle) : Except String Identity :=
  if identity.server_pubkeys.isEmpty then .ok (identity.pin bundle)
  else if bundle.keys.any fun k => identity.server_pubkeys.any fun pinned => pinned.key_id == k.key_id then
    match identity.server_pubkeys.find? (diverged bundle) with
    | some pinned => .error ("pinned key " ++ pinned.key_id ++ " pubkey diverged from server — refusing")
    | none => .ok (identity.pin bundle)
  else .error "server signing bundle has no overlap with pinned keys — refusing to update silently"

/-- Whether `build_verifier_set` can make a key of each entry. -/
def build_verifier_set (libraries : Libraries) (identity : Identity) : Except String Unit :=
  identity.server_pubkeys.forM fun entry =>
    match libraries.decode entry.public_key with
    | none => .error ("decoding pubkey for " ++ entry.key_id)
    | some bytes =>
      if bytes.length ≠ 32 then
        .error ("pubkey for " ++ entry.key_id ++ " is " ++ toString bytes.length ++ " bytes, expected 32")
      else if libraries.valid_key bytes then .ok ()
      else .error ("constructing VerifyingKey for " ++ entry.key_id)

/-- The status line and the body of a response that carries the error. -/
def error_response (crates : Crates) (e : ApiError) : String × String :=
  let (status, code, detail) : String × String × Option String :=
    match e with
    | .Unauthorized => ("401 Unauthorized", "unauthorized", none)
    | .Forbidden => ("403 Forbidden", "forbidden", none)
    | .NotFound => ("404 Not Found", "not_found", none)
    | .Conflict msg => ("409 Conflict", "conflict", some msg)
    | .BadRequest msg => ("400 Bad Request", "bad_request", some msg)
    | .Json msg => ("400 Bad Request", "bad_json", some msg)
    | .Internal _ | .Sqlx _ => ("500 Internal Server Error", "internal", none)
  let detail_field := detail.toList.map fun msg => ("detail", serde_json.Value.string msg)
  (status, crates.to_string (serde_json.json (("error", .string code) :: detail_field)))

/-- The error of a request that the server refused; a body that cannot be read counts as empty. -/
def refused (crates : Crates) (message : String) (delivery : Delivery) (e : ApiError) : String :=
  let (status, body) := error_response crates e
  message ++ status ++ ": " ++ if delivery = .delivered then body else ""

/-- Replaces the identity file, unless the write fails. -/
def persist_identity (writable : Bool) (identity : Identity) (w : World) : Except String World :=
  if writable then .ok { w with file := some identity } else .error "renaming identity file"

/-- What a connection draws from the outside: how far its two requests get,
what the server mints for a registration, its signing keys and whether the
identity file can be written. -/
structure Connection where
  register : Delivery
  id : String
  token : String
  token_ttl_secs : Option Nat
  audit_now : jiff.Timestamp
  registered_at : String
  persists : Bool
  signing_keys : Delivery
  bundle : SigningPubkeyBundle
  persists_keys : Bool

def register_request (cfg : AgentConfig) (now : jiff.Timestamp) (x : Connection) : RegisterRequest where
  id := x.id
  name := cfg.agent_name
  environment := cfg.environment
  token := x.token
  token_ttl_secs := x.token_ttl_secs
  audit_now := x.audit_now
  now := now

/-- The branch of `connect_with_tls` without an identity file: a new agent is registered. -/
def enroll (crates : Crates) (cfg : AgentConfig) (x : Connection) (w : World) : Except String Identity × World :=
  if x.register = .unsent then (.error "registering with control-plane", w)
  else
    let (answer, server) := (register_agent crates (register_request cfg w.now x)).exec w.server
    let w := { w with server }
    if x.register = .lost then (.error "registering with control-plane", w)
    else
      match answer with
      | .error e => (.error (refused crates "register failed: " x.register e), w)
      | .ok creds =>
        if x.register = .undecodable then (.error "decoding register response", w)
        else
          let identity : Identity :=
            { agent_id := creds.agent_id, token := creds.token, server_url := cfg.server_url,
              registered_at := x.registered_at, token_expires_at := creds.expires_at }
          match persist_identity x.persists identity w with
          | .error e => (.error e, w)
          | .ok w => (.ok identity, w)

def fetch_signing_bundle (x : Connection) : Except String SigningPubkeyBundle :=
  match x.signing_keys with
  | .delivered => check_bundle x.bundle
  | .undecodable => .error "decoding signing bundle"
  | _ => .error "GET /v1/signing-keys"

/-- An identity file that exists is used as it is. -/
def load_identity (crates : Crates) (cfg : AgentConfig) (x : Connection) (w : World) : Except String Identity × World :=
  match w.file with
  | some identity => (.ok identity.migrate_legacy_pubkey, w)
  | none => enroll crates cfg x w

/-- `connect_with_tls` after it has an identity. -/
def pin_keys (libraries : Libraries) (x : Connection) (identity : Identity) (w : World) :
    Except String Identity × World :=
  match fetch_signing_bundle x >>= pin_bundle identity with
  | .error e => (.error e, w)
  | .ok identity =>
    match persist_identity x.persists_keys identity w with
    | .error e => (.error e, w)
    | .ok w =>
      match build_verifier_set libraries identity with
      | .error e => (.error e, w)
      | .ok () => (.ok identity, w)

def connect_with_tls (crates : Crates) (libraries : Libraries) (cfg : AgentConfig) (x : Connection) (w : World) :
    Except String Identity × World :=
  match load_identity crates cfg x w with
  | (.error e, w) => (.error e, w)
  | (.ok identity, w) => pin_keys libraries x identity w

/-- A failed connection leaves the client that is there. -/
def connect_remote (crates : Crates) (libraries : Libraries) (cfg : AgentConfig) (x : Connection) (w : World) : World :=
  match connect_with_tls crates libraries cfg x w with
  | (.ok identity, w) => { w with client := some identity }
  | (.error _, w) => w

/-- What a rotation draws from the outside. -/
structure Rotation where
  delivery : Delivery
  token : String
  token_ttl_secs : Option Nat
  audit_now : jiff.Timestamp
  persists : Bool

/-- The handler of `rotate-token`: the current token is checked before it is replaced. -/
def serve_rotate_token (crates : Crates) (libraries : Libraries) (now : jiff.Timestamp) (identity : Identity)
    (x : Rotation) : Tx AgentCredentials := do
  let _ ← authenticate crates libraries.parse now identity.agent_id identity.token
  rotate_agent_token crates { agent_id := identity.agent_id, token := x.token, token_ttl_secs := x.token_ttl_secs,
                              now, audit_now := x.audit_now }

/-- The server has answered with 401. -/
def World.note {α : Type} (w : World) (answer : Except ApiError α) : World :=
  match answer with
  | .error .Unauthorized => { w with rejected := true }
  | _ => w

/-- `rotate_token` of the client with `identity`. -/
def rotate_token (crates : Crates) (libraries : Libraries) (x : Rotation) (identity : Identity) (w : World) :
    Except String Unit × World :=
  if x.delivery = .unsent then (.error "rotating token", w)
  else
    let (answer, server) := (serve_rotate_token crates libraries w.now identity x).exec w.server
    let w := { w with server }.note answer
    if x.delivery = .lost then (.error "rotating token", w)
    else
      match answer with
      | .error e => (.error (refused crates "rotate-token failed: " x.delivery e), w)
      | .ok creds =>
        if x.delivery = .undecodable then (.error "decoding rotate response", w)
        else
          let new_identity := { identity with token := creds.token, token_expires_at := creds.expires_at }
          match persist_identity x.persists new_identity w with
          | .error e => (.error e, w)
          | .ok w => (.ok (), { w with client := some new_identity })

/-- An authenticated request that changes no token, such as a heartbeat. -/
def send_request (crates : Crates) (libraries : Libraries) (delivery : Delivery) (identity : Identity) (w : World) :
    Except String Unit × World :=
  if delivery = .unsent then (.error "sending heartbeat", w)
  else
    let answer := ((authenticate crates libraries.parse w.now identity.agent_id identity.token).exec w.server).1
    let w := w.note answer
    if delivery = .lost then (.error "sending heartbeat", w)
    else
      match answer with
      | .error e => (.error (refused crates "control-plane returned " delivery e), w)
      | .ok _ => (.ok (), w)

/-- Drops the client when the server rejected its token. -/
def reset_remote_if_auth_error (result : Except String Unit) (w : World) : World :=
  match result with
  | .error msg =>
    if str.contains msg.toList "401".toList || str.contains msg.toList "Unauthorized".toList then { w with client := none }
    else w
  | .ok () => w

/-- A request of the observe cycle. -/
def push_to_remote (crates : Crates) (libraries : Libraries) (delivery : Delivery) (identity : Identity) (w : World) :
    World :=
  let (result, w) := send_request crates libraries delivery identity w
  reset_remote_if_auth_error result w

inductive Action where
  | wait (now : jiff.Timestamp)
  | connect (x : Connection)
  | rotate (x : Rotation)
  | request (delivery : Delivery)

/-- The agent connects when it has no client, and needs one for the other calls. -/
def Action.after (crates : Crates) (libraries : Libraries) (cfg : AgentConfig) (action : Action) (w : World) : World :=
  match action, w.client with
  | .wait now, _ => if w.now.nanos ≤ now.nanos then { w with now } else w
  | .connect _, some _ => w
  | .connect x, none => connect_remote crates libraries cfg x w
  | .rotate x, some identity => (rotate_token crates libraries x identity w).2
  | .request delivery, some identity => push_to_remote crates libraries delivery identity w
  | _, none => w

def Step (crates : Crates) (libraries : Libraries) (cfg : AgentConfig) (allowed : World → Action → Prop)
    (w after : World) : Prop :=
  ∃ action : Action, allowed w action ∧ after = action.after crates libraries cfg w

/-- A new agent, in a world whose server may know others. -/
def World.start (server : Store) (now : jiff.Timestamp) : World where
  server
  now

/-- A state of a run of a new agent. -/
def Reachable (crates : Crates) (libraries : Libraries) (cfg : AgentConfig) (allowed : World → Action → Prop)
    (w : World) : Prop :=
  ∃ server now, Relation.ReflTransGen (Step crates libraries cfg allowed) (World.start server now) w

/-- The server takes the token of the identity. -/
def accepts (crates : Crates) (libraries : Libraries) (w : World) (identity : Identity) : Bool :=
  ((authenticate crates libraries.parse w.now identity.agent_id identity.token).exec w.server).1.toBool

end iac_agent.remote
