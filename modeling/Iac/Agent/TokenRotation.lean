import Iac.Agent.Credentials
import Iac.Collections.Run
import Iac.Controlplane.Config
import Iac.Core.Timestamp.Order

open iac_controlplane iac_controlplane.store sql

namespace iac_agent.remote

open jiff (nanos_per_second max_nanos unix_epoch_nanos)

variable {crates : Crates} {libraries : Libraries} {cfg : AgentConfig}

/-- The seconds left, none of them for a token that has expired. -/
def token_seconds_until_expiry (parse : String → Option jiff.Timestamp) (now : jiff.Timestamp)
    (identity : Identity) : Option Int :=
  (identity.token_expires_at.bind parse).map fun exp_ts => max (exp_ts.as_second - now.as_second) 0

def rotate_if_needed (crates : Crates) (libraries : Libraries) (x : Rotation) (safety_margin_secs : Int)
    (identity : Identity) (w : World) : Except String (Option Unit) × World :=
  match token_seconds_until_expiry libraries.parse w.now identity with
  | none => (.ok none, w)
  | some remaining =>
    if remaining > safety_margin_secs then (.ok none, w)
    else
      let (result, w) := rotate_token crates libraries x identity w
      (result.map some, w)

/-- The margin is estimated from the time that remains. -/
def maybe_rotate_token (crates : Crates) (libraries : Libraries) (x : Rotation) (w : World) :
    Except String Unit × World :=
  match w.client with
  | none => (.ok (), w)
  | some identity =>
    match token_seconds_until_expiry libraries.parse w.now identity with
    | none => (.ok (), w)
    | some remaining =>
      let safety_secs := max (remaining.tdiv 2) 3600
      let (result, w) := rotate_if_needed crates libraries x safety_secs identity w
      (result.map fun _ => (), w)

/-- What an observe cycle draws from the outside: its clock, what loading the
manifests, observing them and writing the status come to, and how far its
requests get. -/
structure Cycle where
  now : jiff.Timestamp
  observed : Except String Unit
  connection : Connection
  push : Delivery
  drain : Delivery
  rotation : Rotation

/-- A cycle that cannot observe ends before it talks to the server. -/
def observe_once (crates : Crates) (libraries : Libraries) (cfg : AgentConfig) (w : World) (cycle : Cycle) : World :=
  let w := { w with now := cycle.now }
  match cycle.observed with
  | .error _ => w
  | .ok () =>
    let w := (Action.connect cycle.connection).after crates libraries cfg w
    let w := (Action.request cycle.push).after crates libraries cfg w
    let w := (Action.request cycle.drain).after crates libraries cfg w
    (maybe_rotate_token crates libraries cycle.rotation w).2

theorem rotate_agent_token_creds {req : RotateRequest} {creds : AgentCredentials} {db after : Store}
    (h : (rotate_agent_token crates req).run db = (.ok creds, after)) :
    creds = ⟨req.agent_id, req.token, token_expiry req.now req.token_ttl_secs⟩ := by
  unfold rotate_agent_token at h
  rw [run_bind_ok (run_update_where _ _ _ _)] at h
  split at h
  · cases h
  · obtain ⟨audit, mid, -, h⟩ := run_bind_eq_ok_iff.mp h
    exact (Except.ok.inj (Prod.mk.inj h).1).symm

/-- A rotation that is delivered and persisted gives a client with a token that
is still good the new token, on both sides. -/
theorem rotate_token_succeeds {x : Rotation} {identity : Identity} {w : World}
    (haccepts : accepts crates libraries w identity = true) (hdelivered : x.delivery = .delivered)
    (hpersists : x.persists = true) :
    ∃ server, (rotate_token crates libraries x identity w) =
        (.ok (), { w with
          server
          file := some { identity with token := x.token, token_expires_at := token_expiry w.now x.token_ttl_secs }
          client := some { identity with token := x.token, token_expires_at := token_expiry w.now x.token_ttl_secs } }) ∧
      Knows crates server
        { identity with token := x.token, token_expires_at := token_expiry w.now x.token_ttl_secs } := by
  obtain ⟨row, hfound, hhash, hexpiry⟩ := accepts_iff.mp haccepts
  obtain ⟨creds, server, hrotate, hknows⟩ := @run_rotate_agent_token crates
    { agent_id := identity.agent_id, token := x.token, token_ttl_secs := x.token_ttl_secs, now := w.now,
      audit_now := x.audit_now } row w.server identity rfl hfound
  obtain rfl := rotate_agent_token_creds hrotate
  refine ⟨server, ?_, hknows⟩
  have hserve : (serve_rotate_token crates libraries w.now identity x).exec w.server =
      (.ok ⟨identity.agent_id, x.token, token_expiry w.now x.token_ttl_secs⟩, server) := by
    unfold serve_rotate_token
    rcases run_authenticate crates libraries.parse w.now identity.agent_id identity.token w.server with
      ⟨row', hrun, -⟩ | ⟨hrun, hnone⟩
    · exact exec_of_run_ok ((run_bind_ok hrun).trans hrotate)
    · rw [hnone row hfound hhash] at hexpiry
      cases hexpiry
  unfold rotate_token
  rw [hserve]
  simp [hdelivered, hpersists, World.note, persist_identity]

/-- A token that is still good keeps the client through a request. -/
theorem request_keeps {identity : Identity} {w : World} (hclient : w.client = some identity)
    (haccepts : accepts crates libraries w identity = true) (delivery : Delivery) :
    (Action.request delivery).after crates libraries cfg w = w := by
  obtain ⟨row, hfound, hhash, hexpiry⟩ := accepts_iff.mp haccepts
  have hsent : (send_request crates libraries delivery identity w).2 = w := by
    obtain h | ⟨hrefused, -⟩ := @send_request_cases crates libraries delivery identity w
    · exact h
    · rw [haccepts] at hrefused
      cases hrefused
  have hresult : (send_request crates libraries delivery identity w).1 = .ok () ∨
      (send_request crates libraries delivery identity w).1 = .error "sending heartbeat" := by
    unfold send_request
    rcases run_authenticate crates libraries.parse w.now identity.agent_id identity.token w.server with
      ⟨row', hrun, -⟩ | ⟨-, hnone⟩
    · rw [exec_of_run_ok hrun]
      split_ifs
      · exact .inr rfl
      · exact .inr rfl
      · exact .inl rfl
    · rw [hnone row hfound hhash] at hexpiry
      cases hexpiry
  unfold Action.after
  simp only [hclient, push_to_remote, hsent]
  obtain hresult | hresult := hresult
  · rw [hresult]
    rfl
  · rw [hresult]
    have hcode : str.contains "sending heartbeat".toList "401".toList = false := by decide
    have hstatus : str.contains "sending heartbeat".toList "Unauthorized".toList = false := by decide
    rw [reset_remote_if_auth_error, hcode, hstatus]
    rfl

/-- Up to its rotation, a cycle of a client with a good token changes nothing. -/
theorem observe_once_eq {identity : Identity} {w : World} {cycle : Cycle} (hclient : w.client = some identity)
    (haccepts : accepts crates libraries { w with now := cycle.now } identity = true)
    (hobserved : cycle.observed = .ok ()) :
    observe_once crates libraries cfg w cycle =
      (maybe_rotate_token crates libraries cycle.rotation { w with now := cycle.now }).2 := by
  generalize hmoved : ({ w with now := cycle.now } : World) = moved at haccepts ⊢
  have hclient : moved.client = some identity := hmoved ▸ hclient
  have hconnect : (Action.connect cycle.connection).after crates libraries cfg moved = moved := by
    unfold Action.after
    simp only [hclient]
  unfold observe_once
  simp only [hobserved, hmoved, hconnect]
  rw [request_keeps hclient haccepts cycle.push, request_keeps hclient haccepts cycle.drain]

/-- The seconds left exceed the margin exactly when they exceed an hour. -/
theorem max_half_lt_iff {remaining : Int} (hnonneg : 0 ≤ remaining) :
    max (remaining.tdiv 2) 3600 < remaining ↔ 3600 < remaining := by
  rw [Int.tdiv_eq_ediv_of_nonneg hnonneg, max_lt_iff]
  omega

theorem seconds_until_expiry_nonneg {parse : String → Option jiff.Timestamp} {now : jiff.Timestamp}
    {identity : Identity} {remaining : Int} (h : token_seconds_until_expiry parse now identity = some remaining) :
      0 ≤ remaining := by
  obtain ⟨exp_ts, -, rfl⟩ := Option.map_eq_some_iff.mp h
  exact le_max_right _ _

/-- The token has more than an hour left, or no expiry, and stays. -/
theorem maybe_rotate_token_waits {x : Rotation} {identity : Identity} {w : World} (hclient : w.client = some identity)
    (hlong : ∀ remaining, token_seconds_until_expiry libraries.parse w.now identity = some remaining →
      3600 < remaining) :
    (maybe_rotate_token crates libraries x w).2 = w := by
  unfold maybe_rotate_token
  simp only [hclient]
  cases hseconds : token_seconds_until_expiry libraries.parse w.now identity with
  | none => rfl
  | some remaining =>
    have hwaits := (max_half_lt_iff (seconds_until_expiry_nonneg hseconds)).mpr (hlong remaining hseconds)
    simp [rotate_if_needed, hseconds, hwaits]

/-- The token has an hour left at most, and is replaced. -/
theorem maybe_rotate_token_rotates {x : Rotation} {identity : Identity} {w : World} {remaining : Int}
    (hclient : w.client = some identity) (haccepts : accepts crates libraries w identity = true)
    (hdelivered : x.delivery = .delivered) (hpersists : x.persists = true)
    (hseconds : token_seconds_until_expiry libraries.parse w.now identity = some remaining)
    (hshort : remaining ≤ 3600) :
    ∃ new, new.token = x.token ∧ new.token_expires_at = token_expiry w.now x.token_ttl_secs ∧
      (maybe_rotate_token crates libraries x w).2.client = some new ∧
      Knows crates (maybe_rotate_token crates libraries x w).2.server new ∧
      (maybe_rotate_token crates libraries x w).2.now = w.now := by
  obtain ⟨server, hrotate, hknows⟩ := rotate_token_succeeds haccepts hdelivered hpersists
  have hneeded : ¬ max (remaining.tdiv 2) 3600 < remaining := by
    rw [max_half_lt_iff (seconds_until_expiry_nonneg hseconds)]
    omega
  have hafter : (maybe_rotate_token crates libraries x w).2 = { w with
      server
      file := some { identity with token := x.token, token_expires_at := token_expiry w.now x.token_ttl_secs }
      client := some { identity with token := x.token, token_expires_at := token_expiry w.now x.token_ttl_secs } } := by
    unfold maybe_rotate_token
    simp [hclient, hseconds, rotate_if_needed, hneeded, hrotate]
  rw [hafter]
  exact ⟨_, rfl, rfl, rfl, hknows, rfl⟩

/-- A lifetime that starts now ends before the clock does. -/
def HasRoom (ttl : Option Nat) (now : jiff.Timestamp) : Prop :=
  ∀ secs, ttl = some secs → now.nanos + secs * nanos_per_second ≤ max_nanos

/-- The cycle comes at most a third of the lifetime after the last one, it gets
to its rotation, and its rotate request succeeds when it is made. -/
structure Timely (ttl : Option Nat) (w : World) (cycle : Cycle) : Prop where
  monotone : w.now.nanos ≤ cycle.now.nanos
  gap : ∀ secs, ttl = some secs → 3 * (cycle.now.nanos - w.now.nanos) ≤ secs * nanos_per_second
  observed : cycle.observed = .ok ()
  delivered : cycle.rotation.delivery = .delivered
  persists : cycle.rotation.persists = true
  lifetime : cycle.rotation.token_ttl_secs = ttl
  room : HasRoom ttl cycle.now

/-- The agent has just got a token, which the server knows. -/
structure Issued (crates : Crates) (ttl : Option Nat) (w : World) : Prop where
  issued : ∃ identity, w.client = some identity ∧ Knows crates w.server identity ∧
    identity.token_expires_at = token_expiry w.now ttl
  room : HasRoom ttl w.now

/-- The world after some timely cycles of an agent with a fresh token. -/
def AfterCycles (crates : Crates) (libraries : Libraries) (cfg : AgentConfig) (ttl : Option Nat) (w : World) : Prop :=
  ∃ start, Issued crates ttl start ∧
    transition.Run (fun w cycle => some (observe_once crates libraries cfg w cycle)) (Timely ttl) start w

/-- The agent starts the cycle with a token that has not expired. -/
def StartsUnexpired (libraries : Libraries) (w : World) (cycle : Cycle) : Prop :=
  ∃ identity, w.client = some identity ∧ unexpired libraries.parse cycle.now identity.token_expires_at = true

/-- The cycle starts within the last third of the lifetime of the agent's token. -/
def InLastThird (libraries : Libraries) (ttl : Option Nat) (w : World) (cycle : Cycle) : Prop :=
  ∃ secs identity text expiry, ttl = some secs ∧ w.client = some identity ∧ identity.token_expires_at = some text ∧
    libraries.parse text = some expiry ∧ 3 * (expiry.nanos - cycle.now.nanos) ≤ secs * nanos_per_second

/-- The cycle leaves the agent with the token of its rotate request. -/
def Rotates (crates : Crates) (libraries : Libraries) (cfg : AgentConfig) (w : World) (cycle : Cycle) : Prop :=
  ∃ identity, (observe_once crates libraries cfg w cycle).client = some identity ∧
    identity.token = cycle.rotation.token ∧
    identity.token_expires_at = token_expiry cycle.now cycle.rotation.token_ttl_secs

/-- No cycle starts with an expired token. -/
def NeverExpired (crates : Crates) (libraries : Libraries) (cfg : AgentConfig) (ttl : Option Nat) : Prop :=
  ∀ w cycle, AfterCycles crates libraries cfg ttl w → Timely ttl w cycle → StartsUnexpired libraries w cycle

/-- Every cycle that starts within the last third of the lifetime rotates the token. -/
def RotatesInLastThird (crates : Crates) (libraries : Libraries) (cfg : AgentConfig) (ttl : Option Nat) : Prop :=
  ∀ w cycle, AfterCycles crates libraries cfg ttl w → Timely ttl w cycle → InLastThird libraries ttl w cycle →
    Rotates crates libraries cfg w cycle

theorem token_expiry_eq {secs : Nat} {now : jiff.Timestamp} (hlifetime : secs ≤ 315360000)
    (hroom : HasRoom (some secs) now) :
    ∃ expiry : jiff.Timestamp, token_expiry now (some secs) = some expiry.to_string ∧
      expiry.nanos = now.nanos + secs * nanos_per_second := by
  have hroom := hroom secs rfl
  have hrange := now.in_range
  have hnanos : now.nanos - -(secs : Int) * nanos_per_second = now.nanos + secs * nanos_per_second := by
    rw [Int.neg_mul, Int.sub_neg]
  have hin : jiff.min_nanos ≤ now.nanos - -(secs : Int) * nanos_per_second ∧
      now.nanos - -(secs : Int) * nanos_per_second ≤ max_nanos := by
    simp only [nanos_per_second] at hnanos hroom ⊢
    omega
  have hspan : secs ≤ jiff.max_span_seconds := by
    simp only [jiff.max_span_seconds]
    omega
  refine ⟨⟨now.nanos - -(secs : Int) * nanos_per_second, hin⟩, ?_, hnanos⟩
  have hminus : now.minus_seconds (-(secs : Int)) = some ⟨now.nanos - -(secs : Int) * nanos_per_second, hin⟩ := by
    unfold jiff.Timestamp.minus_seconds
    simp only
    rw [dif_pos hin, if_pos (by omega)]
  change some ((now.minus_seconds (-(secs : Int))).getD now).to_string = _
  rw [hminus, Option.getD_some]

/-- The seconds left of a token are at most the whole seconds of its time left. -/
theorem as_second_sub_le {now expiry : jiff.Timestamp} {secs : Int} (hnonneg : 0 ≤ secs)
    (hle : expiry.nanos - now.nanos ≤ secs * nanos_per_second) : expiry.as_second - now.as_second ≤ secs := by
  simp only [jiff.Timestamp.as_second, Int.tdiv_eq_ediv, nanos_per_second, unix_epoch_nanos] at hle ⊢
  simp only [Int.sign_eq_one_of_pos (by decide : (0 : Int) < 1000000000)]
  split
  · split
    · omega
    · omega
  · split
    · omega
    · omega

/-- The token has more than a third of its lifetime left, or no expiry. -/
def Lasts (ttl : Option Nat) (now : jiff.Timestamp) (expires_at : Option String) : Prop :=
  match ttl with
  | none => expires_at = none
  | some secs => ∃ expiry : jiff.Timestamp, expires_at = some expiry.to_string ∧
      secs * nanos_per_second < 3 * (expiry.nanos - now.nanos)

/-- Between two cycles the client has a token that the server knows and that
lasts until the next one. -/
def Carried (crates : Crates) (ttl : Option Nat) (w : World) : Prop :=
  ∃ identity, w.client = some identity ∧ Knows crates w.server identity ∧ Lasts ttl w.now identity.token_expires_at

theorem Carried.start {ttl : Option Nat} {w : World}
    (hlifetime : ∀ secs, ttl = some secs → 60 ≤ secs ∧ secs ≤ 315360000) (h : Issued crates ttl w) : Carried crates ttl w := by
  obtain ⟨identity, hclient, hknows, hexpires⟩ := h.issued
  refine ⟨identity, hclient, hknows, ?_⟩
  cases ttl with
  | none => exact hexpires
  | some secs =>
    obtain ⟨hmin, hmax⟩ := hlifetime secs rfl
    obtain ⟨expiry, htext, hnanos⟩ := token_expiry_eq hmax h.room
    refine ⟨expiry, hexpires.trans htext, ?_⟩
    simp only [nanos_per_second] at hnanos ⊢
    omega

variable (hparse : ∀ t : jiff.Timestamp, libraries.parse t.to_string = some t)
include hparse

/-- A timely cycle starts with the token that the last one left. -/
theorem Lasts.unexpired {ttl : Option Nat} {w : World} {cycle : Cycle} {expires_at : Option String}
    (h : Lasts ttl w.now expires_at) (htimely : Timely ttl w cycle) :
    unexpired libraries.parse cycle.now expires_at = true := by
  cases ttl with
  | none =>
    obtain rfl : expires_at = none := h
    rfl
  | some secs =>
    obtain ⟨expiry, rfl, hlasts⟩ := h
    have hgap := htimely.gap secs rfl
    simp only [store.unexpired, Option.all_some, hparse, Option.any_some, decide_eq_true_eq]
    omega

/-- One cycle of a lifetime of three hours at most: it starts with a good token,
rotates it in the last third and leaves one that lasts. -/
theorem Carried.cycle {ttl : Option Nat} {w : World} {cycle : Cycle}
    (hlifetime : ∀ secs, ttl = some secs → 60 ≤ secs ∧ secs ≤ 315360000)
    (hshort : ∀ secs, ttl = some secs → secs ≤ 10800) (h : Carried crates ttl w) (htimely : Timely ttl w cycle) :
    StartsUnexpired libraries w cycle ∧
      (InLastThird libraries ttl w cycle → Rotates crates libraries cfg w cycle) ∧
      Carried crates ttl (observe_once crates libraries cfg w cycle) := by
  obtain ⟨identity, hclient, hknows, hlasts⟩ := h
  have hunexpired := hlasts.unexpired hparse htimely
  have haccepts : accepts crates libraries { w with now := cycle.now } identity = true :=
    accepts_of_knows hknows hunexpired
  refine ⟨⟨identity, hclient, hunexpired⟩, ?_⟩
  rw [Rotates, observe_once_eq hclient haccepts htimely.observed]
  cases ttl with
  | none =>
    have hnone : identity.token_expires_at = none := hlasts
    have hstays := @maybe_rotate_token_waits crates libraries cycle.rotation identity { w with now := cycle.now }
      hclient (by simp [token_seconds_until_expiry, hnone])
    rw [hstays]
    refine ⟨fun ⟨secs, identity, text, expiry, hsome, hthird⟩ => (nomatch hsome), identity, hclient, hknows, hnone⟩
  | some secs =>
    obtain ⟨hmin, hmax⟩ := hlifetime secs rfl
    have hhours := hshort secs rfl
    obtain ⟨expiry, hexpires, -⟩ := hlasts
    have hseconds : token_seconds_until_expiry libraries.parse cycle.now identity =
        some (max (expiry.as_second - cycle.now.as_second) 0) := by
      simp [token_seconds_until_expiry, hexpires, hparse]
    by_cases hhour : max (expiry.as_second - cycle.now.as_second) 0 ≤ 3600
    · obtain ⟨new, htoken, hnew, hnewclient, hnewknows, hnow⟩ :=
        @maybe_rotate_token_rotates crates libraries cycle.rotation identity { w with now := cycle.now } _ hclient
          haccepts htimely.delivered htimely.persists hseconds hhour
      refine ⟨fun _ => ⟨new, hnewclient, htoken, hnew⟩, new, hnewclient, hnewknows, ?_⟩
      obtain ⟨later, htext, hnanos⟩ := token_expiry_eq hmax htimely.room
      rw [hnow]
      refine ⟨later, by rw [hnew, htimely.lifetime, htext], ?_⟩
      simp only [nanos_per_second] at hnanos ⊢
      omega
    · have hlate : secs * nanos_per_second < 3 * (expiry.nanos - cycle.now.nanos) := by
        by_contra hthird
        refine hhour (max_le (as_second_sub_le (by omega) ?_) (by omega))
        simp only [nanos_per_second] at hthird ⊢
        omega
      have hstays := @maybe_rotate_token_waits crates libraries cycle.rotation identity { w with now := cycle.now }
        hclient (fun remaining hremaining => by
          obtain rfl := Option.some.inj (hseconds.symm.trans hremaining)
          omega)
      rw [hstays]
      refine ⟨?_, identity, hclient, hknows, expiry, hexpires, hlate⟩
      rintro ⟨_, other, text, read, hsecs, hother, htext, hread, hthird⟩
      obtain rfl := Option.some.inj hsecs
      obtain rfl := Option.some.inj (hclient.symm.trans hother)
      obtain rfl := Option.some.inj (hexpires.symm.trans htext)
      obtain rfl := Option.some.inj ((hparse expiry).symm.trans hread)
      omega

theorem AfterCycles.carried {ttl : Option Nat} {w : World}
    (hlifetime : ∀ secs, ttl = some secs → 60 ≤ secs ∧ secs ≤ 315360000)
    (hshort : ∀ secs, ttl = some secs → secs ≤ 10800) (h : AfterCycles crates libraries cfg ttl w) :
    Carried crates ttl w := by
  obtain ⟨start, hissued, hrun⟩ := h
  refine hrun.invariant (Carried.start hlifetime hissued) fun w after cycle hcarried htimely hstep => ?_
  obtain rfl := Option.some.inj hstep
  exact (hcarried.cycle hparse hlifetime hshort htimely).2.2

omit hparse

theorem since_1970_in_range {elapsed : Int} (h : 0 ≤ elapsed ∧ elapsed ≤ 315360000 * nanos_per_second) :
    jiff.min_nanos ≤ unix_epoch_nanos + elapsed ∧ unix_epoch_nanos + elapsed ≤ max_nanos := by
  simp only [jiff.min_nanos, max_nanos, unix_epoch_nanos, nanos_per_second] at h ⊢
  omega

/-- The instant this many nanoseconds after the start of 1970. -/
def since_1970 (elapsed : Int) (h : 0 ≤ elapsed ∧ elapsed ≤ 315360000 * nanos_per_second) : jiff.Timestamp where
  nanos := unix_epoch_nanos + elapsed
  in_range := since_1970_in_range h

/-- An observe cycle that reaches the server. -/
def reaching_cycle (ttl : Option Nat) (now : jiff.Timestamp) : Cycle where
  now
  observed := .ok ()
  connection := connection
  push := .delivered
  drain := .delivered
  rotation := { rotation .delivered with token_ttl_secs := ttl }

/-- An agent with the token it got when it registered. -/
def registered_world (crates : Crates) (expires_at : Option String) (now : jiff.Timestamp) : World where
  server := migrated.set_rows .agents
    [{ id := "agent", name := "web", environment := "prod", token_hash := hash_token crates "first",
       token_expires_at := expires_at }]
  now
  client := some { agent_id := "agent", token := "first", server_url := "https://control-plane",
                   registered_at := epoch.to_string, token_expires_at := expires_at }

theorem registered_world_knows (expires_at : Option String) (now : jiff.Timestamp) {identity : Identity}
    (hclient : (registered_world crates expires_at now).client = some identity) :
    Knows crates (registered_world crates expires_at now).server identity := by
  obtain rfl := Option.some.inj hclient
  refine ⟨{ id := "agent", name := "web", environment := "prod", token_hash := hash_token crates "first",
            token_expires_at := expires_at }, ?_, rfl, rfl⟩
  simp [registered_world, Db.set_rows_self]

section Long

variable {secs : Nat} (hlong : 10800 < secs) (hmax : secs ≤ 315360000) {elapsed earlier : Int}
  (hwithin : 0 ≤ elapsed ∧ elapsed ≤ 315360000 * nanos_per_second)
  (hbefore : 0 ≤ earlier ∧ earlier ≤ 315360000 * nanos_per_second)

private theorem lifetime_within (hmax : secs ≤ 315360000) :
    0 ≤ (secs : Int) * nanos_per_second ∧ secs * nanos_per_second ≤ 315360000 * nanos_per_second := by
  simp only [nanos_per_second]
  omega

theorem reaching_cycle_timely {expires_at : Option String} (hle : earlier ≤ elapsed)
    (hgap : 3 * (elapsed - earlier) ≤ secs * nanos_per_second) (hmax : secs ≤ 315360000) :
    Timely (some secs) (registered_world crates expires_at (since_1970 earlier hbefore))
      (reaching_cycle (some secs) (since_1970 elapsed hwithin)) := by
  refine ⟨?_, ?_, rfl, rfl, rfl, rfl, ?_⟩
  · change unix_epoch_nanos + earlier ≤ unix_epoch_nanos + elapsed
    omega
  · intro other hother
    obtain rfl := Option.some.inj hother
    change 3 * (unix_epoch_nanos + elapsed - (unix_epoch_nanos + earlier)) ≤ secs * nanos_per_second
    omega
  · intro other hother
    obtain rfl := Option.some.inj hother
    change unix_epoch_nanos + elapsed + secs * nanos_per_second ≤ max_nanos
    simp only [nanos_per_second, unix_epoch_nanos, max_nanos] at hwithin ⊢
    omega

include hparse in
/-- A cycle with a third of a long lifetime left, or more, does nothing. -/
theorem reaching_cycle_waits {expires_at : Option String} {earlier : jiff.Timestamp}
    (hexpires : expires_at = some (since_1970 (secs * nanos_per_second) (lifetime_within hmax)).to_string)
    (hlong : 10800 < secs) (hleft : 3 * elapsed ≤ 2 * (secs * nanos_per_second) + 2) :
    observe_once crates libraries cfg (registered_world crates expires_at earlier)
        (reaching_cycle (some secs) (since_1970 elapsed hwithin)) =
      registered_world crates expires_at (since_1970 elapsed hwithin) := by
  have hunexpired : unexpired libraries.parse (since_1970 elapsed hwithin) expires_at = true := by
    simp only [hexpires, store.unexpired, Option.all_some, hparse, Option.any_some, decide_eq_true_eq]
    change unix_epoch_nanos + elapsed < unix_epoch_nanos + secs * nanos_per_second
    simp only [nanos_per_second] at hleft ⊢
    omega
  have haccepts : accepts crates libraries (registered_world crates expires_at (since_1970 elapsed hwithin))
      { agent_id := "agent", token := "first", server_url := "https://control-plane",
        registered_at := epoch.to_string, token_expires_at := expires_at } = true :=
    accepts_of_knows (registered_world_knows _ _ rfl) hunexpired
  rw [@observe_once_eq crates libraries cfg _ (registered_world crates expires_at earlier)
    (reaching_cycle (some secs) (since_1970 elapsed hwithin)) rfl haccepts rfl]
  refine maybe_rotate_token_waits rfl fun remaining hremaining => ?_
  simp only [token_seconds_until_expiry, hexpires, Option.bind_some, hparse, Option.map_some,
    Option.some.injEq] at hremaining
  rw [← hremaining]
  refine lt_of_lt_of_le ?_ (le_max_left _ _)
  change 3600 < (unix_epoch_nanos + secs * nanos_per_second - unix_epoch_nanos).tdiv nanos_per_second -
    (unix_epoch_nanos + elapsed - unix_epoch_nanos).tdiv nanos_per_second
  rw [add_sub_cancel_left, add_sub_cancel_left, Int.tdiv_eq_ediv_of_nonneg hwithin.1,
    Int.tdiv_eq_ediv_of_nonneg (lifetime_within hmax).1]
  simp only [nanos_per_second] at hleft ⊢
  omega

theorem issued_registered_world {start : Int} (hstart : start = 0)
    (hwithin : 0 ≤ start ∧ start ≤ 315360000 * nanos_per_second) :
    Issued crates (some secs) (registered_world crates
      (some (since_1970 (secs * nanos_per_second) (lifetime_within hmax)).to_string) (since_1970 start hwithin)) := by
  have hroom : HasRoom (some secs) (since_1970 start hwithin) := by
    intro other hother
    obtain rfl := Option.some.inj hother
    change unix_epoch_nanos + start + secs * nanos_per_second ≤ max_nanos
    simp only [nanos_per_second, unix_epoch_nanos, max_nanos]
    omega
  obtain ⟨expiry, htext, hnanos⟩ := token_expiry_eq hmax hroom
  obtain rfl : expiry = since_1970 (secs * nanos_per_second) (lifetime_within hmax) := by
    have hsame : expiry.nanos = unix_epoch_nanos + secs * nanos_per_second := by
      change expiry.nanos = unix_epoch_nanos + start + secs * nanos_per_second at hnanos
      omega
    cases expiry
    subst hsame
    rfl
  exact ⟨⟨_, rfl, registered_world_knows _ _ rfl, htext.symm⟩, hroom⟩

/-- The agent of these worlds still has the token it registered with. -/
def first_token_world (crates : Crates) (hmax : secs ≤ 315360000) (now : jiff.Timestamp) : World :=
  registered_world crates (some (since_1970 (secs * nanos_per_second) (lifetime_within hmax)).to_string) now

include hparse in
theorem keeps_first_token (hlong : 10800 < secs) (hle : earlier ≤ elapsed)
    (hgap : 3 * (elapsed - earlier) ≤ secs * nanos_per_second)
    (hleft : 3 * elapsed ≤ 2 * (secs * nanos_per_second) + 2)
    (h : AfterCycles crates libraries cfg (some secs) (first_token_world crates hmax (since_1970 earlier hbefore))) :
    AfterCycles crates libraries cfg (some secs) (first_token_world crates hmax (since_1970 elapsed hwithin)) := by
  obtain ⟨start, hissued, hrun⟩ := h
  refine ⟨start, hissued, hrun.step (reaching_cycle_timely hwithin hbefore hle hgap hmax) ?_⟩
  exact congrArg some (reaching_cycle_waits hparse hmax hwithin rfl hlong hleft)

end Long

include hparse in
theorem expired_at_expiry (expiry : jiff.Timestamp) :
    unexpired libraries.parse expiry (some expiry.to_string) = false := by
  simp [store.unexpired, hparse]

include hparse in
/-- With a long lifetime the agent passes its last third with the first token,
and the next cycle finds it expired. -/
theorem long_lifetime_expires {secs : Nat} (hlong : 10800 < secs) (hmax : secs ≤ 315360000) :
    ¬ NeverExpired crates libraries cfg (some secs) ∧ ¬ RotatesInLastThird crates libraries cfg (some secs) := by
  have hwithin (elapsed : Int) (hnonneg : 0 ≤ elapsed) (hle : elapsed ≤ secs * nanos_per_second) :
      0 ≤ elapsed ∧ elapsed ≤ 315360000 * nanos_per_second :=
    ⟨hnonneg, hle.trans (lifetime_within hmax).2⟩
  obtain ⟨third, hthird⟩ : ∃ third : Int, third = secs * nanos_per_second / 3 := ⟨_, rfl⟩
  have hnonneg : (0 : Int) ≤ secs * nanos_per_second := (lifetime_within hmax).1
  have hsome : (9 : Int) < secs * nanos_per_second := by
    simp only [nanos_per_second]
    omega
  have hzero := hwithin 0 (by omega) (by omega)
  have hone := hwithin third (by omega) (by omega)
  have htwo := hwithin (2 * third) (by omega) (by omega)
  have hlast := hwithin (secs * nanos_per_second - third) (by omega) (by omega)
  have hstart : AfterCycles crates libraries cfg (some secs) (first_token_world crates hmax (since_1970 0 hzero)) :=
    ⟨_, issued_registered_world hmax rfl _, .start⟩
  have hfirst := keeps_first_token hparse hmax hone hzero hlong (by omega) (by omega) (by omega) hstart
  have hsecond := keeps_first_token hparse hmax htwo hone hlong (by omega) (by omega) (by omega) hfirst
  have hpassed := keeps_first_token hparse hmax hlast htwo hlong (by omega) (by omega) (by omega) hsecond
  refine ⟨fun hnever => ?_, fun hrotates => ?_⟩
  · have hexpiry := hwithin (secs * nanos_per_second) (by omega) (by omega)
    obtain ⟨identity, hclient, hunexpired⟩ :=
      hnever _ _ hpassed (reaching_cycle_timely hexpiry hlast (by omega) (by omega) hmax)
    obtain rfl := Option.some.inj hclient
    exact Bool.false_ne_true ((expired_at_expiry hparse _).symm.trans hunexpired)
  · have hin : InLastThird libraries (some secs) (first_token_world crates hmax (since_1970 (2 * third) htwo))
        (reaching_cycle (some secs) (since_1970 (secs * nanos_per_second - third) hlast)) := by
      refine ⟨secs, _, _, since_1970 (secs * nanos_per_second) (lifetime_within hmax), rfl, rfl, rfl, hparse _, ?_⟩
      change 3 * (unix_epoch_nanos + secs * nanos_per_second -
        (unix_epoch_nanos + (secs * nanos_per_second - third))) ≤ secs * nanos_per_second
      omega
    obtain ⟨identity, hclient, htoken, -⟩ :=
      hrotates _ _ hsecond (reaching_cycle_timely hlast htwo (by omega) (by omega) hmax) hin
    rw [first_token_world, reaching_cycle_waits hparse hmax hlast rfl hlong (by omega)] at hclient
    obtain rfl := Option.some.inj hclient
    exact absurd htoken (by decide : "first" ≠ "second")

/-- The server admits lifetimes from a minute to ten years. The agent rotates in
time when they are three hours at most, and no longer ones. -/
theorem rotates_in_time_iff_three_hours {ttl : Option Nat}
    (hparse : ∀ t : jiff.Timestamp, libraries.parse t.to_string = some t)
    (hadmitted : config.check_agent_token_ttl_secs ttl = .ok ()) :
    (NeverExpired crates libraries cfg ttl ↔ ∀ secs, ttl = some secs → secs ≤ 3 * 60 * 60) ∧
      (RotatesInLastThird crates libraries cfg ttl ↔ ∀ secs, ttl = some secs → secs ≤ 3 * 60 * 60) := by
  have hlifetime := config.check_agent_token_ttl_secs_ok_iff.mp hadmitted
  have hlong {secs : Nat} (hsecs : ttl = some secs) (hlong : ¬ secs ≤ 3 * 60 * 60) :
      ¬ NeverExpired crates libraries cfg ttl ∧ ¬ RotatesInLastThird crates libraries cfg ttl := by
    subst hsecs
    exact long_lifetime_expires hparse (by omega) (hlifetime secs rfl).2
  have hcycle (hshort : ∀ secs, ttl = some secs → secs ≤ 3 * 60 * 60) (w : World) (cycle : Cycle)
      (hafter : AfterCycles crates libraries cfg ttl w) (htimely : Timely ttl w cycle) :
      StartsUnexpired libraries w cycle ∧
        (InLastThird libraries ttl w cycle → Rotates crates libraries cfg w cycle) := by
    have hcarried := hafter.carried hparse hlifetime hshort
    obtain ⟨hstarts, hrotates, -⟩ := hcarried.cycle hparse hlifetime hshort htimely
    exact ⟨hstarts, hrotates⟩
  refine ⟨⟨fun hnever secs hsecs => ?_, fun hshort w cycle hafter htimely => ?_⟩,
    fun hrotates secs hsecs => ?_, fun hshort w cycle hafter htimely => ?_⟩
  · by_contra h
    exact (hlong hsecs h).1 hnever
  · exact (hcycle hshort w cycle hafter htimely).1
  · by_contra h
    exact (hlong hsecs h).2 hrotates
  · exact (hcycle hshort w cycle hafter htimely).2

/-- A reader of timestamps that undoes their printing. -/
noncomputable def read_back (text : String) : Option jiff.Timestamp :=
  open Classical in if h : ∃ t : jiff.Timestamp, t.to_string = text then some h.choose else none

theorem read_back_to_string (t : jiff.Timestamp) : read_back t.to_string = some t := by
  have hex : ∃ u : jiff.Timestamp, u.to_string = t.to_string := ⟨t, rfl⟩
  rw [read_back, dif_pos hex, jiff.to_string_injective hex.choose_spec]

noncomputable def reading_libraries : Libraries := { sample_libraries with parse := read_back }

/-- A lifetime of two hours is rotated in time. -/
theorem two_hours_rotate_in_time :
    NeverExpired sample_crates reading_libraries sample_cfg (some 7200) ∧
      RotatesInLastThird sample_crates reading_libraries sample_cfg (some 7200) := by
  have hshort : ∀ secs, some 7200 = some secs → secs ≤ 3 * 60 * 60 := by
    intro secs hsecs
    obtain rfl := Option.some.inj hsecs
    omega
  obtain ⟨hnever, hrotates⟩ :=
    @rotates_in_time_iff_three_hours sample_crates reading_libraries sample_cfg (some 7200) read_back_to_string
      (config.check_agent_token_ttl_secs_ok_iff.mpr fun secs hsecs => by
        obtain rfl := Option.some.inj hsecs
        omega)
  exact ⟨hnever.mpr hshort, hrotates.mpr hshort⟩

/-- A lifetime of a day is admitted, and lost by an agent with a cycle every eight hours. -/
theorem a_day_expires :
    config.check_agent_token_ttl_secs (some 86400) = .ok () ∧
      ¬ NeverExpired sample_crates reading_libraries sample_cfg (some 86400) ∧
      ¬ RotatesInLastThird sample_crates reading_libraries sample_cfg (some 86400) := by
  refine ⟨config.check_agent_token_ttl_secs_ok_iff.mpr fun secs hsecs => ?_,
    long_lifetime_expires read_back_to_string (by omega) (by omega)⟩
  obtain rfl := Option.some.inj hsecs
  omega

end iac_agent.remote
