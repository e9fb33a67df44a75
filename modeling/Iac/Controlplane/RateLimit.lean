import Iac.Collections.SelfDelimiting
import Iac.Collections.SlidingWindow
import Mathlib.Logic.Function.Basic

open sliding_window

namespace iac_controlplane.rate_limit

/-- Instants are nanoseconds since the first one that the monotonic clock can represent. -/
def nanos_per_sec : Nat := 1000000000

/-- The sixty seconds of `Duration::from_secs(60)`. -/
def window : Nat := 60 * nanos_per_sec

def checked_sub (now : Nat) (duration : Nat) : Option Nat :=
  if duration ≤ now then some (now - duration) else none

structure RateLimitBucket where
  type : String
  name : String
  deriving DecidableEq, Repr

def RateLimitBucket.env (name : String) : RateLimitBucket := ⟨"env", name⟩
def RateLimitBucket.policy (name : String) : RateLimitBucket := ⟨"policy", name⟩
def RateLimitBucket.agent (name : String) : RateLimitBucket := ⟨"agent", name⟩
def RateLimitBucket.login_user (name : String) : RateLimitBucket := ⟨"login_user", name⟩
def RateLimitBucket.client (name : String) : RateLimitBucket := ⟨"client", name⟩
def RateLimitBucket.register_ip (name : String) : RateLimitBucket := ⟨"register_ip", name⟩

def RateLimitBucket.key (bucket : RateLimitBucket) : String :=
  bucket.type ++ ":" ++ bucket.name

/-- The error `TooManyRequests`, the only one that the limiter returns. -/
structure TooManyRequests where
  bucket : RateLimitBucket
  retry_after_secs : Nat
  deriving DecidableEq, Repr

structure RateLimitMetrics where
  checks_total : UInt64
  rejected_total : UInt64

/-- The map of queues under its lock, and the counters. -/
structure RateLimiter where
  state : String → Option (List Nat)
  metrics : RateLimitMetrics

def RateLimiter.new : RateLimiter := ⟨fun _ => none, ⟨0, 0⟩⟩

/-- The loop that pops the entries before the cutoff off the front. -/
def pop_expired (cutoff : Nat) : List Nat → List Nat
  | [] => []
  | t :: q => if t < cutoff then pop_expired cutoff q else t :: q

def prune (cutoff : Option Nat) (q : List Nat) : List Nat :=
  match cutoff with
  | some cutoff => pop_expired cutoff q
  | none => q

def retry_secs (q : List Nat) (now : Nat) : Nat :=
  max ((q.head?.map fun t => 60 - (now - t) / nanos_per_sec).getD 60) 1

def RateLimiter.check_and_record_keyed_at (lim : RateLimiter) (bucket : RateLimitBucket) (max : UInt32)
    (now : Nat) : RateLimiter × Except TooManyRequests Unit :=
  let checks_total := lim.metrics.checks_total + 1
  let q := prune (checked_sub now window) ((lim.state bucket.key).getD [])
  if max.toNat ≤ q.length then
    (⟨Function.update lim.state bucket.key (some q), ⟨checks_total, lim.metrics.rejected_total + 1⟩⟩,
      .error ⟨bucket, retry_secs q now⟩)
  else
    (⟨Function.update lim.state bucket.key (some (q ++ [now])), ⟨checks_total, lim.metrics.rejected_total⟩⟩, .ok ())

/-- A call of the limiter; the cap is that of the key. -/
structure Call where
  bucket : RateLimitBucket
  now : Nat
  deriving DecidableEq, Repr

/-- A call with what it returned. -/
structure Outcome where
  call : Call
  result : Except TooManyRequests Unit

section Runs

variable (cap : String → UInt32)

/-- The limiter after the calls. -/
def RateLimiter.after (lim : RateLimiter) : List Call → RateLimiter
  | [] => lim
  | c :: calls => ((lim.check_and_record_keyed_at c.bucket (cap c.bucket.key) c.now).1).after calls

def RateLimiter.outcomes (lim : RateLimiter) : List Call → List Outcome
  | [] => []
  | c :: calls =>
    let answer := lim.check_and_record_keyed_at c.bucket (cap c.bucket.key) c.now
    ⟨c, answer.2⟩ :: answer.1.outcomes calls

end Runs

/-- The times at which calls with the key were admitted. -/
def admitted_at (key : String) (os : List Outcome) : List Nat :=
  (os.filter fun o => o.call.bucket.key = key ∧ o.result.isOk).map fun o => o.call.now

section Keys

/-- The types that the constructors of a bucket write. -/
def bucket_types : List String := ["env", "policy", "agent", "login_user", "client", "register_ip"]

/-- Two buckets from the constructors share a queue only if they are the same. -/
theorem key_inj {a b : RateLimitBucket} (ha : a.type ∈ bucket_types) (hb : b.type ∈ bucket_types)
    (h : a.key = b.key) : a = b := by
  have hcount : ∀ type ∈ bucket_types, type.toList.count ':' = 0 := by decide
  have htexts : a.type.toList ++ [':'] ++ a.name.toList = b.type.toList ++ [':'] ++ b.name.toList := by
    simpa [RateLimitBucket.key] using congrArg String.toList h
  have hsplit := self_delimiting.separated (fun _ _ => String.toList_inj.mp) a.type b.type
    (hcount a.type ha) (hcount b.type hb) _ _ htexts
  cases a
  cases b
  simp only [RateLimitBucket.mk.injEq]
  exact ⟨hsplit.1, String.toList_injective hsplit.2⟩

end Keys

section Check

variable {lim lim' : RateLimiter} {bucket : RateLimitBucket} {max : UInt32} {now : Nat} {key : String}

def RateLimiter.queue (lim : RateLimiter) (key : String) : List Nat :=
  (lim.state key).getD []

/-- On an ordered queue the pruning keeps the entries of the last sixty seconds,
also where the clock is too young for a cutoff. -/
theorem prune_eq_recent {q : List Nat} (hsorted : q.Pairwise (· ≤ ·)) :
    prune (checked_sub now window) q = recent window now q := by
  unfold checked_sub
  split
  case isFalse hyoung =>
    symm
    apply List.filter_eq_self.mpr
    intro t ht
    simp only [decide_eq_true_eq]
    omega
  case isTrue hold =>
    simp only [prune]
    induction q with
    | nil => rfl
    | cons t q ih =>
      rw [pop_expired]
      split
      case isTrue hexpired =>
        rw [recent_cons_of_old (by omega)]
        exact ih hsorted.of_cons
      case isFalse hfresh =>
        rw [recent_cons_of_recent hsorted (by omega)]

theorem check_of_full (hfull : max.toNat ≤ (prune (checked_sub now window) (lim.queue bucket.key)).length) :
    lim.check_and_record_keyed_at bucket max now =
      (⟨Function.update lim.state bucket.key (some (prune (checked_sub now window) (lim.queue bucket.key))),
          ⟨lim.metrics.checks_total + 1, lim.metrics.rejected_total + 1⟩⟩,
        .error ⟨bucket, retry_secs (prune (checked_sub now window) (lim.queue bucket.key)) now⟩) :=
  if_pos hfull

theorem check_of_free (hfree : (prune (checked_sub now window) (lim.queue bucket.key)).length < max.toNat) :
    lim.check_and_record_keyed_at bucket max now =
      (⟨Function.update lim.state bucket.key (some (prune (checked_sub now window) (lim.queue bucket.key) ++ [now])),
          ⟨lim.metrics.checks_total + 1, lim.metrics.rejected_total⟩⟩,
        .ok ()) :=
  if_neg (Nat.not_le.mpr hfree)

theorem check_is_ok_iff :
    (lim.check_and_record_keyed_at bucket max now).2.isOk ↔
      (prune (checked_sub now window) (lim.queue bucket.key)).length < max.toNat := by
  constructor
  · intro hok
    by_contra hfull
    rw [check_of_full (Nat.not_lt.mp hfull)] at hok
    exact Bool.false_ne_true hok
  · intro hfree
    rw [check_of_free hfree]
    rfl

/-- The queue of the key is pruned, and an admitted call goes to its end. -/
theorem queue_check_self :
    (lim.check_and_record_keyed_at bucket max now).1.queue bucket.key =
      prune (checked_sub now window) (lim.queue bucket.key) ++
        if (lim.check_and_record_keyed_at bucket max now).2.isOk then [now] else [] := by
  cases Nat.lt_or_ge (prune (checked_sub now window) (lim.queue bucket.key)).length max.toNat with
  | inl hfree =>
    rw [if_pos (check_is_ok_iff.mpr hfree), check_of_free hfree]
    simp [RateLimiter.queue]
  | inr hfull =>
    rw [if_neg (fun hok => Nat.not_lt.mpr hfull (check_is_ok_iff.mp hok)), check_of_full hfull]
    simp [RateLimiter.queue]

/-- The queues of the other keys stay as they are. -/
theorem queue_check_other (hkey : key ≠ bucket.key) :
    (lim.check_and_record_keyed_at bucket max now).1.queue key = lim.queue key := by
  cases Nat.lt_or_ge (prune (checked_sub now window) (lim.queue bucket.key)).length max.toNat with
  | inl hfree => simp [check_of_free hfree, RateLimiter.queue, hkey]
  | inr hfull => simp [check_of_full hfull, RateLimiter.queue, hkey]

/-- What a call returns is a matter of the queue of its key. -/
theorem check_congr (h : lim.queue bucket.key = lim'.queue bucket.key) :
    (lim.check_and_record_keyed_at bucket max now).2 = (lim'.check_and_record_keyed_at bucket max now).2 := by
  cases Nat.lt_or_ge (prune (checked_sub now window) (lim.queue bucket.key)).length max.toNat with
  | inl hfree => rw [check_of_free hfree, check_of_free (h ▸ hfree)]
  | inr hfull => rw [check_of_full hfull, check_of_full (h ▸ hfull), h]

end Check

section Invariant

variable {cap : String → UInt32} {lim : RateLimiter} {os : List Outcome} {c : Call} {latest : Nat} {key : String}

theorem admitted_at_append {os' : List Outcome} :
    admitted_at key (os ++ os') = admitted_at key os ++ admitted_at key os' := by
  simp [admitted_at]

theorem admitted_at_self {result : Except TooManyRequests Unit} :
    admitted_at c.bucket.key [⟨c, result⟩] = if result.isOk then [c.now] else [] := by
  cases hok : result.isOk <;> simp [admitted_at, hok]

theorem admitted_at_other {result : Except TooManyRequests Unit} (hkey : key ≠ c.bucket.key) :
    admitted_at key [⟨c, result⟩] = [] := by
  simp [admitted_at, hkey.symm]

/-- After the outcomes each queue tracks what was admitted with its key. -/
def Keeps (cap : String → UInt32) (lim : RateLimiter) (os : List Outcome) (latest : Nat) : Prop :=
  ∀ key, Tracks window (cap key).toNat (lim.queue key) (admitted_at key os) latest

theorem keeps_new (cap : String → UInt32) : Keeps cap .new [] 0 :=
  fun _ => tracks_empty

/-- A call is admitted exactly when fewer calls than the cap were admitted in
the last sixty seconds. -/
theorem Keeps.is_ok_iff (h : Keeps cap lim os latest) (hnow : latest ≤ c.now) :
    (lim.check_and_record_keyed_at c.bucket (cap c.bucket.key) c.now).2.isOk ↔
      (recent window c.now (admitted_at c.bucket.key os)).length < (cap c.bucket.key).toNat := by
  have hqueue := h c.bucket.key
  rw [check_is_ok_iff, prune_eq_recent hqueue.sorted, hqueue.recent_kept c.now hnow]

theorem Keeps.step (h : Keeps cap lim os latest) (hnow : latest ≤ c.now) :
    Keeps cap (lim.check_and_record_keyed_at c.bucket (cap c.bucket.key) c.now).1
      (os ++ [⟨c, (lim.check_and_record_keyed_at c.bucket (cap c.bucket.key) c.now).2⟩]) c.now := by
  intro key
  have hwait := (h key).wait hnow
  rw [admitted_at_append]
  by_cases hkey : key = c.bucket.key
  · subst hkey
    have hpruned := hwait.trim
    rw [queue_check_self, admitted_at_self, prune_eq_recent hwait.sorted]
    split
    case isTrue hok =>
      refine hpruned.take ?_
      rw [check_is_ok_iff, prune_eq_recent hwait.sorted] at hok
      rwa [recent_recent (Nat.le_refl _)]
    case isFalse hrejected =>
      simpa using hpruned
  · rw [queue_check_other hkey, admitted_at_other hkey, List.append_nil]
    exact hwait

/-- The invariant at the end of a run on a clock that does not go back. -/
theorem Keeps.run (h : Keeps cap lim os latest) {calls : List Call} (hclock : calls.Pairwise fun a b => a.now ≤ b.now)
    (hlater : ∀ c ∈ calls, latest ≤ c.now) (now : Nat) (hlatest : latest ≤ now) (hnow : ∀ c ∈ calls, c.now ≤ now) :
    Keeps cap (lim.after cap calls) (os ++ lim.outcomes cap calls) now := by
  induction calls generalizing lim os latest with
  | nil =>
    intro key
    simpa [RateLimiter.after, RateLimiter.outcomes] using (h key).wait hlatest
  | cons c calls ih =>
    rw [List.pairwise_cons] at hclock
    rw [List.forall_mem_cons] at hlater hnow
    have hrest := ih (h.step hlater.1) hclock.2 hclock.1 hnow.1 hnow.2
    simpa [RateLimiter.after, RateLimiter.outcomes] using hrest

end Invariant

section Outcomes

variable {cap : String → UInt32} {lim lim' : RateLimiter} {key : String}

/-- An outcome in a run is that of its call after the calls before it. -/
theorem outcomes_split {calls : List Call} {before : List Outcome} {o : Outcome} {rest : List Outcome}
    (h : lim.outcomes cap calls = before ++ o :: rest) :
    ∃ earlier later, calls = earlier ++ o.call :: later ∧ before = lim.outcomes cap earlier ∧
      o.result = ((lim.after cap earlier).check_and_record_keyed_at o.call.bucket (cap o.call.bucket.key) o.call.now).2 := by
  induction calls generalizing lim before with
  | nil => simp [RateLimiter.outcomes] at h
  | cons c calls ih =>
    rw [RateLimiter.outcomes] at h
    cases before with
    | nil =>
      obtain ⟨rfl, -⟩ := List.cons.inj h
      exact ⟨[], calls, rfl, rfl, rfl⟩
    | cons first before =>
      obtain ⟨rfl, htail⟩ := List.cons.inj h
      obtain ⟨earlier, later, rfl, rfl, hresult⟩ := ih htail
      exact ⟨c :: earlier, later, rfl, rfl, hresult⟩

/-- The calls with one key fare as they would alone. -/
theorem outcomes_of_key (h : lim.queue key = lim'.queue key) (calls : List Call) :
    (lim.outcomes cap calls).filter (fun o => o.call.bucket.key = key) =
      lim'.outcomes cap (calls.filter fun c => c.bucket.key = key) := by
  induction calls generalizing lim lim' with
  | nil => rfl
  | cons c calls ih =>
    rw [RateLimiter.outcomes]
    by_cases hkey : c.bucket.key = key
    · subst hkey
      rw [List.filter_cons_of_pos (by simp), List.filter_cons_of_pos (by simp), RateLimiter.outcomes, check_congr h]
      congr 1
      apply ih
      rw [queue_check_self, queue_check_self, check_congr h, h]
    · rw [List.filter_cons_of_neg (by simpa using hkey), List.filter_cons_of_neg (by simpa using hkey)]
      apply ih
      rw [queue_check_other (Ne.symm hkey), h]

end Outcomes

section Admission

/-- What a limiter promises of the outcomes of the calls. -/
structure SlidingWindow (cap : String → UInt32) (calls : List Call) (os : List Outcome) : Prop where
  /-- No half-open window of sixty seconds holds more admitted calls of a key than its cap. -/
  at_most : ∀ key start, (between start (start + window) (admitted_at key os)).length ≤ (cap key).toNat
  /-- A call is rejected exactly when the cap was admitted in the sixty seconds before. -/
  rejected : ∀ before o rest, os = before ++ o :: rest →
    (¬ o.result.isOk ↔
      (cap o.call.bucket.key).toNat ≤ (recent window o.call.now (admitted_at o.call.bucket.key before)).length)
  /-- The other keys have no influence. -/
  separate : ∀ key, os.filter (fun o => o.call.bucket.key = key) =
    RateLimiter.new.outcomes cap (calls.filter fun c => c.bucket.key = key)

variable {cap : String → UInt32} {calls : List Call}

private theorem exists_latest (calls : List Call) : ∃ now, ∀ c ∈ calls, c.now ≤ now := by
  induction calls with
  | nil => exact ⟨0, by simp⟩
  | cons c calls ih =>
    obtain ⟨now, hnow⟩ := ih
    refine ⟨max c.now now, ?_⟩
    rw [List.forall_mem_cons]
    exact ⟨Nat.le_max_left _ _, fun d hd => Nat.le_trans (hnow d hd) (Nat.le_max_right _ _)⟩

/-- On a clock that does not go back the limiter admits by a sliding window for each key. -/
theorem keyed_at_is_sliding_window (hclock : calls.Pairwise fun a b => a.now ≤ b.now) :
    SlidingWindow cap calls (RateLimiter.new.outcomes cap calls) where
  at_most key start := by
    obtain ⟨now, hnow⟩ := exists_latest calls
    have hkeeps := (keeps_new cap).run hclock (fun _ _ => Nat.zero_le _) now (Nat.zero_le _) hnow
    have hlog := (hkeeps key).admitted.between_le start
    exact Nat.le_trans (between_mono (Nat.le_succ _)) hlog
  rejected before o rest hsplit := by
    obtain ⟨earlier, later, rfl, rfl, hresult⟩ := outcomes_split hsplit
    rw [List.pairwise_append] at hclock
    have hbefore := hclock.2.2
    have hkeeps := (keeps_new cap).run hclock.1 (fun _ _ => Nat.zero_le _) o.call.now (Nat.zero_le _)
      fun c hc => hbefore c hc o.call List.mem_cons_self
    rw [hresult, hkeeps.is_ok_iff (Nat.le_refl _), Nat.not_lt, List.nil_append]
  separate key := outcomes_of_key rfl calls

end Admission

section Samples

/-- Two calls at once, one exactly sixty seconds later and one after that. -/
def four_calls : List Call :=
  [⟨.env "prod", 0⟩, ⟨.env "prod", 0⟩, ⟨.env "prod", window⟩, ⟨.env "prod", window + 1⟩]

theorem four_calls_are_windowed :
    SlidingWindow (fun _ => 2) four_calls (RateLimiter.new.outcomes (fun _ => 2) four_calls) :=
  keyed_at_is_sliding_window (by decide)

/-- The call on the boundary is still rejected. -/
example : (RateLimiter.new.outcomes (fun _ => 2) four_calls).map (fun o => o.result.isOk) =
    [true, true, false, true] := by
  decide

end Samples

structure RateLimitConfig where
  operations_per_minute : Option UInt32 := none
  agent_requests_per_minute : Option UInt32 := none
  login_per_minute_per_user : Option UInt32 := some 10
  login_per_minute_per_ip : Option UInt32 := some 30
  register_per_minute_per_ip : Option UInt32 := some 20

/-- The caps of the limiter; a cap of zero disables its check. -/
structure Limits where
  max_per_minute : UInt32
  agent_max_per_minute : UInt32
  login_user_max_per_minute : UInt32
  login_ip_max_per_minute : UInt32
  register_ip_max_per_minute : UInt32

def norm (cap : Option UInt32) : UInt32 := (cap.filter fun n => 0 < n).getD 0

/-- The caps after `from_config` and after `apply_config`, which leaves the queues. -/
def Limits.from_config (cfg : RateLimitConfig) : Limits where
  max_per_minute := norm cfg.operations_per_minute
  agent_max_per_minute := norm cfg.agent_requests_per_minute
  login_user_max_per_minute := norm cfg.login_per_minute_per_user
  login_ip_max_per_minute := norm cfg.login_per_minute_per_ip
  register_ip_max_per_minute := norm cfg.register_per_minute_per_ip

/-- The check of a bucket, when its cap is not zero. -/
def RateLimiter.check_and_record_enabled (lim : RateLimiter) (bucket : RateLimitBucket) (max : UInt32) (now : Nat) :
    RateLimiter × Except TooManyRequests Unit :=
  if max = 0 then (lim, .ok ()) else lim.check_and_record_keyed_at bucket max now

/-- A login, with the instants at which its two buckets are checked. -/
structure Login where
  username : String
  client_ip : String
  user_at : Nat
  ip_at : Nat
  clock : user_at ≤ ip_at

def RateLimiter.check_and_record_login (lim : RateLimiter) (limits : Limits) (login : Login) :
    RateLimiter × Except TooManyRequests Unit :=
  match lim.check_and_record_enabled (.login_user login.username) limits.login_user_max_per_minute login.user_at with
  | (lim, .error e) => (lim, .error e)
  | (lim, .ok ()) => lim.check_and_record_enabled (.client login.client_ip) limits.login_ip_max_per_minute login.ip_at

/-- The policies with a cap. -/
def active_policies (policies : List (String × UInt32)) : List (RateLimitBucket × UInt32) :=
  (policies.filter fun p => 0 < p.2).map fun p => (.policy p.1, p.2)

/-- The first phase of `check_and_record_policies`: every bucket is pruned, up to the first that is full. -/
def RateLimiter.check_all (lim : RateLimiter) (now : Nat) :
    List (RateLimitBucket × UInt32) → RateLimiter × Except TooManyRequests Unit
  | [] => (lim, .ok ())
  | (bucket, max) :: active =>
    let checks_total := lim.metrics.checks_total + 1
    let q := prune (checked_sub now window) ((lim.state bucket.key).getD [])
    let state := Function.update lim.state bucket.key (some q)
    if max.toNat ≤ q.length then
      (⟨state, ⟨checks_total, lim.metrics.rejected_total + 1⟩⟩, .error ⟨bucket, retry_secs q now⟩)
    else
      RateLimiter.check_all ⟨state, ⟨checks_total, lim.metrics.rejected_total⟩⟩ now active

/-- The second phase: every bucket gains an entry. -/
def RateLimiter.record_all (lim : RateLimiter) (now : Nat) : List (RateLimitBucket × UInt32) → RateLimiter
  | [] => lim
  | (bucket, _) :: active =>
    RateLimiter.record_all
      { lim with state := Function.update lim.state bucket.key (some ((lim.state bucket.key).getD [] ++ [now])) } now active

def RateLimiter.check_and_record_policies (lim : RateLimiter) (policies : List (String × UInt32)) (now : Nat) :
    RateLimiter × Except TooManyRequests Unit :=
  let active := active_policies policies
  if active.isEmpty then (lim, .ok ())
  else
    match lim.check_all now active with
    | (lim, .error e) => (lim, .error e)
    | (lim, .ok ()) => (lim.record_all now active, .ok ())

/-- The entries of the bucket that count at an instant. -/
def RateLimiter.current (lim : RateLimiter) (bucket : RateLimitBucket) (now : Nat) : List Nat :=
  prune (checked_sub now window) (lim.queue bucket.key)

/-- The bucket has no room for another entry. -/
def RateLimiter.full (lim : RateLimiter) (bucket : RateLimitBucket) (max : UInt32) (now : Nat) : Prop :=
  max.toNat ≤ (lim.current bucket now).length

instance (lim : RateLimiter) (bucket : RateLimitBucket) (max : UInt32) (now : Nat) : Decidable (lim.full bucket max now) :=
  inferInstanceAs (Decidable (_ ≤ _))

section Prune

variable {now later : Nat} {q : List Nat}

/-- The entries that have left the window. -/
def expired (now t : Nat) : Bool := decide (t + window < now)

private theorem pop_expired_eq (cutoff : Nat) (q : List Nat) : pop_expired cutoff q = q.dropWhile fun t => decide (t < cutoff) := by
  induction q with
  | nil => rfl
  | cons t q ih =>
    rw [pop_expired, List.dropWhile_cons]
    by_cases hlt : t < cutoff
    · simp [hlt, ih]
    · simp [hlt]

/-- Entries are dropped from the front while they are more than sixty seconds old. -/
theorem prune_eq (now : Nat) (q : List Nat) : prune (checked_sub now window) q = q.dropWhile (expired now) := by
  rw [checked_sub]
  split
  · next hold =>
    have hcutoff : (fun t => decide (t < now - window)) = expired now := by
      funext t
      simp only [expired, decide_eq_decide]
      omega
    rw [prune, pop_expired_eq, hcutoff]
  · next hyoung =>
    have hnone : expired now = fun _ => false := by
      funext t
      simp only [expired, decide_eq_false_iff_not]
      omega
    rw [prune, hnone]
    cases q with
    | nil => rfl
    | cons t q => rfl

/-- Pruning twice is pruning at the later instant. -/
theorem prune_prune (h : now ≤ later) :
    prune (checked_sub later window) (prune (checked_sub now window) q) = prune (checked_sub later window) q := by
  rw [prune_eq, prune_eq, prune_eq]
  induction q with
  | nil => rfl
  | cons t q ih =>
    rw [List.dropWhile_cons]
    split
    · next hexpired =>
      have hlater : expired later t = true := by
        simp only [expired, decide_eq_true_eq] at hexpired ⊢
        omega
      rw [ih, List.dropWhile_cons, if_pos hlater]
    · rfl

end Prune

end iac_controlplane.rate_limit
