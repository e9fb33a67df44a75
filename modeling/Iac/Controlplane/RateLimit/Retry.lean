import Iac.Controlplane.RateLimit.Atomic

open sliding_window

namespace iac_controlplane.rate_limit

variable {lim mid : RateLimiter} {bucket : RateLimitBucket} {cap : UInt32} {now later : Nat} {q : List Nat}

section Hint

private theorem length_dropWhile_lt_iff {p : Nat → Bool} {n : Nat} (h : 0 < n) :
    (q.dropWhile p).length < n ↔ ∀ t ∈ q.take (q.length + 1 - n), p t := by
  induction q with
  | nil => simpa using h
  | cons t q ih =>
    rw [List.dropWhile_cons, List.length_cons]
    by_cases hfits : n ≤ q.length + 1
    · have htake : q.length + 1 + 1 - n = q.length + 1 - n + 1 := by omega
      rw [htake, List.take_succ_cons, List.forall_mem_cons]
      by_cases hp : p t
      · rw [if_pos hp, ih, and_iff_right hp]
      · rw [if_neg hp, List.length_cons]
        exact iff_of_false (by omega) fun hall => hp hall.1
    · have htake : q.length + 1 + 1 - n = 0 := by omega
      rw [htake, List.take_zero]
      refine iff_of_true ?_ (by simp)
      have hdropped := (List.dropWhile_suffix (l := q) p).length_le
      split
      · omega
      · rw [List.length_cons]
        omega

/-- The entries before this instant have left the window when the hint for the queue is over. -/
def hint_cutoff (q : List Nat) (now : Nat) : Nat :=
  match q.head? with
  | none => now
  | some t => if now - t < window then now - (now - t) / nanos_per_sec * nanos_per_sec else t + nanos_per_sec

theorem expired_after_hint_iff (hcounts : ∀ t ∈ q.head?, ¬ expired now t) (t : Nat) :
    expired (now + retry_secs q now * nanos_per_sec) t ↔ t < hint_cutoff q now := by
  rw [expired, decide_eq_true_iff]
  cases hhead : q.head? with
  | none =>
    simp [hint_cutoff, retry_secs, hhead, window]
  | some first =>
    have hage : now - first ≤ window := by
      have hfirst := hcounts first hhead
      rw [expired, decide_eq_true_iff] at hfirst
      omega
    have hretry : retry_secs q now = max (60 - (now - first) / nanos_per_sec) 1 := by
      rw [retry_secs, hhead]
      rfl
    have hcutoff : hint_cutoff q now =
        if now - first < window then now - (now - first) / nanos_per_sec * nanos_per_sec else first + nanos_per_sec := by
      rw [hint_cutoff, hhead]
    rw [hretry, hcutoff]
    by_cases hyoung : now - first < window
    · rw [if_pos hyoung]
      simp only [window, nanos_per_sec] at hyoung ⊢
      omega
    · rw [if_neg hyoung]
      simp only [window, nanos_per_sec] at hage hyoung ⊢
      omega

/-- The entries that must leave before the queue has room for another one are before the instant. -/
def frees (q : List Nat) (cap : UInt32) (cutoff : Nat) : Prop :=
  ∀ t ∈ q.take (q.length + 1 - cap.toNat), t < cutoff

instance (q : List Nat) (cap : UInt32) (cutoff : Nat) : Decidable (frees q cap cutoff) :=
  inferInstanceAs (Decidable (∀ t ∈ q.take (q.length + 1 - cap.toNat), t < cutoff))

theorem full_mono (hfull : lim.full bucket cap later) (h : now ≤ later) : lim.full bucket cap now :=
  Nat.le_trans hfull (current_length_le h)

/-- A bucket has room from the end of the hint on exactly when the queue is freed by then. -/
theorem frees_iff {hinted : List Nat} (hcap : cap ≠ 0) (hcounts : ∀ t ∈ hinted.head?, ¬ expired now t) :
    ¬ lim.full bucket cap (now + retry_secs hinted now * nanos_per_sec) ↔
      frees (lim.queue bucket.key) cap (hint_cutoff hinted now) := by
  have hpos : 0 < cap.toNat := by
    by_contra hzero
    exact hcap (UInt32.toNat_inj.mp (Nat.eq_zero_of_not_pos hzero))
  rw [RateLimiter.full, RateLimiter.current, prune_eq, Nat.not_le, length_dropWhile_lt_iff hpos, frees]
  exact forall₂_congr fun t _ => expired_after_hint_iff hcounts t

theorem current_head_counts (lim : RateLimiter) (bucket : RateLimitBucket) (now : Nat) :
    ∀ t ∈ (lim.current bucket now).head?, ¬ expired now t := by
  intro t ht hexpired
  rw [RateLimiter.current, prune_eq, Option.mem_def] at ht
  have hhead := List.head?_dropWhile_not (expired now) (lim.queue bucket.key)
  rw [ht] at hhead
  exact absurd hexpired (by simpa using hhead)

/-- A bucket has room at every instant after the hint when it has at the first. -/
theorem free_after_iff {instant : Nat} :
    (∀ later, instant ≤ later → ¬ lim.full bucket cap later) ↔ ¬ lim.full bucket cap instant :=
  ⟨fun h => h instant (Nat.le_refl _), fun h _ hlater hfull => h (full_mono hfull hlater)⟩

end Hint

section Calls

variable {policies : List (String × UInt32)} {limits : Limits} {login : Login}

/-- Whoever repeats a rejected check when its hint is over, or later, is
admitted; other buckets may have changed in between. -/
def HonestCheck (lim : RateLimiter) (bucket : RateLimitBucket) (cap : UInt32) (now : Nat) : Prop :=
  ∀ e, (lim.check_and_record_keyed_at bucket cap now).2 = .error e →
    ∀ mid : RateLimiter, mid.queue bucket.key = (lim.check_and_record_keyed_at bucket cap now).1.queue bucket.key →
      ∀ later, now + e.retry_after_secs * nanos_per_sec ≤ later →
        (mid.check_and_record_keyed_at bucket cap later).2.isOk

/-- The same of a batch. -/
def HonestBatch (lim : RateLimiter) (policies : List (String × UInt32)) (now : Nat) : Prop :=
  ∀ e, (lim.check_and_record_policies policies now).2 = .error e →
    ∀ mid : RateLimiter, (∀ entry ∈ active_policies policies,
      mid.queue entry.1.key = (lim.check_and_record_policies policies now).1.queue entry.1.key) →
      ∀ later, now + e.retry_after_secs * nanos_per_sec ≤ later → (mid.check_and_record_policies policies later).2.isOk

/-- The instant at which one of the buckets of a login is checked. -/
def Login.checked_at (login : Login) (bucket : RateLimitBucket) : Nat :=
  if bucket = .login_user login.username then login.user_at else login.ip_at

/-- The same of a login. -/
def HonestLogin (lim : RateLimiter) (limits : Limits) (login : Login) : Prop :=
  ∀ e, (lim.check_and_record_login limits login).2 = .error e →
    ∀ mid : RateLimiter, (∀ bucket ∈ [RateLimitBucket.login_user login.username, .client login.client_ip],
      mid.queue bucket.key = (lim.check_and_record_login limits login).1.queue bucket.key) →
      ∀ again : Login, again.username = login.username → again.client_ip = login.client_ip →
        login.checked_at e.bucket + e.retry_after_secs * nanos_per_sec ≤ again.user_at →
          (mid.check_and_record_login limits again).2.isOk

private theorem check_error_iff {e : TooManyRequests} :
    (lim.check_and_record_keyed_at bucket cap now).2 = .error e ↔
      lim.full bucket cap now ∧ e = ⟨bucket, retry_secs (lim.current bucket now) now⟩ := by
  by_cases hfull : lim.full bucket cap now
  · rw [check_of_full hfull, and_iff_right hfull]
    exact ⟨fun h => (Except.error.inj h).symm, fun h => congrArg _ h.symm⟩
  · rw [check_of_free (Nat.not_le.mp hfull)]
    exact iff_of_false (by simp) fun h => hfull h.1

/-- A full bucket still has the entries that count. -/
private theorem full_after_check {instant : Nat} (hfull : lim.full bucket cap now) (hlater : now ≤ instant)
    (hmid : mid.queue bucket.key = (lim.check_and_record_keyed_at bucket cap now).1.queue bucket.key) (cap' : UInt32) :
    mid.full bucket cap' instant ↔ lim.full bucket cap' instant := by
  rw [check_of_full hfull] at hmid
  have hqueue : mid.queue bucket.key = lim.current bucket now := hmid.trans (queue_update_self _ _)
  rw [RateLimiter.full, RateLimiter.full, RateLimiter.current, hqueue, RateLimiter.current, prune_prune hlater,
    RateLimiter.current]

/-- The hint of a check is honest exactly when the bucket has room, or the
entries that must leave have left the window by then. -/
theorem honest_check_iff (hcap : cap ≠ 0) : HonestCheck lim bucket cap now ↔
    (lim.full bucket cap now → frees (lim.queue bucket.key) cap (hint_cutoff (lim.current bucket now) now)) := by
  rw [← frees_iff hcap (current_head_counts lim bucket now), ← free_after_iff]
  constructor
  · intro h hfull later hlater hstill
    have hnow : now ≤ later := Nat.le_trans (Nat.le_add_right _ _) hlater
    have hok := h _ (check_error_iff.mpr ⟨hfull, rfl⟩) _ rfl later hlater
    rw [check_is_ok_iff] at hok
    exact Nat.not_le.mpr hok ((full_after_check hfull hnow rfl cap).mpr hstill)
  · intro h e herror mid hmid later hlater
    obtain ⟨hfull, rfl⟩ := check_error_iff.mp herror
    have hnow : now ≤ later := Nat.le_trans (Nat.le_add_right _ _) hlater
    rw [check_is_ok_iff]
    exact Nat.not_le.mp (mt (full_after_check hfull hnow hmid cap).mp (h hfull later hlater))

/-- The first policy whose bucket is full. -/
def RateLimiter.first_full (lim : RateLimiter) (policies : List (String × UInt32)) (now : Nat) :
    Option (RateLimitBucket × UInt32) :=
  (active_policies policies).find? fun entry => lim.full entry.1 entry.2 now

private theorem batch_cases (lim : RateLimiter) (policies : List (String × UInt32)) (now : Nat) :
    (∃ entry, lim.first_full policies now = some entry ∧ (lim.check_and_record_policies policies now).2 =
        .error ⟨entry.1, retry_secs (lim.current entry.1 now) now⟩ ∧
        ∀ bucket later, now ≤ later →
          (lim.check_and_record_policies policies now).1.current bucket later = lim.current bucket later) ∨
      lim.first_full policies now = none ∧ (lim.check_and_record_policies policies now).2 = .ok () := by
  rw [RateLimiter.first_full, RateLimiter.check_and_record_policies]
  generalize active_policies policies = active
  by_cases hempty : active = []
  · exact .inr (by simp [hempty])
  rw [if_neg (by simpa using hempty)]
  have hcases := check_all_cases lim now active
  have hcurrent := fun bucket later (hlater : now ≤ later) => check_all_current lim active bucket hlater
  generalize lim.check_all now active = checked at hcases hcurrent
  obtain ⟨pruned, result⟩ := checked
  obtain ⟨passed, bucket, cap, rest, hactive, hpassed, hfull, herror⟩ | ⟨hfree, hok, -⟩ := hcases
  · simp only at herror
    subst herror
    refine .inl ⟨(bucket, cap), ?_, rfl, hcurrent⟩
    rw [List.find?_eq_some_iff_append]
    exact ⟨by simpa using hfull, passed, rest, hactive, fun entry hentry => by simpa using hpassed entry hentry⟩
  · simp only at hok
    subst hok
    refine .inr ⟨?_, rfl⟩
    rw [List.find?_eq_none]
    exact fun entry hentry => by simpa using hfree entry hentry

private theorem batch_isOk_iff : (lim.check_and_record_policies policies now).2.isOk ↔
    ∀ entry ∈ active_policies policies, ¬ lim.full entry.1 entry.2 now := by
  have hnone : lim.first_full policies now = none ↔ ∀ entry ∈ active_policies policies, ¬ lim.full entry.1 entry.2 now := by
    simp [RateLimiter.first_full]
  rw [← hnone]
  obtain ⟨entry, hsome, herror, -⟩ | ⟨hfree, hok⟩ := batch_cases lim policies now
  · rw [hsome, herror]
    exact iff_of_false Bool.false_ne_true (by simp)
  · rw [hfree, hok]
    exact iff_of_true rfl rfl

private theorem active_cap_ne_zero {entry : RateLimitBucket × UInt32} (h : entry ∈ active_policies policies) : entry.2 ≠ 0 := by
  simp only [active_policies, List.mem_map, List.mem_filter, decide_eq_true_eq] at h
  obtain ⟨policy, ⟨-, hpositive⟩, rfl⟩ := h
  exact (UInt32.ne_of_lt hpositive).symm

/-- The hint of a batch is honest exactly when the entries that must leave any
of its buckets have left the window when the hint of the first full one is over. -/
theorem honest_batch_iff : HonestBatch lim policies now ↔
    ∀ entry ∈ lim.first_full policies now, ∀ other ∈ active_policies policies,
      frees (lim.queue other.1.key) other.2 (hint_cutoff (lim.current entry.1 now) now) := by
  obtain ⟨entry, hsome, herror, hcurrent⟩ | ⟨hfree, hok⟩ := batch_cases lim policies now
  · have hfrees (other) (hother : other ∈ active_policies policies) :
        frees (lim.queue other.1.key) other.2 (hint_cutoff (lim.current entry.1 now) now) ↔
          ∀ later, now + retry_secs (lim.current entry.1 now) now * nanos_per_sec ≤ later →
            ¬ lim.full other.1 other.2 later := by
      rw [← frees_iff (active_cap_ne_zero hother) (current_head_counts lim entry.1 now), free_after_iff]
    rw [hsome]
    constructor
    · rintro h _ ⟨⟩ other hother
      rw [hfrees other hother]
      intro later hlater hfull
      have hadmitted := batch_isOk_iff.mp (h _ herror _ (fun _ _ => rfl) later hlater) other hother
      rw [RateLimiter.full, hcurrent _ _ (Nat.le_trans (Nat.le_add_right _ _) hlater)] at hadmitted
      exact hadmitted hfull
    · intro h e he mid hmid later hlater
      obtain rfl := Except.error.inj (herror.symm.trans he)
      rw [batch_isOk_iff]
      intro other hother
      have hroom := (hfrees other hother).mp (h entry rfl other hother) later hlater
      rw [RateLimiter.full, ← hcurrent _ _ (Nat.le_trans (Nat.le_add_right _ _) hlater)] at hroom
      rwa [RateLimiter.full, RateLimiter.current, hmid other hother]
  · rw [hfree]
    refine iff_of_true (fun e he => ?_) (by simp)
    exact absurd (hok.symm.trans he) (by simp)

private theorem enabled_error_iff {e : TooManyRequests} : (lim.check_and_record_enabled bucket cap now).2 = .error e ↔
    (cap ≠ 0 ∧ lim.full bucket cap now) ∧ e = ⟨bucket, retry_secs (lim.current bucket now) now⟩ := by
  rw [RateLimiter.check_and_record_enabled]
  split
  · next hzero => exact iff_of_false (by simp) fun h => h.1.1 hzero
  · next hnonzero => rw [check_error_iff, and_iff_right hnonzero]

/-- What a check leaves of its own bucket when it refuses. -/
private theorem queue_of_refused (henabled : cap ≠ 0) (hfull : lim.full bucket cap now) :
    (lim.check_and_record_enabled bucket cap now).1.queue bucket.key = lim.current bucket now := by
  rw [RateLimiter.check_and_record_enabled, if_neg henabled, check_of_full hfull]
  exact queue_update_self _ _

private theorem login_isOk_iff : (lim.check_and_record_login limits login).2.isOk ↔
    (limits.login_user_max_per_minute ≠ 0 →
      ¬ lim.full (.login_user login.username) limits.login_user_max_per_minute login.user_at) ∧
    (limits.login_ip_max_per_minute ≠ 0 →
      ¬ lim.full (.client login.client_ip) limits.login_ip_max_per_minute login.ip_at) := by
  rw [← not_and, ← not_and, ← rejected_iff, ← rejected_iff, not_not, not_not]
  by_cases huser : (lim.check_user limits login).2.isOk
  · rw [login_of_passed huser]
    refine Iff.trans ?_ (and_iff_right huser).symm
    have hqueue : (lim.check_user limits login).1.queue (RateLimitBucket.client login.client_ip).key =
        lim.queue (RateLimitBucket.client login.client_ip).key :=
      queue_enabled_other (client_key_ne login.username login.client_ip)
    rw [← not_iff_not, rejected_iff, rejected_iff]
    exact and_congr_right fun _ => full_congr hqueue
  · rw [login_of_refused huser]
    exact iff_of_false huser fun h => huser h.1

/-- The login is refused for its username. -/
def UserRefuses (lim : RateLimiter) (limits : Limits) (login : Login) : Prop :=
  limits.login_user_max_per_minute ≠ 0 ∧
    lim.full (.login_user login.username) limits.login_user_max_per_minute login.user_at

/-- The login passes for its username and is refused for its address. -/
def AddressRefuses (lim : RateLimiter) (limits : Limits) (login : Login) : Prop :=
  ¬ UserRefuses lim limits login ∧ limits.login_ip_max_per_minute ≠ 0 ∧
    lim.full (.client login.client_ip) limits.login_ip_max_per_minute login.ip_at

private theorem HonestLogin.admits {after : RateLimiter} {e : TooManyRequests} {instant : Nat} (h : HonestLogin lim limits login)
    (hcheck : lim.check_and_record_login limits login = (after, .error e))
    (hlater : login.checked_at e.bucket + e.retry_after_secs * nanos_per_sec ≤ instant) :
    (limits.login_user_max_per_minute ≠ 0 →
      ¬ after.full (.login_user login.username) limits.login_user_max_per_minute instant) ∧
    (limits.login_ip_max_per_minute ≠ 0 → ¬ after.full (.client login.client_ip) limits.login_ip_max_per_minute instant) := by
  have hafter : (lim.check_and_record_login limits login).1 = after := congrArg Prod.fst hcheck
  have herror : (lim.check_and_record_login limits login).2 = .error e := congrArg Prod.snd hcheck
  exact login_isOk_iff.mp
    (h e herror after (fun _ _ => by rw [hafter]) (.at_once login.username login.client_ip instant) rfl rfl hlater)

/-- The hint of a rejected login is honest exactly when both buckets have room from its end on. -/
private theorem honest_of_rejected {after : RateLimiter} {e : TooManyRequests} {rejected_at : Nat}
    (hcheck : lim.check_and_record_login limits login = (after, .error e)) (hchecked : login.checked_at e.bucket = rejected_at)
    (hretry : e.retry_after_secs = retry_secs (lim.current e.bucket rejected_at) rejected_at) :
    HonestLogin lim limits login ↔
      (limits.login_user_max_per_minute ≠ 0 →
        frees (after.queue (RateLimitBucket.login_user login.username).key) limits.login_user_max_per_minute
          (hint_cutoff (lim.current e.bucket rejected_at) rejected_at)) ∧
      (limits.login_ip_max_per_minute ≠ 0 →
        frees (after.queue (RateLimitBucket.client login.client_ip).key) limits.login_ip_max_per_minute
          (hint_cutoff (lim.current e.bucket rejected_at) rejected_at)) := by
  have hcounts := current_head_counts lim e.bucket rejected_at
  have hfrees (bucket : RateLimitBucket) {cap : UInt32} (hcap : cap ≠ 0) :
      ¬ after.full bucket cap (rejected_at + e.retry_after_secs * nanos_per_sec) ↔
        frees (after.queue bucket.key) cap (hint_cutoff (lim.current e.bucket rejected_at) rejected_at) := by
    rw [hretry]
    exact frees_iff hcap hcounts
  constructor
  · intro hhonest
    have hroom := hhonest.admits hcheck (Nat.le_refl _)
    rw [hchecked] at hroom
    exact ⟨fun huser => (hfrees _ huser).mp (hroom.1 huser), fun hip => (hfrees _ hip).mp (hroom.2 hip)⟩
  · rintro ⟨huser, hip⟩ e' he mid hmid again husername haddress hlater
    rw [hcheck] at he hmid
    obtain rfl := Except.error.inj he
    rw [hchecked] at hlater
    rw [login_isOk_iff, husername, haddress, full_congr (hmid _ (by simp)), full_congr (hmid _ (by simp))]
    refine ⟨fun henabled => ?_, fun henabled => ?_⟩
    · exact free_after_iff.mpr ((hfrees _ henabled).mpr (huser henabled)) _ hlater
    · exact free_after_iff.mpr ((hfrees _ henabled).mpr (hip henabled)) _ (Nat.le_trans hlater again.clock)

/-- When the hint of a login is over, the entries that must leave its buckets,
its own charge included, have left the window. -/
structure LoginFreed (lim : RateLimiter) (limits : Limits) (login : Login) : Prop where
  by_username : UserRefuses lim limits login →
    frees (lim.current (.login_user login.username) login.user_at) limits.login_user_max_per_minute
      (hint_cutoff (lim.current (.login_user login.username) login.user_at) login.user_at) ∧
    (limits.login_ip_max_per_minute ≠ 0 →
      frees (lim.queue (RateLimitBucket.client login.client_ip).key) limits.login_ip_max_per_minute
        (hint_cutoff (lim.current (.login_user login.username) login.user_at) login.user_at))
  by_address : AddressRefuses lim limits login →
    (limits.login_user_max_per_minute ≠ 0 →
      frees (lim.current (.login_user login.username) login.user_at ++ [login.user_at]) limits.login_user_max_per_minute
        (hint_cutoff (lim.current (.client login.client_ip) login.ip_at) login.ip_at)) ∧
    frees (lim.current (.client login.client_ip) login.ip_at) limits.login_ip_max_per_minute
      (hint_cutoff (lim.current (.client login.client_ip) login.ip_at) login.ip_at)

private theorem honest_of_user_refuses (h : UserRefuses lim limits login) :
    HonestLogin lim limits login ↔ LoginFreed lim limits login := by
  have hrefused : ¬ (lim.check_user limits login).2.isOk := rejected_iff.mpr h
  have herror : (lim.check_user limits login).2 = .error ⟨.login_user login.username,
      retry_secs (lim.current (.login_user login.username) login.user_at) login.user_at⟩ :=
    enabled_error_iff.mpr ⟨h, rfl⟩
  have hcheck : lim.check_and_record_login limits login = ((lim.check_user limits login).1, .error ⟨.login_user login.username,
      retry_secs (lim.current (.login_user login.username) login.user_at) login.user_at⟩) := by
    rw [login_of_refused hrefused, ← herror]
  have huser : (lim.check_user limits login).1.queue (RateLimitBucket.login_user login.username).key =
      lim.current (.login_user login.username) login.user_at := queue_of_refused h.1 h.2
  have hip : (lim.check_user limits login).1.queue (RateLimitBucket.client login.client_ip).key =
      lim.queue (RateLimitBucket.client login.client_ip).key := queue_enabled_other (client_key_ne _ _)
  rw [honest_of_rejected hcheck (if_pos rfl) rfl, huser, hip, imp_iff_right h.1]
  exact ⟨fun hroom => ⟨fun _ => hroom, fun haddress => absurd h haddress.1⟩, fun hfreed => hfreed.by_username h⟩

private theorem honest_of_address_refuses (h : AddressRefuses lim limits login) :
    HonestLogin lim limits login ↔ LoginFreed lim limits login := by
  obtain ⟨huser, hip, hfull⟩ := h
  have hpassed : (lim.check_user limits login).2.isOk := by
    by_contra hrefused
    exact huser (rejected_iff.mp hrefused)
  generalize hmid : (lim.check_user limits login).1 = mid
  have haddress : mid.queue (RateLimitBucket.client login.client_ip).key =
      lim.queue (RateLimitBucket.client login.client_ip).key := by
    rw [← hmid]
    exact queue_enabled_other (client_key_ne _ _)
  have hcurrent : mid.current (.client login.client_ip) login.ip_at = lim.current (.client login.client_ip) login.ip_at := by
    rw [RateLimiter.current, haddress, RateLimiter.current]
  have hstill : mid.full (.client login.client_ip) limits.login_ip_max_per_minute login.ip_at :=
    (full_congr haddress).mpr hfull
  have herror := enabled_error_iff.mpr ⟨⟨hip, hstill⟩, rfl⟩
  rw [hcurrent] at herror
  generalize hafter : (mid.check_and_record_enabled (.client login.client_ip) limits.login_ip_max_per_minute login.ip_at).1 =
    after
  have hcheck : lim.check_and_record_login limits login = (after, .error ⟨.client login.client_ip,
      retry_secs (lim.current (.client login.client_ip) login.ip_at) login.ip_at⟩) := by
    rw [login_of_passed hpassed, hmid, ← herror, ← hafter]
  have hchecked : login.checked_at (.client login.client_ip) = login.ip_at :=
    if_neg (by simp [RateLimitBucket.client, RateLimitBucket.login_user])
  have hclient : after.queue (RateLimitBucket.client login.client_ip).key =
      lim.current (.client login.client_ip) login.ip_at := by
    rw [← hafter, queue_of_refused hip hstill, hcurrent]
  have hcharged (henabled : limits.login_user_max_per_minute ≠ 0) :
      after.queue (RateLimitBucket.login_user login.username).key =
        lim.current (.login_user login.username) login.user_at ++ [login.user_at] := by
    rw [← hafter, queue_enabled_other (client_key_ne _ _).symm, ← hmid]
    exact (queue_of_admitted henabled fun hfull => huser ⟨henabled, hfull⟩).2.1
  rw [honest_of_rejected hcheck hchecked rfl, hclient, imp_iff_right hip]
  constructor
  · rintro ⟨hcharge, hroom⟩
    exact ⟨fun hrefused => absurd hrefused huser, fun _ => ⟨fun henabled => hcharged henabled ▸ hcharge henabled, hroom⟩⟩
  · intro hfreed
    obtain ⟨hcharge, hroom⟩ := hfreed.by_address ⟨huser, hip, hfull⟩
    exact ⟨fun henabled => (hcharged henabled).symm ▸ hcharge henabled, hroom⟩

private theorem honest_of_admitted (huser : ¬ UserRefuses lim limits login) (haddress : ¬ AddressRefuses lim limits login) :
    HonestLogin lim limits login := by
  have hok : (lim.check_and_record_login limits login).2.isOk :=
    login_isOk_iff.mpr ⟨fun henabled hfull => huser ⟨henabled, hfull⟩, fun henabled hfull => haddress ⟨huser, henabled, hfull⟩⟩
  intro e herror
  rw [herror] at hok
  exact absurd hok Bool.false_ne_true

theorem honest_login_iff : HonestLogin lim limits login ↔ LoginFreed lim limits login := by
  by_cases huser : UserRefuses lim limits login
  · exact honest_of_user_refuses huser
  · by_cases haddress : AddressRefuses lim limits login
    · exact honest_of_address_refuses haddress
    · exact iff_of_true (honest_of_admitted huser haddress) ⟨fun h => absurd h huser, fun h => absurd h haddress⟩

end Calls

section Claims

/-- In every state of the limiter, whatever caps were applied before: the hints
are honest exactly when the entries that must leave the buckets of the call
have left the window when the hint is over. -/
theorem retry_after_honest_iff (lim : RateLimiter) :
    (∀ bucket cap now, cap ≠ 0 → (HonestCheck lim bucket cap now ↔
      (lim.full bucket cap now → frees (lim.queue bucket.key) cap (hint_cutoff (lim.current bucket now) now)))) ∧
    (∀ policies now, HonestBatch lim policies now ↔
      ∀ entry ∈ lim.first_full policies now, ∀ other ∈ active_policies policies,
        frees (lim.queue other.1.key) other.2 (hint_cutoff (lim.current entry.1 now) now)) ∧
    ∀ limits login, HonestLogin lim limits login ↔ LoginFreed lim limits login :=
  ⟨fun _ _ _ => honest_check_iff, fun _ _ => honest_batch_iff, fun _ _ => honest_login_iff⟩

/-- The limiter after a request at the first instant. -/
def request_recorded : RateLimiter := (RateLimiter.new.check_and_record_keyed_at (.env "prod") 1 0).1

/-- A second request at that instant is told to wait sixty seconds, and is
rejected again after them. -/
theorem hint_on_the_edge_fails : ¬ HonestCheck request_recorded (.env "prod") 1 0 := by
  intro hhonest
  have herror : (request_recorded.check_and_record_keyed_at (.env "prod") 1 0).2 = .error ⟨.env "prod", 60⟩ :=
    check_error_iff.mpr ⟨by decide, by decide⟩
  have hadmitted := hhonest _ herror _ rfl window (by decide)
  rw [check_is_ok_iff] at hadmitted
  exact absurd hadmitted (by decide)

end Claims

end iac_controlplane.rate_limit
