import Iac.Controlplane.RateLimit
import Mathlib.Data.List.TakeWhile
import Mathlib.Data.Set.Finite.Basic
import Mathlib.Data.Fintype.EquivFin

open sliding_window

namespace iac_controlplane.rate_limit

variable {lim lim' : RateLimiter} {bucket : RateLimitBucket} {max : UInt32} {now later : Nat} {key : String}

section Queues

theorem prune_suffix (now : Nat) (q : List Nat) : prune (checked_sub now window) q <:+ q := by
  rw [prune_eq]
  exact List.dropWhile_suffix _

theorem prune_append {t : Nat} {q : List Nat} (h : ∃ u ∈ q ++ [t], ¬ expired now u) :
    prune (checked_sub now window) (q ++ [t]) = prune (checked_sub now window) q ++ [t] := by
  rw [prune_eq, prune_eq, List.dropWhile_append]
  split
  · next hempty =>
    have hnil : q.dropWhile (expired now) = [] := by simpa using hempty
    have hall := List.dropWhile_eq_nil_iff.mp hnil
    obtain ⟨u, hu, hcounts⟩ := h
    obtain hq | rfl : u ∈ q ∨ u = t := by simpa using hu
    · exact absurd (hall u hq) hcounts
    · rw [hnil, List.dropWhile_cons, if_neg hcounts, List.nil_append]
  · rfl

theorem expired_mono {t : Nat} (h : now ≤ later) (hexpired : expired now t) : expired later t := by
  simp only [expired, decide_eq_true_eq] at hexpired ⊢
  omega

theorem prune_eq_nil {q : List Nat} (h : ∀ t ∈ q, expired now t) : prune (checked_sub now window) q = [] := by
  rw [prune_eq]
  exact List.dropWhile_eq_nil_iff.mpr h

theorem queue_update_self (q : List Nat) (metrics : RateLimitMetrics) :
    (RateLimiter.mk (Function.update lim.state key (some q)) metrics).queue key = q := by
  simp [RateLimiter.queue]

theorem queue_update_of_ne {other : String} (hne : key ≠ other) (q : List Nat) (metrics : RateLimitMetrics) :
    (RateLimiter.mk (Function.update lim.state other (some q)) metrics).queue key = lim.queue key := by
  simp [RateLimiter.queue, hne]

end Queues

section Batch

variable {active : List (RateLimitBucket × UInt32)}

/-- The queues after the first phase hold the entries of before that still count, or also some that do not. -/
theorem check_all_queue (lim : RateLimiter) (now : Nat) (active : List (RateLimitBucket × UInt32)) (key : String) :
    (lim.check_all now active).1.queue key = lim.queue key ∨
      (lim.check_all now active).1.queue key = prune (checked_sub now window) (lim.queue key) := by
  induction active generalizing lim with
  | nil => exact .inl rfl
  | cons entry active ih =>
    obtain ⟨bucket, max⟩ := entry
    have hstep (metrics : RateLimitMetrics) :
        (RateLimiter.mk (Function.update lim.state bucket.key
          (some (prune (checked_sub now window) (lim.queue bucket.key)))) metrics).queue key = lim.queue key ∨
        (RateLimiter.mk (Function.update lim.state bucket.key
          (some (prune (checked_sub now window) (lim.queue bucket.key)))) metrics).queue key =
            prune (checked_sub now window) (lim.queue key) := by
      by_cases hkey : key = bucket.key
      · rw [hkey, queue_update_self]
        exact .inr rfl
      · rw [queue_update_of_ne hkey]
        exact .inl rfl
    rw [RateLimiter.check_all]
    split
    · exact hstep _
    · obtain hsame | hpruned := ih ⟨_, _⟩
      · rw [hsame]
        exact hstep _
      · rw [hpruned]
        obtain hkept | hdropped := hstep _
        · exact .inr (congrArg _ hkept)
        · exact .inr ((congrArg _ hdropped).trans (prune_prune (Nat.le_refl now)))

/-- The entries that count are not changed by the first phase. -/
theorem check_all_current (lim : RateLimiter) (active : List (RateLimitBucket × UInt32)) (bucket : RateLimitBucket)
    (h : now ≤ later) : (lim.check_all now active).1.current bucket later = lim.current bucket later := by
  rw [RateLimiter.current, RateLimiter.current]
  obtain hsame | hpruned := check_all_queue lim now active bucket.key
  · rw [hsame]
  · rw [hpruned, prune_prune h]

/-- The first phase stops at the first full bucket, or finds none. -/
theorem check_all_cases (lim : RateLimiter) (now : Nat) (active : List (RateLimitBucket × UInt32)) :
    (∃ passed bucket max rest, active = passed ++ (bucket, max) :: rest ∧
        (∀ entry ∈ passed, ¬ lim.full entry.1 entry.2 now) ∧ lim.full bucket max now ∧
        (lim.check_all now active).2 = .error ⟨bucket, retry_secs (lim.current bucket now) now⟩) ∨
      (∀ entry ∈ active, ¬ lim.full entry.1 entry.2 now) ∧ (lim.check_all now active).2 = .ok () ∧
        ∀ entry ∈ active, (lim.check_all now active).1.queue entry.1.key = lim.current entry.1 now := by
  induction active generalizing lim with
  | nil => exact .inr ⟨by simp, rfl, by simp⟩
  | cons entry active ih =>
    obtain ⟨bucket, max⟩ := entry
    rw [RateLimiter.check_all]
    split
    · next hfull => exact .inl ⟨[], bucket, max, active, rfl, by simp, hfull, rfl⟩
    · next hfree =>
      let mid : RateLimiter := ⟨Function.update lim.state bucket.key
        (some (prune (checked_sub now window) (lim.queue bucket.key))),
          ⟨lim.metrics.checks_total + 1, lim.metrics.rejected_total⟩⟩
      have hcurrent (other : RateLimitBucket) : mid.current other now = lim.current other now := by
        rw [RateLimiter.current, RateLimiter.current]
        by_cases hkey : other.key = bucket.key
        · rw [hkey]
          exact (congrArg _ (queue_update_self _ _)).trans (prune_prune (Nat.le_refl now))
        · exact congrArg _ (queue_update_of_ne hkey _ _)
      have hfull (other : RateLimitBucket) (cap : UInt32) : mid.full other cap now ↔ lim.full other cap now := by
        rw [RateLimiter.full, RateLimiter.full, hcurrent]
      change (∃ passed bucket' max' rest, _ ∧ _ ∧ _ ∧ (mid.check_all now active).2 = _) ∨
        _ ∧ (mid.check_all now active).2 = _ ∧
          ∀ entry ∈ (bucket, max) :: active, (mid.check_all now active).1.queue entry.1.key = _
      obtain ⟨passed, stopped, cap, rest, hactive, hpassed, hstopped, herror⟩ | ⟨hall, hok, hqueues⟩ := ih mid
      · refine .inl ⟨(bucket, max) :: passed, stopped, cap, rest, by rw [hactive, List.cons_append], ?_,
          (hfull _ _).mp hstopped, by rw [herror, hcurrent]⟩
        exact List.forall_mem_cons.mpr ⟨hfree, fun entry hentry => mt (hfull _ _).mpr (hpassed entry hentry)⟩
      · have hkept : ∀ entry ∈ active, (mid.check_all now active).1.queue entry.1.key = lim.current entry.1 now :=
          fun entry hentry => (hqueues entry hentry).trans (hcurrent entry.1)
        refine .inr ⟨?_, hok, List.forall_mem_cons.mpr ⟨?_, hkept⟩⟩
        · exact List.forall_mem_cons.mpr ⟨hfree, fun entry hentry => mt (hfull _ _).mpr (hall entry hentry)⟩
        · have hpruned : mid.queue bucket.key = lim.current bucket now := queue_update_self _ _
          obtain hsame | hagain := check_all_queue mid now active bucket.key
          · exact hsame.trans hpruned
          · rw [hagain, hpruned]
            exact prune_prune (Nat.le_refl now)

/-- The second phase adds an entry to a bucket for each of its policies. -/
theorem record_all_queue (lim : RateLimiter) (now : Nat) (active : List (RateLimitBucket × UInt32)) (key : String) :
    (lim.record_all now active).queue key =
      lim.queue key ++ List.replicate ((active.map fun entry => entry.1.key).count key) now := by
  induction active generalizing lim with
  | nil => simp [RateLimiter.record_all]
  | cons entry active ih =>
    obtain ⟨bucket, max⟩ := entry
    rw [RateLimiter.record_all, ih, List.map_cons, List.count_cons]
    by_cases hkey : key = bucket.key
    · rw [hkey, queue_update_self, List.append_assoc]
      simp [RateLimiter.queue, List.replicate_succ]
    · rw [queue_update_of_ne hkey]
      simp [Ne.symm hkey]

end Batch

/-- A batch that fails adds to no bucket; one that succeeds adds one entry to
the bucket of every active policy, which keeps its cap. -/
def BatchAtomic (lim : RateLimiter) (policies : List (String × UInt32)) (now : Nat) : Prop :=
  match lim.check_and_record_policies policies now with
  | (after, .error _) => ∀ key, after.queue key <:+ lim.queue key
  | (after, .ok ()) => ∀ entry ∈ active_policies policies,
      after.queue entry.1.key = lim.current entry.1 now ++ [now] ∧ (after.queue entry.1.key).length ≤ entry.2.toNat

private theorem keys_of_active (policies : List (String × UInt32)) :
    (active_policies policies).map (fun entry => entry.1.key) =
      ((active_policies policies).map fun entry => entry.1.name).map fun name => (RateLimitBucket.policy name).key := by
  simp only [active_policies, List.map_map]
  rfl

private theorem policy_key_injective : Function.Injective fun name => (RateLimitBucket.policy name).key := by
  intro a b h
  have htype (name : String) : (RateLimitBucket.policy name).type ∈ bucket_types := by
    simp [RateLimitBucket.policy, bucket_types]
  exact (RateLimitBucket.mk.inj (key_inj (htype a) (htype b) h)).2

private theorem active_keys_nodup (policies : List (String × UInt32)) :
    ((active_policies policies).map fun entry => entry.1.key).Nodup ↔
      ((active_policies policies).map fun entry => entry.1.name).Nodup := by
  rw [keys_of_active]
  exact List.nodup_map_iff policy_key_injective

/-- A batch is atomic exactly when one of its buckets is full or no two of its
active policies have the same name. -/
theorem batch_atomic_iff (lim : RateLimiter) (policies : List (String × UInt32)) (now : Nat) :
    BatchAtomic lim policies now ↔ (∃ entry ∈ active_policies policies, lim.full entry.1 entry.2 now) ∨
      ((active_policies policies).map fun entry => entry.1.name).Nodup := by
  rw [← active_keys_nodup, BatchAtomic, RateLimiter.check_and_record_policies]
  generalize active_policies policies = active
  by_cases hempty : active = []
  · simp [hempty]
  rw [if_neg (by simpa using hempty)]
  have hcases := check_all_cases lim now active
  have hqueue := check_all_queue lim now active
  generalize lim.check_all now active = checked at hcases hqueue
  obtain ⟨pruned, result⟩ := checked
  obtain ⟨passed, bucket, max, rest, hactive, hpassed, hfull, herror⟩ | ⟨hfree, hok, hpruned⟩ := hcases
  · have hstopped : (bucket, max) ∈ active := by simp [hactive]
    simp only at herror
    subst herror
    refine iff_of_true (fun key => ?_) (.inl ⟨_, hstopped, hfull⟩)
    obtain hsame | hdropped := hqueue key
    · exact hsame ▸ List.suffix_refl _
    · exact hdropped ▸ prune_suffix _ _
  · simp only at hok hpruned
    subst hok
    have hnofull : ¬ ∃ entry ∈ active, lim.full entry.1 entry.2 now := by
      rintro ⟨entry, hentry, hfull⟩
      exact hfree entry hentry hfull
    have hgain (entry) (hentry : entry ∈ active) : (pruned.record_all now active).queue entry.1.key =
        lim.current entry.1 now ++ List.replicate ((active.map fun entry => entry.1.key).count entry.1.key) now := by
      rw [record_all_queue, hpruned entry hentry]
    rw [or_iff_right hnofull, List.nodup_iff_count_eq_one]
    constructor
    · intro hatomic key hkey
      obtain ⟨entry, hentry, rfl⟩ := List.mem_map.mp hkey
      have hone := (hgain entry hentry).symm.trans (hatomic entry hentry).1
      simpa using congrArg List.length (List.append_cancel_left hone)
    · intro hone entry hentry
      have hsingle : (pruned.record_all now active).queue entry.1.key = lim.current entry.1 now ++ [now] := by
        rw [hgain entry hentry, hone _ (List.mem_map_of_mem hentry)]
        rfl
      have hroom := Nat.not_le.mp (hfree entry hentry)
      refine ⟨hsingle, ?_⟩
      rw [hsingle, List.length_append, List.length_singleton]
      omega

section Login

variable {since : Nat} {limits : Limits} {login : Login}

/-- Whether each of the logins is admitted, one after the other. -/
def RateLimiter.admissions (lim : RateLimiter) (limits : Limits) : List Login → List Bool
  | [] => []
  | login :: logins =>
    let answer := lim.check_and_record_login limits login
    answer.2.isOk :: answer.1.admissions limits logins

/-- The login comes after the first one and is for another username or from another address. -/
structure Login.Apart (first login : Login) : Prop where
  other : login.username ≠ first.username ∨ login.client_ip ≠ first.client_ip
  after : first.ip_at ≤ login.user_at

/-- A rejected login leaves the admission of later logins for other usernames
or from other addresses as it was. -/
def LoginHarmless (lim : RateLimiter) (limits : Limits) (login : Login) : Prop :=
  ¬ (lim.check_and_record_login limits login).2.isOk → ∀ logins : List Login,
    (∀ later ∈ logins, login.Apart later) → logins.Pairwise (fun a b => a.ip_at ≤ b.user_at) →
      (lim.check_and_record_login limits login).1.admissions limits logins = lim.admissions limits logins

/-- The login is charged to the bucket of its username and then rejected by
that of its address, at an instant at which the charge counts. -/
structure ChargedInVain (lim : RateLimiter) (limits : Limits) (login : Login) : Prop where
  user_enabled : limits.login_user_max_per_minute ≠ 0
  user_free : ¬ lim.full (.login_user login.username) limits.login_user_max_per_minute login.user_at
  ip_enabled : limits.login_ip_max_per_minute ≠ 0
  ip_full : lim.full (.client login.client_ip) limits.login_ip_max_per_minute login.ip_at
  counts : ∃ t ∈ lim.current (.login_user login.username) login.user_at ++ [login.user_at], ¬ expired login.ip_at t

/-- From an instant on the same entries count. -/
def Agree (since : Nat) (lim lim' : RateLimiter) : Prop :=
  ∀ key now, since ≤ now →
    prune (checked_sub now window) (lim.queue key) = prune (checked_sub now window) (lim'.queue key)

theorem Agree.trans {mid : RateLimiter} (h : Agree since lim mid) (h' : Agree since mid lim') : Agree since lim lim' :=
  fun key now hnow => (h key now hnow).trans (h' key now hnow)

theorem Agree.mono {instant : Nat} (h : Agree since lim lim') (hlater : since ≤ instant) : Agree instant lim lim' :=
  fun key now hnow => h key now (Nat.le_trans hlater hnow)

theorem Agree.check_isOk (h : Agree since lim lim') (hnow : since ≤ now) :
    (lim.check_and_record_keyed_at bucket max now).2.isOk = (lim'.check_and_record_keyed_at bucket max now).2.isOk := by
  apply Bool.eq_iff_iff.mpr
  rw [check_is_ok_iff, check_is_ok_iff, h bucket.key now hnow]

theorem Agree.check (h : Agree since lim lim') (hnow : since ≤ now) :
    Agree since (lim.check_and_record_keyed_at bucket max now).1 (lim'.check_and_record_keyed_at bucket max now).1 := by
  intro key instant hinstant
  by_cases hkey : key = bucket.key
  · rw [hkey, queue_check_self, queue_check_self, h.check_isOk hnow, h bucket.key now hnow]
  · rw [queue_check_other hkey, queue_check_other hkey, h key instant hinstant]

theorem Agree.check_enabled (bucket : RateLimitBucket) (max : UInt32) (h : Agree since lim lim') (hnow : since ≤ now) :
    (lim.check_and_record_enabled bucket max now).2.isOk = (lim'.check_and_record_enabled bucket max now).2.isOk ∧
      Agree since (lim.check_and_record_enabled bucket max now).1 (lim'.check_and_record_enabled bucket max now).1 := by
  rw [RateLimiter.check_and_record_enabled, RateLimiter.check_and_record_enabled]
  split
  · exact ⟨rfl, h⟩
  · exact ⟨h.check_isOk hnow, h.check hnow⟩

/-- The check of the bucket of the username. -/
def RateLimiter.check_user (lim : RateLimiter) (limits : Limits) (login : Login) : RateLimiter × Except TooManyRequests Unit :=
  lim.check_and_record_enabled (.login_user login.username) limits.login_user_max_per_minute login.user_at

theorem login_of_refused (h : ¬ (lim.check_user limits login).2.isOk) :
    lim.check_and_record_login limits login = lim.check_user limits login := by
  rw [RateLimiter.check_and_record_login]
  rw [RateLimiter.check_user] at h ⊢
  split
  · next heq => exact heq.symm
  · next heq =>
    rw [heq] at h
    exact absurd rfl h

theorem login_of_passed (h : (lim.check_user limits login).2.isOk) :
    lim.check_and_record_login limits login = (lim.check_user limits login).1.check_and_record_enabled
      (.client login.client_ip) limits.login_ip_max_per_minute login.ip_at := by
  rw [RateLimiter.check_and_record_login]
  rw [RateLimiter.check_user] at h ⊢
  split
  · next heq =>
    rw [heq] at h
    exact absurd h Bool.false_ne_true
  · next heq => rw [heq]

theorem Agree.check_login (limits : Limits) (h : Agree since lim lim') (hnow : since ≤ login.user_at) :
    (lim.check_and_record_login limits login).2.isOk = (lim'.check_and_record_login limits login).2.isOk ∧
      Agree since (lim.check_and_record_login limits login).1 (lim'.check_and_record_login limits login).1 := by
  obtain ⟨hsame, hafter⟩ := h.check_enabled (.login_user login.username) limits.login_user_max_per_minute hnow
  by_cases hok : (lim.check_user limits login).2.isOk
  · rw [login_of_passed hok, login_of_passed (hsame.symm.trans hok)]
    exact hafter.check_enabled _ _ (Nat.le_trans hnow login.clock)
  · rw [login_of_refused hok, login_of_refused (fun hok' => hok (hsame.trans hok'))]
    exact ⟨hsame, hafter⟩

theorem Agree.same_admissions (h : Agree since lim lim') {logins : List Login}
    (hlogins : ∀ later ∈ logins, since ≤ later.user_at) : lim.admissions limits logins = lim'.admissions limits logins := by
  induction logins generalizing lim lim' with
  | nil => rfl
  | cons login logins ih =>
    rw [List.forall_mem_cons] at hlogins
    obtain ⟨hsame, hafter⟩ := h.check_login limits hlogins.1
    rw [RateLimiter.admissions, RateLimiter.admissions]
    exact List.cons_eq_cons.mpr ⟨hsame, ih hafter hlogins.2⟩

/-- A check that is refused leaves the entries that count. -/
theorem agree_of_rejected (h : ¬ (lim.check_and_record_enabled bucket max now).2.isOk) :
    Agree now (lim.check_and_record_enabled bucket max now).1 lim := by
  rw [RateLimiter.check_and_record_enabled] at h ⊢
  split at h
  · exact absurd rfl h
  · next henabled =>
    rw [if_neg henabled]
    intro key instant hinstant
    by_cases hkey : key = bucket.key
    · rw [hkey, queue_check_self, if_neg h, List.append_nil, prune_prune hinstant]
    · rw [queue_check_other hkey]

/-- The queues after a check that is not disabled and admits. -/
theorem queue_of_admitted (henabled : max ≠ 0) (hfree : ¬ lim.full bucket max now) :
    (lim.check_and_record_enabled bucket max now).2.isOk ∧
      (lim.check_and_record_enabled bucket max now).1.queue bucket.key = lim.current bucket now ++ [now] ∧
      ∀ key, key ≠ bucket.key → (lim.check_and_record_enabled bucket max now).1.queue key = lim.queue key := by
  have hok : (lim.check_and_record_keyed_at bucket max now).2.isOk := check_is_ok_iff.mpr (Nat.not_le.mp hfree)
  rw [RateLimiter.check_and_record_enabled, if_neg henabled]
  refine ⟨hok, ?_, fun key hkey => queue_check_other hkey⟩
  rw [queue_check_self, if_pos hok, RateLimiter.current]

theorem rejected_iff :
    ¬ (lim.check_and_record_enabled bucket max now).2.isOk ↔ max ≠ 0 ∧ lim.full bucket max now := by
  rw [RateLimiter.check_and_record_enabled]
  split
  · next hzero => exact iff_of_false (fun hrejected => hrejected rfl) fun hfull => hfull.1 hzero
  · next hnonzero =>
    rw [check_is_ok_iff, Nat.not_lt]
    exact (and_iff_right hnonzero).symm

theorem client_key_ne (username client_ip : String) :
    (RateLimitBucket.client client_ip).key ≠ (RateLimitBucket.login_user username).key := by
  intro hkey
  have hsame := key_inj (by simp [RateLimitBucket.client, bucket_types])
    (by simp [RateLimitBucket.login_user, bucket_types]) hkey
  simp [RateLimitBucket.client, RateLimitBucket.login_user] at hsame

private theorem client_key_injective : Function.Injective fun client_ip => (RateLimitBucket.client client_ip).key := by
  intro a b hkey
  have htype (name : String) : (RateLimitBucket.client name).type ∈ bucket_types := by
    simp [RateLimitBucket.client, bucket_types]
  exact (RateLimitBucket.mk.inj (key_inj (htype a) (htype b) hkey)).2

theorem full_congr {cap : UInt32} (h : lim.queue bucket.key = lim'.queue bucket.key) :
    lim.full bucket cap now ↔ lim'.full bucket cap now := by
  rw [RateLimiter.full, RateLimiter.full, RateLimiter.current, RateLimiter.current, h]

/-- A rejected login is harmless when it was not charged in vain. -/
private theorem harmless_of_not_charged (h : ¬ ChargedInVain lim limits login) : LoginHarmless lim limits login := by
  intro hrejected logins hapart _
  suffices hagree : Agree login.ip_at (lim.check_and_record_login limits login).1 lim from
    hagree.same_admissions fun later hlater => (hapart later hlater).after
  by_cases huser : (lim.check_user limits login).2.isOk
  · rw [login_of_passed huser] at hrejected ⊢
    refine (agree_of_rejected hrejected).trans ?_
    obtain ⟨hip, hfull⟩ := rejected_iff.mp hrejected
    by_cases henabled : limits.login_user_max_per_minute = 0
    · rw [RateLimiter.check_user, RateLimiter.check_and_record_enabled, if_pos henabled]
      exact fun key now _ => rfl
    · have hfree : ¬ lim.full (.login_user login.username) limits.login_user_max_per_minute login.user_at :=
        fun hfull => rejected_iff.mpr ⟨henabled, hfull⟩ huser
      obtain ⟨-, hcharged, hothers⟩ := queue_of_admitted henabled hfree
      have hexpired : ∀ t ∈ lim.current (.login_user login.username) login.user_at ++ [login.user_at],
          expired login.ip_at t := by
        by_contra hcounts
        push Not at hcounts
        exact h ⟨henabled, hfree, hip, (full_congr (hothers _ (client_key_ne _ _))).mp hfull, hcounts⟩
      intro key now hnow
      by_cases hkey : key = (RateLimitBucket.login_user login.username).key
      · have hlater : ∀ t ∈ lim.current (.login_user login.username) login.user_at ++ [login.user_at], expired now t :=
          fun t ht => expired_mono hnow (hexpired t ht)
        have hbefore : prune (checked_sub now window) (lim.current (.login_user login.username) login.user_at) = [] :=
          prune_eq_nil fun t ht => hlater t (List.mem_append_left _ ht)
        rw [hkey, RateLimiter.check_user, hcharged, prune_eq_nil hlater, ← hbefore]
        exact prune_prune (Nat.le_trans login.clock hnow)
      · rw [RateLimiter.check_user, hothers key hkey]
  · rw [login_of_refused huser]
    exact (agree_of_rejected huser).mono login.clock

/-- A login whose buckets are checked at one instant. -/
def Login.at_once (username client_ip : String) (now : Nat) : Login :=
  ⟨username, client_ip, now, now, Nat.le_refl now⟩

private theorem exists_fresh_addresses (hfinite : {key | lim.queue key ≠ []}.Finite) (client_ip : String) (n : Nat) :
    ∃ addresses : List String, addresses.length = n ∧ addresses.Nodup ∧
      ∀ a ∈ addresses, a ≠ client_ip ∧ lim.queue (RateLimitBucket.client a).key = [] := by
  have hused : (Set.preimage (fun a => (RateLimitBucket.client a).key) {key | lim.queue key ≠ []} ∪ {client_ip}).Finite :=
    (hfinite.preimage client_key_injective.injOn).union (Set.finite_singleton client_ip)
  obtain ⟨fresh, hfresh, hcard⟩ := hused.infinite_compl.exists_subset_card_eq n
  refine ⟨fresh.toList, (Finset.length_toList fresh).trans hcard, fresh.nodup_toList, fun a ha => ?_⟩
  have hunused := hfresh (Finset.mem_coe.mpr (Finset.mem_toList.mp ha))
  simp only [Set.mem_compl_iff, Set.mem_union, Set.mem_preimage, Set.mem_ofPred_eq, Set.mem_singleton_iff, not_or,
    not_not] at hunused
  exact ⟨hunused.2, hunused.1⟩

theorem queue_enabled_other (hkey : key ≠ bucket.key) :
    (lim.check_and_record_enabled bucket max now).1.queue key = lim.queue key := by
  rw [RateLimiter.check_and_record_enabled]
  split
  · rfl
  · exact queue_check_other hkey

/-- A login from an address with no entries is a matter of the bucket of its username. -/
private theorem fresh_login {username client_ip : String} (hfresh : lim.queue (RateLimitBucket.client client_ip).key = [])
    (henabled : limits.login_user_max_per_minute ≠ 0)
    (hfree : ¬ lim.full (.login_user username) limits.login_user_max_per_minute now) :
    (lim.check_and_record_login limits (.at_once username client_ip now)).2.isOk ∧
      (lim.check_and_record_login limits (.at_once username client_ip now)).1.queue
        (RateLimitBucket.login_user username).key = lim.current (.login_user username) now ++ [now] ∧
      ∀ other, other ≠ client_ip →
        (lim.check_and_record_login limits (.at_once username client_ip now)).1.queue
          (RateLimitBucket.client other).key = lim.queue (RateLimitBucket.client other).key := by
  obtain ⟨hok, hcharged, hothers⟩ := queue_of_admitted henabled hfree
  have hpassed : (lim.check_user limits (.at_once username client_ip now)).2.isOk := hok
  rw [login_of_passed hpassed, RateLimiter.check_user]
  refine ⟨?_, ?_, fun other hother => ?_⟩
  · by_contra hrejected
    obtain ⟨hip, hfull⟩ := rejected_iff.mp hrejected
    have hempty : lim.full (.client client_ip) limits.login_ip_max_per_minute now :=
      (full_congr (hothers _ (client_key_ne _ _))).mp hfull
    rw [RateLimiter.full, RateLimiter.current, hfresh, prune_eq_nil (by simp)] at hempty
    exact hip (UInt32.toNat_inj.mp (Nat.le_zero.mp hempty))
  · exact (queue_enabled_other (client_key_ne _ _).symm).trans hcharged
  · refine (queue_enabled_other fun hkey => ?_).trans (hothers _ (client_key_ne _ _))
    exact hother (client_key_injective hkey)

theorem current_length_le (h : now ≤ later) : (lim.current bucket later).length ≤ (lim.current bucket now).length := by
  rw [RateLimiter.current, RateLimiter.current, ← prune_prune h]
  exact (prune_suffix _ _).length_le

/-- Logins from addresses with no entries are all admitted when the bucket of
the username has room for them. -/
private theorem fresh_logins_admitted_iff (limits : Limits) (username : String) (now : Nat) {addresses : List String}
    (hfresh : ∀ a ∈ addresses, lim.queue (RateLimitBucket.client a).key = []) (hnodup : addresses.Nodup)
    (henabled : limits.login_user_max_per_minute ≠ 0) :
    (∀ admitted ∈ lim.admissions limits (addresses.map (.at_once username · now)), admitted = true) ↔
      addresses = [] ∨
        (lim.current (.login_user username) now).length + addresses.length ≤ limits.login_user_max_per_minute.toNat := by
  induction addresses generalizing lim with
  | nil => simp [RateLimiter.admissions]
  | cons client_ip addresses ih =>
    rw [List.forall_mem_cons] at hfresh
    rw [List.nodup_cons] at hnodup
    rw [List.map_cons, RateLimiter.admissions, List.forall_mem_cons]
    by_cases hfull : lim.full (.login_user username) limits.login_user_max_per_minute now
    · have hrefused : ¬ (lim.check_user limits (.at_once username client_ip now)).2.isOk :=
        rejected_iff.mpr ⟨henabled, hfull⟩
      rw [login_of_refused hrefused]
      rw [RateLimiter.full] at hfull
      refine iff_of_false (fun hall => hrefused hall.1) ?_
      simp only [List.length_cons]
      rintro (hnil | hroom)
      · exact List.cons_ne_nil _ _ hnil
      · omega
    · obtain ⟨hok, hcharged, hothers⟩ := fresh_login hfresh.1 henabled hfull
      have hrest := ih (fun a ha => (hothers a fun heq => hnodup.1 (heq ▸ ha)).trans (hfresh.2 a ha)) hnodup.2
      rw [and_iff_right hok]
      refine hrest.trans ?_
      have hnow : ∃ t ∈ lim.current (.login_user username) now ++ [now], ¬ expired now t :=
        ⟨now, by simp, by simp [expired]⟩
      rw [RateLimiter.full] at hfull
      rw [RateLimiter.current, hcharged, prune_append hnow, List.length_append, List.length_singleton,
        RateLimiter.current, prune_prune (Nat.le_refl now), ← RateLimiter.current, List.length_cons]
      cases addresses with
      | nil => simp; omega
      | cons a addresses => simp; omega

private theorem charged_in_vain_of_harmless (hfinite : {key | lim.queue key ≠ []}.Finite)
    (h : LoginHarmless lim limits login) : ¬ ChargedInVain lim limits login := by
  rintro ⟨henabled, hfree, hip, hfull, hcounts⟩
  obtain ⟨hok, hcharged, hothers⟩ := queue_of_admitted henabled hfree
  have hpassed : (lim.check_user limits login).2.isOk := hok
  have hrejected : ¬ (lim.check_and_record_login limits login).2.isOk := by
    rw [login_of_passed hpassed]
    exact rejected_iff.mpr ⟨hip, (full_congr (hothers _ (client_key_ne _ _))).mpr hfull⟩
  have hroom : (lim.current (.login_user login.username) login.ip_at).length < limits.login_user_max_per_minute.toNat :=
    lt_of_le_of_lt (current_length_le login.clock) (Nat.not_le.mp hfree)
  obtain ⟨addresses, hlength, hnodup, hfresh⟩ := exists_fresh_addresses hfinite login.client_ip
    (limits.login_user_max_per_minute.toNat - (lim.current (.login_user login.username) login.ip_at).length)
  have hqueue : ∀ a ∈ addresses, (lim.check_and_record_login limits login).1.queue (RateLimitBucket.client a).key = [] := by
    intro a ha
    obtain ⟨hother, hempty⟩ := hfresh a ha
    rw [login_of_passed hpassed, queue_enabled_other fun hkey => hother (client_key_injective hkey)]
    exact (hothers _ (client_key_ne _ _)).trans hempty
  have hgained : (lim.check_and_record_login limits login).1.current (.login_user login.username) login.ip_at =
      lim.current (.login_user login.username) login.ip_at ++ [login.user_at] := by
    have hcurrent : prune (checked_sub login.ip_at window) (lim.current (.login_user login.username) login.user_at) =
        lim.current (.login_user login.username) login.ip_at := prune_prune login.clock
    rw [login_of_passed hpassed, RateLimiter.current, queue_enabled_other (client_key_ne _ _).symm, ← hcurrent,
      ← prune_append hcounts]
    exact congrArg _ hcharged
  have hapart : ∀ later ∈ addresses.map (.at_once login.username · login.ip_at), login.Apart later := by
    intro later hlater
    obtain ⟨a, ha, rfl⟩ := List.mem_map.mp hlater
    exact ⟨.inr (hfresh a ha).1, Nat.le_refl login.ip_at⟩
  have hordered : (addresses.map (Login.at_once login.username · login.ip_at)).Pairwise fun a b => a.ip_at ≤ b.user_at :=
    List.pairwise_map.mpr (List.pairwise_of_forall fun _ _ => Nat.le_refl login.ip_at)
  have hbefore := (fresh_logins_admitted_iff limits login.username login.ip_at (fun a ha => (hfresh a ha).2) hnodup
    henabled).mpr (.inr (by omega))
  rw [← h hrejected _ hapart hordered] at hbefore
  have hafter := (fresh_logins_admitted_iff limits login.username login.ip_at hqueue hnodup henabled).mp hbefore
  rw [hgained, List.length_append, List.length_singleton] at hafter
  obtain hnil | hfits := hafter
  · simp [hnil] at hlength
    omega
  · omega

/-- A login that is rejected is harmless exactly when it was not charged in vain. -/
theorem login_harmless_iff (hfinite : {key | lim.queue key ≠ []}.Finite) :
    LoginHarmless lim limits login ↔ ¬ ChargedInVain lim limits login :=
  ⟨charged_in_vain_of_harmless hfinite, harmless_of_not_charged⟩

end Login

section Claims

/-- In every state of the limiter, with finitely many queues: a batch is atomic
exactly when one of its buckets is full or its active policies have different
names, and a rejected login is harmless exactly when it was not charged in vain. -/
theorem checks_atomic_iff (lim : RateLimiter) (limits : Limits) (hfinite : {key | lim.queue key ≠ []}.Finite) :
    (∀ policies now, BatchAtomic lim policies now ↔
      (∃ entry ∈ active_policies policies, lim.full entry.1 entry.2 now) ∨
        ((active_policies policies).map fun entry => entry.1.name).Nodup) ∧
      ∀ login, LoginHarmless lim limits login ↔ ¬ ChargedInVain lim limits login :=
  ⟨batch_atomic_iff lim, fun _ => login_harmless_iff hfinite⟩

/-- One login for each username and each address a minute. -/
def one_each : Limits := ⟨0, 0, 1, 1, 0⟩

theorem checks_of_new_atomic :
    BatchAtomic .new [("reviewed", 1), ("frozen", 2)] 0 ∧ LoginHarmless .new one_each (.at_once "alice" "10.0.0.1" 0) := by
  have hempty : {key | RateLimiter.new.queue key ≠ []}.Finite := by simp [RateLimiter.queue, RateLimiter.new]
  obtain ⟨hbatch, hlogin⟩ := checks_atomic_iff .new one_each hempty
  refine ⟨(hbatch _ _).mpr (.inr (by decide)), (hlogin _).mpr fun hcharged => ?_⟩
  exact absurd hcharged.ip_full (by decide)

/-- The limiter after a login of another user from the address. -/
def address_used : RateLimiter := (RateLimiter.new.check_and_record_login one_each (.at_once "bob" "10.0.0.1" 0)).1

/-- Two policies of one name charge their bucket twice, and a login rejected
for its address takes the place of the user's next one from elsewhere. -/
theorem rejected_login_is_charged :
    ¬ BatchAtomic .new [("reviewed", 1), ("reviewed", 1)] 0 ∧
      ¬ LoginHarmless address_used one_each (.at_once "alice" "10.0.0.1" 0) := by
  constructor
  · intro hatomic
    have hgain : (RateLimitBucket.policy "reviewed", (1 : UInt32)) ∈ active_policies [("reviewed", 1), ("reviewed", 1)] := by
      decide
    exact absurd (hatomic _ hgain).2 (by decide)
  · intro hharmless
    have hsame := hharmless (by decide) [.at_once "alice" "10.0.0.2" 1]
      (List.forall_mem_singleton.mpr ⟨.inr (by decide), by decide⟩) (List.pairwise_singleton _ _)
    exact absurd hsame (by decide)

end Claims

end iac_controlplane.rate_limit
