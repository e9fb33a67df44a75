import Iac.Providers.Monitoring
import Mathlib.Algebra.BigOperators.Ring.List
import Mathlib.Algebra.Ring.Nat

open iac_core serde_json net logged
open iac_core.executor hiding emit

namespace iac_providers.monitoring

section Accepted

variable {v : Value} {spec : MonitoringCheckSpec}

/-- What validation asks of the numbers, and of the target of any type. -/
structure Accepted (spec : MonitoringCheckSpec) : Prop where
  timeout_pos : 1 ≤ spec.timeout_secs
  timeout_le : spec.timeout_secs ≤ 60
  retries_le : spec.retries ≤ 30
  interval_le : spec.retry_interval_secs ≤ 60
  no_control : ∀ c ∈ spec.target.toList, c ∉ control_chars

theorem accepted_of_validate (h : spec.validate = .ok ()) : Accepted spec := by
  unfold MonitoringCheckSpec.validate at h
  obtain ⟨-, -, h⟩ := fallible.bind_eq_ok_iff.mp h
  split_ifs at h with htimeout hretries hinterval hempty hcontrol
  exact ⟨htimeout.1, htimeout.2, by omega, by omega, fun c hc hmem => hcontrol
    (List.any_eq_true.mpr ⟨c, hc, List.contains_iff_mem.mpr hmem⟩)⟩

theorem accepted_of_from_value (h : MonitoringCheckSpec.from_value v = .ok spec) : Accepted spec := by
  unfold MonitoringCheckSpec.from_value at h
  split at h
  · split at h
    · cases h
    · simp only [fallible.bind_eq_ok_iff] at h
      obtain ⟨_, -, _, -, _, -, _, -, _, -, _, -, _, -, _, -, ⟨⟩, hvalid, h⟩ := h
      exact Except.ok.inj h ▸ accepted_of_validate hvalid
  · cases h

theorem Accepted.total_attempts (h : Accepted spec) : spec.total_attempts = spec.retries + 1 := by
  have hretries := h.retries_le
  simp only [MonitoringCheckSpec.total_attempts, num.u32_bound]
  omega

end Accepted

section Tried

variable {resolver : Resolver} {target : List Char} {dns : String} {addrs : List SocketAddr}

/-- What the target resolves to, when none of it is refused. -/
def admitted (resolver : Resolver) (target : List Char) : List SocketAddr :=
  match to_socket_addrs resolver target with
  | .error _ => []
  | .ok addrs => if addrs.any fun addr => is_metadata_addr addr.ip then [] else addrs

/-- The addresses that a probe may try: all of them for TCP, the first for HTTP. -/
def tried (spec : MonitoringCheckSpec) (resolver : Resolver) : List SocketAddr :=
  match spec.check_type with
  | .Tcp => admitted resolver spec.target.toList
  | .Http =>
    match parse_http_url spec.target.toList with
    | .error _ => []
    | .ok parsed => (admitted resolver parsed.target).take 1

@[simp] theorem events_resolve : (resolve resolver dns target).events = [] := by
  unfold resolve
  split
  · rfl
  · split_ifs <;> rfl

variable (resolver target dns) in
theorem outcome_resolve : (∃ e, (resolve resolver dns target).outcome = .error e ∧ admitted resolver target = []) ∨
    (resolve resolver dns target).outcome = .ok (admitted resolver target) ∧ admitted resolver target ≠ [] := by
  unfold resolve admitted
  cases to_socket_addrs resolver target with
  | error e => exact .inl ⟨_, rfl, rfl⟩
  | ok addrs =>
    simp only
    split_ifs with hempty hmetadata hmetadata
    · exact .inl ⟨_, rfl, rfl⟩
    · exact .inl ⟨_, rfl, List.isEmpty_iff.mp hempty⟩
    · exact .inl ⟨_, rfl, rfl⟩
    · exact .inr ⟨rfl, fun hnil => hempty (List.isEmpty_iff.mpr hnil)⟩

end Tried

section Time

/-- The time spent in a program. -/
abbrev elapsed {ε α : Type} (p : Logged Event ε α) : Nat := cost Event.elapsed p

variable {timeout : Nat} {peers : Peers timeout} {resolver : Resolver} {target : List Char}

theorem elapsed_connect (i : Nat) (addr : SocketAddr) : elapsed (connect_timeout peers i addr) = (peers.connect i addr).elapsed :=
  Nat.add_zero _

/-- After an address that cannot be connected to the next one is tried. -/
theorem try_each_of_error {i : Nat} {addr : SocketAddr} {rest : List SocketAddr} {last_err e : String}
    (h : (connect_timeout peers i addr).outcome = .error e) :
    (try_each peers i (addr :: rest) last_err).outcome = (try_each peers (i + 1) rest e).outcome ∧
      elapsed (try_each peers i (addr :: rest) last_err) =
        (peers.connect i addr).elapsed + elapsed (try_each peers (i + 1) rest e) := by
  have hattempt : (attempt (connect_timeout peers i addr) : Probe _).outcome = .ok (.error e) := by rw [attempt, h]
  rw [try_each, ← elapsed_connect]
  exact ⟨by rw [bind_of_ok hattempt], cost_bind_of_ok hattempt⟩

/-- After a chunk the rest of the response is read. -/
theorem le_elapsed_read {fuel i limit : Nat} {bytes : List UInt8} (hread : (peers.read i).result = .ok bytes)
    (hbytes : bytes ≠ []) (hlimit : limit ≠ 0) :
    (peers.read i).elapsed + elapsed (read_to_end peers fuel (i + 1) (limit - (bytes.take limit).length)) ≤
      elapsed (read_to_end peers (fuel + 1) i limit) := by
  have hchunk : bytes.take limit ≠ [] := by simp [hbytes, hlimit]
  have hcall : (read_call peers i limit).outcome = .ok (bytes.take limit) := by
    simp [read_call, emit, hread, Except.map]
  rw [read_to_end, if_neg hlimit]
  unfold elapsed
  rw [cost_bind_of_ok hcall, if_neg hchunk]
  exact Nat.add_le_add (Nat.le_of_eq (Nat.add_zero _).symm) le_cost_bind

variable (peers) in
/-- Every address takes a timeout at most. -/
theorem elapsed_try_each_le (i : Nat) (addrs : List SocketAddr) (last_err : String) :
    elapsed (try_each peers i addrs last_err) ≤ addrs.length * timeout := by
  induction addrs generalizing i last_err with
  | nil => exact Nat.zero_le _
  | cons addr rest ih =>
    have hconnect : elapsed (attempt (connect_timeout peers i addr) : Probe _) ≤ timeout :=
      (elapsed_connect i addr).trans_le (peers.connect_within i addr)
    have hstep : elapsed (try_each peers i (addr :: rest) last_err) ≤ timeout + rest.length * timeout := by
      refine cost_bind_le hconnect fun outcome _ => ?_
      cases outcome with
      | ok _ => exact Nat.zero_le _
      | error e => exact ih (i + 1) e
    rw [List.length_cons, Nat.succ_mul]
    omega

theorem elapsed_check_tcp_le : elapsed (check_tcp resolver peers target) ≤ (admitted resolver target).length * timeout := by
  have hresolve : elapsed (resolve resolver "DNS resolve " target) = 0 := by simp [elapsed, cost]
  obtain ⟨e, herror, -⟩ | ⟨hok, -⟩ := outcome_resolve resolver target "DNS resolve "
  · rw [check_tcp, elapsed, cost_bind_of_error herror]
    exact hresolve.trans_le (Nat.zero_le _)
  · rw [check_tcp, elapsed, cost_bind_of_ok hok]
    have htry := elapsed_try_each_le peers 0 (admitted resolver target) ""
    simp only [elapsed] at hresolve htry
    omega

variable {spec : MonitoringCheckSpec} {world : World spec.timeout}

/-- A probe with no address to try fails at once. -/
theorem run_untried (peers : Peers spec.timeout) (h : tried spec resolver = []) :
    ∃ e, run spec resolver peers = ⟨.error e, []⟩ := by
  rw [run]
  rw [tried] at h
  split
  · next htype =>
    rw [htype] at h
    rcases outcome_resolve resolver spec.target.toList "DNS resolve " with
      ⟨e, herror, -⟩ | ⟨-, hne⟩
    · exact ⟨e, by rw [check_tcp, bind_of_error herror, events_resolve]⟩
    · exact absurd h hne
  · next htype =>
    rw [htype] at h
    simp only at h
    rw [check_http]
    cases hparse : parse_http_url spec.target.toList with
    | error e => exact ⟨e, rfl⟩
    | ok parsed =>
      rw [hparse] at h
      simp only [List.take_eq_nil_iff, one_ne_zero, false_or] at h
      rcases outcome_resolve resolver parsed.target "DNS " with
        ⟨e, herror, -⟩ | ⟨-, hne⟩
      · refine ⟨e, ?_⟩
        rw [bind_of_ok (p := of_outcome (.ok parsed)) rfl, bind_of_error herror, events_resolve]
        rfl
      · exact absurd h hne

theorem elapsed_run_le {peers : Peers spec.timeout} (h : spec.check_type = .Tcp ∨ tried spec resolver = []) :
    elapsed (run spec resolver peers) ≤ (tried spec resolver).length * spec.timeout := by
  obtain htype | hnone := h
  · rw [run, tried, htype]
    exact elapsed_check_tcp_le
  · obtain ⟨e, hrun⟩ := run_untried peers hnone
    rw [hrun]
    exact Nat.zero_le _

theorem sum_range_succ (f : Nat → Nat) (n i : Nat) : ((List.range (n + 1)).map fun j => f (i + j)).sum =
    f i + ((List.range n).map fun j => f (i + 1 + j)).sum := by
  simp only [List.range_succ_eq_map, List.map_cons, List.map_map, List.sum_cons, Function.comp_def, Nat.add_zero,
    Nat.succ_eq_add_one, Nat.add_assoc, Nat.add_comm 1]

/-- There is a pause after every attempt but the last. -/
theorem pauses_succ (n pause : Nat) : (n + 1 - 1) * pause = (if 0 < n then pause else 0) + (n - 1) * pause := by
  cases n with
  | zero => simp
  | succ n => rw [if_pos (Nat.succ_pos n), Nat.add_sub_cancel, Nat.add_sub_cancel, Nat.succ_mul, Nat.add_comm]

theorem elapsed_pause (n : Nat) : elapsed (pause spec n) = if 0 < n then from_secs spec.retry_interval_secs else 0 := by
  unfold pause
  split_ifs
  · exact Nat.add_zero _
  · rfl

/-- The probes from one on, and the pauses between them. -/
theorem elapsed_attempts_le {bound : Nat → Nat} {n i : Nat} (last_reason : Option String)
    (h : ∀ j < n, elapsed (run spec (world.resolver (i + j)) (world.peers (i + j))) ≤ bound (i + j)) :
    elapsed (attempts spec world n i last_reason) ≤
      ((List.range n).map fun j => bound (i + j)).sum + (n - 1) * from_secs spec.retry_interval_secs := by
  induction n generalizing i last_reason with
  | zero => exact Nat.zero_le _
  | succ n ih =>
    have hlater : ∀ j < n, elapsed (run spec (world.resolver (i + 1 + j)) (world.peers (i + 1 + j))) ≤ bound (i + 1 + j) := by
      intro j hj
      rw [Nat.add_assoc, Nat.add_comm 1]
      exact h (j + 1) (by omega)
    have hstep : elapsed (attempts spec world (n + 1) i last_reason) ≤ bound i +
        ((if 0 < n then from_secs spec.retry_interval_secs else 0) +
          (((List.range n).map fun j => bound (i + 1 + j)).sum + (n - 1) * from_secs spec.retry_interval_secs)) := by
      refine cost_bind_le (h 0 (Nat.succ_pos n)) fun outcome _ => ?_
      cases outcome with
      | ok _ => exact Nat.zero_le _
      | error reason => exact cost_bind_le (Nat.le_of_eq (elapsed_pause n)) fun _ _ => ih (some reason) hlater
    rw [sum_range_succ, pauses_succ]
    omega

theorem attempts_of_healthy {n i : Nat} {last_reason : Option String}
    (h : (run spec (world.resolver i) (world.peers i)).outcome = .ok ()) :
    (attempts spec world (n + 1) i last_reason).outcome = .ok (.ok (passed spec i)) := by
  rw [attempts, outcome_bind, attempt, h]
  rfl

theorem attempts_of_unhealthy {n i : Nat} {last_reason : Option String} {reason : String}
    (h : (run spec (world.resolver i) (world.peers i)).outcome = .error reason) :
    (attempts spec world (n + 1) i last_reason).outcome = (attempts spec world n (i + 1) (some reason)).outcome := by
  have hpause : (pause spec n).outcome = .ok () := by
    unfold pause
    split_ifs <;> rfl
  rw [attempts, outcome_bind, attempt, h]
  refine outcome_bind.trans ?_
  rw [hpause]
  rfl

/-- The attempts succeed when one of the probes finds the target healthy. -/
theorem attempts_ok_iff (n i : Nat) (last_reason : Option String) :
    (∃ r, (attempts spec world n i last_reason).outcome = .ok r) ↔
      ∃ j < n, (run spec (world.resolver (i + j)) (world.peers (i + j))).outcome = .ok () := by
  induction n generalizing i last_reason with
  | zero => simp [attempts, of_outcome]
  | succ n ih =>
    cases hrun : (run spec (world.resolver i) (world.peers i)).outcome with
    | ok healthy => exact iff_of_true ⟨_, attempts_of_healthy hrun⟩ ⟨0, Nat.succ_pos n, hrun⟩
    | error reason =>
      rw [attempts_of_unhealthy hrun, ih]
      constructor
      · rintro ⟨j, hj, hok⟩
        exact ⟨j + 1, by omega, by rwa [Nat.add_assoc, Nat.add_comm 1] at hok⟩
      · rintro ⟨j, hj, hok⟩
        cases j with
        | zero => cases hrun.symm.trans hok
        | succ j => exact ⟨j, by omega, by rwa [Nat.add_assoc, Nat.add_comm 1]⟩

end Time

section Stalling

variable {spec : MonitoringCheckSpec} {world : World spec.timeout} {resolver : Resolver}

/-- Peers that take the longest: a connection is accepted for HTTP only, and
the response comes one byte at a time. -/
def stalling (spec : MonitoringCheckSpec) : Peers spec.timeout where
  connect _ _ :=
    match spec.check_type with
    | .Tcp => ⟨spec.timeout, .error "connection timed out"⟩
    | .Http => ⟨0, .ok ()⟩
  write _ bytes := ⟨0, .ok bytes.length⟩
  read _ := ⟨spec.timeout, .ok [120]⟩
  connect_within _ _ := by split <;> simp
  write_within _ _ := Nat.zero_le _
  read_within _ := Nat.le_refl _

theorem stalled_try_each (htype : spec.check_type = .Tcp) (i : Nat) (addrs : List SocketAddr) (last_err : String) :
    elapsed (try_each (stalling spec) i addrs last_err) = addrs.length * spec.timeout ∧
      ∃ e, (try_each (stalling spec) i addrs last_err).outcome = .error e := by
  induction addrs generalizing i last_err with
  | nil => exact ⟨by simp [elapsed, cost, try_each, unhealthy], last_err, rfl⟩
  | cons addr rest ih =>
    have hconnect : (stalling spec).connect i addr = ⟨spec.timeout, .error "connection timed out"⟩ := by
      simp [stalling, htype]
    obtain ⟨houtcome, htime⟩ := @try_each_of_error _ (stalling spec) i addr rest last_err
      ("connect " ++ addr.to_string ++ ": " ++ "connection timed out") (by rw [connect_timeout, hconnect]; rfl)
    obtain ⟨hrest, reason, herror⟩ := ih (i + 1) ("connect " ++ addr.to_string ++ ": " ++ "connection timed out")
    refine ⟨?_, reason, houtcome.trans herror⟩
    rw [htime, hrest, hconnect, List.length_cons, Nat.succ_mul, Nat.add_comm]

theorem stalled_tcp (htype : spec.check_type = .Tcp) :
    elapsed (run spec resolver (stalling spec)) = (tried spec resolver).length * spec.timeout ∧
      ∃ e, (run spec resolver (stalling spec)).outcome = .error e := by
  by_cases hnone : tried spec resolver = []
  · obtain ⟨e, hrun⟩ := run_untried (stalling spec) hnone
    rw [hrun, hnone]
    exact ⟨by simp [elapsed, cost], e, rfl⟩
  · have hadmitted : tried spec resolver = admitted resolver spec.target.toList := by rw [tried, htype]
    rw [hadmitted] at hnone ⊢
    rcases outcome_resolve resolver spec.target.toList "DNS resolve " with
      ⟨_, -, hnil⟩ | ⟨hok, -⟩
    · exact absurd hnil hnone
    · obtain ⟨htime, e, herror⟩ := stalled_try_each htype 0 (admitted resolver spec.target.toList) ""
      rw [run, htype]
      simp only
      rw [check_tcp, bind_of_ok hok, events_resolve, List.nil_append]
      exact ⟨htime, e, herror⟩

theorem stalled_read (fuel i limit : Nat) (h : fuel ≤ limit) :
    fuel * spec.timeout ≤ elapsed (read_to_end (stalling spec) fuel i limit) := by
  induction fuel generalizing i limit with
  | zero => simp
  | succ fuel ih =>
    have hchunk : ([120].take limit : List UInt8).length = 1 := by
      rw [List.length_take, List.length_singleton]
      omega
    have hstep := @le_elapsed_read _ (stalling spec) fuel i limit [120] rfl (by simp) (by omega)
    have hrest := ih (i + 1) (limit - 1) (by omega)
    rw [hchunk] at hstep
    rw [Nat.succ_mul, Nat.add_comm]
    exact (Nat.add_le_add_left hrest _).trans hstep

variable (spec) in
theorem stalled_write (addr : SocketAddr) (fuel i : Nat) (left : List UInt8) :
    (write_all (stalling spec) addr fuel i left).outcome = .ok () := by
  induction fuel generalizing i left with
  | zero => rfl
  | succ fuel ih =>
    rw [write_all]
    split_ifs with hleft
    · rfl
    · have hcall : (write_call (stalling spec) addr i left).outcome = .ok left.length := rfl
      rw [bind_of_ok hcall]
      simp only [List.length_eq_zero_iff, hleft, ↓reduceIte]
      exact ih (i + 1) _

/-- A response that trickles in is read to the limit. -/
theorem stalled_http (htype : spec.check_type = .Http) (h : tried spec resolver ≠ []) :
    response_limit * spec.timeout ≤ elapsed (run spec resolver (stalling spec)) := by
  rw [tried, htype] at h
  cases hparse : parse_http_url spec.target.toList with
  | error e => simp [hparse] at h
  | ok parsed =>
    simp only [hparse, ne_eq, List.take_eq_nil_iff, one_ne_zero, false_or] at h
    obtain ⟨_, -, hnil⟩ | ⟨hok, -⟩ := outcome_resolve resolver parsed.target "DNS "
    · exact absurd hnil h
    · obtain ⟨addr, rest, haddrs⟩ := List.exists_cons_of_ne_nil h
      have hconnect : (connect_timeout (stalling spec) 0 addr).outcome = .ok () := by
        simp [connect_timeout, stalling, htype, emit]
      rw [haddrs] at hok
      rw [run, htype]
      have hwrite := fallible.mapError_eq_ok_iff (f := fun e => "write: " ++ e) |>.mpr
        (stalled_write spec addr (utf8 parsed.request).length 0 (utf8 parsed.request))
      have hread : response_limit * spec.timeout ≤ cost Event.elapsed (map_error (fun e => "read: " ++ e)
          (read_to_end (stalling spec) response_limit 0 response_limit)) := by
        rw [cost_map_error]
        exact stalled_read response_limit 0 response_limit (Nat.le_refl _)
      refine le_cost_bind_of_ok (by rw [hparse]; rfl) (le_cost_bind_of_ok hok (le_cost_bind_of_ok hconnect ?_))
      refine le_cost_bind_of_ok rfl (le_cost_bind_of_ok rfl (le_cost_bind_of_ok hwrite ?_))
      exact hread.trans le_cost_bind

end Stalling

section Attempts

variable {spec : MonitoringCheckSpec} {world : World spec.timeout}

theorem elapsed_attempts_succ {n i : Nat} {last_reason : Option String} {reason : String}
    (h : (run spec (world.resolver i) (world.peers i)).outcome = .error reason) :
    elapsed (attempts spec world (n + 1) i last_reason) =
      elapsed (run spec (world.resolver i) (world.peers i)) +
        (elapsed (pause spec n) + elapsed (attempts spec world n (i + 1) (some reason))) := by
  have hprobe : (attempt (run spec (world.resolver i) (world.peers i)) : Logged Event Error _).outcome =
      .ok (.error reason) := by
    rw [attempt, h]
  have hpause : (pause spec n).outcome = .ok () := by
    unfold pause
    split_ifs <;> rfl
  rw [attempts]
  unfold elapsed
  rw [cost_bind_of_ok hprobe, cost_bind_of_ok hpause]
  rfl

/-- Attempts that all fail take the time of the probes and of the pauses. -/
theorem le_elapsed_attempts (h : ∀ i, ∃ e, (run spec (world.resolver i) (world.peers i)).outcome = .error e)
    (n i : Nat) (last_reason : Option String) :
    ((List.range n).map fun j => elapsed (run spec (world.resolver (i + j)) (world.peers (i + j)))).sum +
      (n - 1) * from_secs spec.retry_interval_secs ≤ elapsed (attempts spec world n i last_reason) := by
  induction n generalizing i last_reason with
  | zero => simp
  | succ n ih =>
    obtain ⟨reason, hrun⟩ := h i
    have hrest := ih (i + 1) (some reason)
    rw [elapsed_attempts_succ hrun, sum_range_succ fun i => elapsed (run spec (world.resolver i) (world.peers i)),
      pauses_succ, elapsed_pause]
    omega

/-- The time of a probe that follows failed ones. -/
theorem elapsed_run_le_attempts {n i j : Nat} {last_reason : Option String} (hj : j < n)
    (h : ∀ k < j, ∃ e, (run spec (world.resolver (i + k)) (world.peers (i + k))).outcome = .error e) :
    elapsed (run spec (world.resolver (i + j)) (world.peers (i + j))) ≤ elapsed (attempts spec world n i last_reason) := by
  induction j generalizing n i last_reason with
  | zero =>
    obtain ⟨n, rfl⟩ : ∃ m, n = m + 1 := ⟨n - 1, by omega⟩
    rw [attempts, Nat.add_zero]
    exact (Nat.le_of_eq (cost_attempt _).symm).trans le_cost_bind
  | succ j ih =>
    obtain ⟨n, rfl⟩ : ∃ m, n = m + 1 := ⟨n - 1, by omega⟩
    obtain ⟨reason, hrun⟩ := h 0 (Nat.succ_pos j)
    have hrest := @ih n (i + 1) (some reason) (by omega) fun k hk => by
      rw [Nat.add_assoc, Nat.add_comm 1]
      exact h (k + 1) (by omega)
    rw [Nat.add_assoc, Nat.add_comm 1] at hrest
    rw [Nat.add_zero] at hrun
    rw [elapsed_attempts_succ hrun]
    omega

end Attempts

section Budget

variable {v : Value} {spec : MonitoringCheckSpec} {step : Step}

/-- The budget that the field `retries` documents. -/
def MonitoringCheckSpec.budget (spec : MonitoringCheckSpec) : Nat :=
  from_secs ((spec.retries + 1) * spec.timeout_secs + spec.retries * spec.retry_interval_secs)

/-- What is asked of an apply. -/
structure Honours (spec : MonitoringCheckSpec) (step : Step) (world : World spec.timeout) : Prop where
  within : elapsed (apply spec step world) ≤ spec.budget
  succeeds : (∃ r, (apply spec step world).outcome = .ok r) ↔
    ∃ i ≤ spec.retries, (run spec (world.resolver i) (world.peers i)).outcome = .ok ()

/-- The probes try no more addresses than there are probes, and none over HTTP. -/
def Bounded (spec : MonitoringCheckSpec) (resolver : Nat → Resolver) : Prop :=
  match spec.check_type with
  | .Tcp => ((List.range (spec.retries + 1)).map fun i => (tried spec (resolver i)).length).sum ≤ spec.retries + 1
  | .Http => ∀ i ≤ spec.retries, tried spec (resolver i) = []

theorem Bounded.tcp_or_untried {resolver : Nat → Resolver} (h : Bounded spec resolver) (i : Nat) (hi : i ≤ spec.retries) :
    spec.check_type = .Tcp ∨ tried spec (resolver i) = [] := by
  cases htype : spec.check_type with
  | Tcp => exact .inl rfl
  | Http =>
    rw [Bounded, htype] at h
    exact .inr (h i hi)

theorem Bounded.sum_le {resolver : Nat → Resolver} (h : Bounded spec resolver) :
    ((List.range (spec.retries + 1)).map fun i => (tried spec (resolver i)).length).sum ≤ spec.retries + 1 := by
  cases htype : spec.check_type with
  | Tcp =>
    rw [Bounded, htype] at h
    exact h
  | Http =>
    rw [Bounded, htype] at h
    have hnone : ((List.range (spec.retries + 1)).map fun i => (tried spec (resolver i)).length).sum = 0 := by
      refine List.sum_eq_zero fun n hn => ?_
      obtain ⟨i, hi, rfl⟩ := List.mem_map.mp hn
      rw [h i (by have := List.mem_range.mp hi; omega), List.length_nil]
    omega

theorem apply_eq {world : World spec.timeout} (haccepted : Accepted spec) (hstep : step.action = MonitoringAction.Verify.as_str) :
    apply spec step world = attempts spec world (spec.retries + 1) 0 none := by
  rw [apply, hstep, haccepted.total_attempts]
  exact bind_of_ok rfl

theorem sum_timeouts (lengths : Nat → Nat) (n timeout : Nat) :
    ((List.range n).map fun i => lengths i * timeout).sum = ((List.range n).map lengths).sum * timeout :=
  List.sum_map_mul_right (List.range n) lengths timeout

theorem budget_eq (spec : MonitoringCheckSpec) :
    spec.budget = (spec.retries + 1) * spec.timeout + spec.retries * from_secs spec.retry_interval_secs := by
  simp only [MonitoringCheckSpec.budget, MonitoringCheckSpec.timeout, from_secs, Nat.add_mul, Nat.mul_assoc]

/-- A response that trickles in outlasts every budget. -/
theorem budget_lt_response (h : Accepted spec) : spec.budget < response_limit * spec.timeout := by
  have hpos := h.timeout_pos
  have hretries : spec.retries * spec.timeout_secs ≤ 30 * spec.timeout_secs := Nat.mul_le_mul_right _ h.retries_le
  have hintervals : spec.retries * spec.retry_interval_secs ≤ 30 * 60 := Nat.mul_le_mul h.retries_le h.interval_le
  simp only [MonitoringCheckSpec.budget, MonitoringCheckSpec.timeout, from_secs, response_limit]
  rw [Nat.succ_mul]
  omega

/-- An apply keeps to the documented budget, whatever the peers do, exactly
when the resolver gives the probes no more addresses than their number. -/
theorem budget_kept_iff (hspec : MonitoringCheckSpec.from_value v = .ok spec)
    (hstep : step.action = MonitoringAction.Verify.as_str) (resolver : Nat → Resolver) :
    (∀ peers, Honours spec step ⟨resolver, peers⟩) ↔ Bounded spec resolver := by
  have haccepted := accepted_of_from_value hspec
  have hpos : 0 < spec.timeout := by
    have htimeout := haccepted.timeout_pos
    simp only [MonitoringCheckSpec.timeout, from_secs]
    omega
  constructor
  · intro h
    have hwithin := (h fun _ => stalling spec).within
    rw [apply_eq haccepted hstep, budget_eq] at hwithin
    rw [Bounded]
    split
    · next htype =>
      have htime := @le_elapsed_attempts spec ⟨resolver, fun _ => stalling spec⟩ (fun i => (stalled_tcp htype).2)
        (spec.retries + 1) 0 none
      simp only [Nat.zero_add, (stalled_tcp htype).1, Nat.add_sub_cancel] at htime
      rw [sum_timeouts] at htime
      exact Nat.le_of_mul_le_mul_right (by omega) hpos
    · next htype =>
      -- the first probe that connects outlasts the budget
      by_contra hconnects
      simp only [not_forall] at hconnects
      obtain ⟨hle, hne⟩ := Nat.find_spec hconnects
      have hprobe := stalled_http htype hne
      have hattempts := @elapsed_run_le_attempts spec ⟨resolver, fun _ => stalling spec⟩ (spec.retries + 1) 0
        (Nat.find hconnects) none (by omega) fun k hk => by
          have hnone : tried spec (resolver k) = [] := by
            by_contra hsome
            exact Nat.find_min hconnects hk ⟨by omega, hsome⟩
          obtain ⟨e, hrun⟩ := run_untried (stalling spec) hnone
          exact ⟨e, by rw [Nat.zero_add, hrun]⟩
      have hbudget := budget_lt_response haccepted
      rw [budget_eq] at hbudget
      simp only [Nat.zero_add] at hattempts
      omega
  · intro hbounded peers
    refine ⟨?_, ?_⟩
    · have hattempts := @elapsed_attempts_le spec ⟨resolver, peers⟩
        (fun i => (tried spec (resolver i)).length * spec.timeout) (spec.retries + 1) 0 none fun i hi =>
          elapsed_run_le (hbounded.tcp_or_untried _ (by omega))
      simp only [Nat.zero_add, Nat.add_sub_cancel] at hattempts
      rw [sum_timeouts] at hattempts
      have htimeouts := Nat.mul_le_mul_right spec.timeout hbounded.sum_le
      rw [apply_eq haccepted hstep, budget_eq]
      omega
    · rw [apply_eq haccepted hstep, attempts_ok_iff]
      simp only [Nat.zero_add, Nat.lt_succ_iff]

def db_port (target : String) : MonitoringCheckSpec := { name := "db-port", check_type := .Tcp, target }

def db_value (target : String) : Value :=
  json [("name", .string "db-port"), ("type", .string "tcp"), ("target", .string target)]

def verify_step : Step := Step.new 0 MonitoringAction.Verify.as_str "monitoring.check/db-port" .null

/-- A name with one address is probed within the timeout. -/
theorem one_address_is_bounded : Honours (db_port "10.0.0.5:5432") verify_step
    ⟨fun _ _ => .ok [], fun _ => stalling (db_port "10.0.0.5:5432")⟩ := by
  have hspec : MonitoringCheckSpec.from_value (db_value "10.0.0.5:5432") = .ok (db_port "10.0.0.5:5432") := rfl
  have hbounded : Bounded (db_port "10.0.0.5:5432") fun _ _ => .ok [] := by
    unfold Bounded db_port
    decide
  exact (budget_kept_iff hspec rfl _).mpr hbounded _

def dual_stack : Resolver := fun _ => .ok [.V6 ⟨0, 0, 0, 0, 0, 0, 0, 1⟩, .V4 ⟨127, 0, 0, 1⟩]

/-- A name with two addresses that do not answer takes the timeout twice. -/
theorem two_addresses_are_not_bounded :
    ¬ ∀ v spec step world, MonitoringCheckSpec.from_value v = .ok spec → step.action = MonitoringAction.Verify.as_str →
      Honours spec step world := by
  intro hall
  have hwithin := (hall (db_value "localhost:5432") (db_port "localhost:5432") verify_step
    ⟨fun _ => dual_stack, fun _ => stalling (db_port "localhost:5432")⟩ rfl rfl).within
  revert hwithin
  decide

end Budget

end iac_providers.monitoring
