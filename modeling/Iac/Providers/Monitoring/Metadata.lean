import Iac.Providers.Monitoring.Budget

open iac_core serde_json net logged

namespace iac_providers.monitoring

section Addresses

/-- The address that a connection to an address reaches: an IPv4-mapped one
stands for the IPv4 address in it. -/
def reached : IpAddr → IpAddr
  | .V4 ip => .V4 ip
  | .V6 ip =>
    match ip.to_ipv4_mapped with
    | some v4 => .V4 v4
    | none => .V6 ip

/-- 169.254.169.254 and fd00:ec2::254. -/
def metadata : List IpAddr := [.V4 ⟨169, 254, 169, 254⟩, .V6 ⟨0xfd00, 0xec2, 0, 0, 0, 0, 0, 0x254⟩]

/-- ::ffff:169.254.169.254. -/
def mapped_metadata : IpAddr := .V6 ⟨0, 0, 0, 0, 0, 0xffff, 0xa9fe, 0xa9fe⟩

theorem segment_of_bytes {n : UInt16} (hhigh : UInt8.ofNat (n.toNat / 256) = 169) (hlow : UInt8.ofNat (n.toNat % 256) = 254) :
    n = 0xa9fe := by
  have hlt := n.toNat_lt
  have hhigh := congrArg UInt8.toNat hhigh
  have hlow := congrArg UInt8.toNat hlow
  rw [UInt8.toNat_ofNat'] at hhigh hlow
  have h169 : (169 : UInt8).toNat = 169 := rfl
  have h254 : (254 : UInt8).toNat = 254 := rfl
  apply UInt16.toNat_inj.mp
  change n.toNat = 43518
  omega

theorem mapped_eq_metadata_iff (ip : Ipv6Addr) :
    ip.to_ipv4_mapped = some ⟨169, 254, 169, 254⟩ ↔ IpAddr.V6 ip = mapped_metadata := by
  constructor
  · intro h
    unfold Ipv6Addr.to_ipv4_mapped at h
    split_ifs at h with hbegins
    obtain ⟨h0, h1, h2, h3, h4, h5⟩ := hbegins
    have hbytes := Option.some.inj h
    rw [Ipv4Addr.mk.injEq] at hbytes
    obtain ⟨ha, hb, hc, hd⟩ := hbytes
    have h6 := segment_of_bytes ha hb
    have h7 := segment_of_bytes hc hd
    cases ip
    simp_all [mapped_metadata]
  · intro h
    obtain rfl := IpAddr.V6.inj h
    decide

/-- The comparison sees the metadata addresses in every form but the mapped one. -/
theorem reaches_metadata_iff (ip : IpAddr) :
    reached ip ∈ metadata ↔ is_metadata_addr ip = true ∨ ip = mapped_metadata := by
  cases ip with
  | V4 ip => simp [reached, metadata, is_metadata_addr, mapped_metadata]
  | V6 ip =>
    rw [← mapped_eq_metadata_iff]
    cases hmapped : ip.to_ipv4_mapped with
    | none => simp [reached, hmapped, metadata, is_metadata_addr]
    | some v4 =>
      have hnot : ip ≠ ⟨0xfd00, 0xec2, 0, 0, 0, 0, 0, 0x254⟩ := by
        rintro rfl
        simp [Ipv6Addr.to_ipv4_mapped] at hmapped
      simp [reached, hmapped, metadata, is_metadata_addr, hnot]

end Addresses

section Events

/-- The addresses of the connections that were opened, or tried. -/
def opened (events : List Event) : List SocketAddr :=
  events.filterMap fun
    | .connect addr _ => some addr
    | _ => none

/-- The bytes that were sent to an address. -/
def sent (addr : SocketAddr) (events : List Event) : List UInt8 :=
  events.flatMap fun
    | .write to_addr bytes _ => if to_addr = addr then bytes else []
    | _ => []

theorem opened_append (front back : List Event) : opened (front ++ back) = opened front ++ opened back :=
  List.filterMap_append

theorem sent_append (addr : SocketAddr) (front back : List Event) :
    sent addr (front ++ back) = sent addr front ++ sent addr back :=
  List.flatMap_append

variable {timeout : Nat} {peers : Peers timeout}

def Event.Connects : Event → Prop
  | .connect _ _ => True
  | _ => False

def Event.WritesTo (addr : SocketAddr) : Event → Prop
  | .write to_addr _ _ => to_addr = addr
  | _ => False

def Event.Reads : Event → Prop
  | .read _ => True
  | _ => False

theorem opened_of_every {α : Type} {p : Probe α} (h : Every (fun e => ¬ e.Connects) p) : opened p.events = [] := by
  refine List.filterMap_eq_nil_iff.mpr fun e he => ?_
  have hnot := h e he
  cases e <;> simp_all [Event.Connects]

theorem sent_of_every {α : Type} {p : Probe α} {addr : SocketAddr} (h : Every (fun e => ¬ e.WritesTo addr) p) :
    sent addr p.events = [] := by
  refine List.flatMap_eq_nil_iff.mpr fun e he => ?_
  have hnot := h e he
  cases e <;> simp_all [Event.WritesTo]

theorem write_all_writes (addr : SocketAddr) (fuel i : Nat) (left : List UInt8) :
    Every (Event.WritesTo addr) (write_all peers addr fuel i left) := by
  induction fuel generalizing i left with
  | zero => exact every_silent rfl
  | succ fuel ih =>
    rw [write_all]
    split_ifs
    · exact every_silent rfl
    · refine every_bind ?_ fun n _ => ?_
      · intro e he
        obtain rfl := List.mem_singleton.mp he
        exact rfl
      · split_ifs
        · exact every_silent rfl
        · exact ih (i + 1) _

theorem read_to_end_reads (fuel i limit : Nat) : Every Event.Reads (read_to_end peers fuel i limit) := by
  induction fuel generalizing i limit with
  | zero => exact every_silent rfl
  | succ fuel ih =>
    rw [read_to_end]
    split_ifs
    · exact every_silent rfl
    · refine every_bind ?_ fun chunk _ => ?_
      · intro e he
        obtain rfl := List.mem_singleton.mp he
        exact trivial
      · split_ifs
        · exact every_silent rfl
        · exact every_bind (ih (i + 1) _) fun _ _ => every_silent rfl

variable (peers) in
/-- What is sent is a prefix of what is to be sent, and all of it on success. -/
theorem sent_write_all (addr : SocketAddr) (fuel i : Nat) (left : List UInt8) (hfuel : left.length ≤ fuel) :
    sent addr (write_all peers addr fuel i left).events <+: left ∧
      ((write_all peers addr fuel i left).outcome = .ok () → sent addr (write_all peers addr fuel i left).events = left) := by
  induction fuel generalizing i left with
  | zero =>
    obtain rfl := List.length_eq_zero_iff.mp (Nat.le_zero.mp hfuel)
    exact ⟨List.nil_prefix, fun _ => rfl⟩
  | succ fuel ih =>
    rw [write_all]
    split_ifs with hleft
    · subst hleft
      exact ⟨List.nil_prefix, fun _ => rfl⟩
    · cases hreply : (peers.write i left).result with
      | error e =>
        have hcall : (write_call peers addr i left).outcome = .error e := hreply
        have hsent : sent addr (write_call peers addr i left).events = [] := by
          simp [write_call, emit, sent, hreply, Except.toOption]
        rw [bind_of_error hcall, hsent]
        exact ⟨List.nil_prefix, fun h => by cases h⟩
      | ok n =>
        have hcall : (write_call peers addr i left).outcome = .ok n := hreply
        have hsent : sent addr (write_call peers addr i left).events = left.take n := by
          simp [write_call, emit, sent, hreply, Except.toOption]
        rw [bind_of_ok hcall, sent_append, hsent]
        by_cases hn : n = 0
        · rw [if_pos hn]
          refine ⟨?_, fun h => by cases h⟩
          rw [hn]
          exact List.nil_prefix
        · rw [if_neg hn]
          have hshorter : (left.drop n).length ≤ fuel := by
            rw [List.length_drop]
            omega
          obtain ⟨hbegins, hwhole⟩ := ih (i + 1) (left.drop n) hshorter
          refine ⟨?_, fun hok => ?_⟩
          · have happend := (List.prefix_append_right_inj (left.take n)).mpr hbegins
            rwa [List.take_append_drop] at happend
          · rw [hwhole hok, List.take_append_drop]

variable (peers) in
/-- What happens on a connection: nothing, an unfinished request, or a whole one and its response. -/
theorem events_exchange (addr : SocketAddr) (request : List UInt8) (expected_status : Nat) :
    (exchange peers addr request expected_status).events = [] ∨
      (exchange peers addr request expected_status).events = (write_all peers addr request.length 0 request).events ∨
      (write_all peers addr request.length 0 request).outcome = .ok () ∧
        (exchange peers addr request expected_status).events =
          (write_all peers addr request.length 0 request).events ++
            (read_to_end peers response_limit 0 response_limit).events := by
  rw [exchange]
  cases hread : peers.set_read_timeout with
  | error e => exact .inl rfl
  | ok _ =>
    cases hwrite : peers.set_write_timeout with
    | error e => exact .inl rfl
    | ok _ =>
      refine .inr ?_
      rw [bind_of_ok (p := map_error _ (of_outcome (.ok ()))) rfl, bind_of_ok (p := map_error _ (of_outcome (.ok ()))) rfl]
      cases hall : (write_all peers addr request.length 0 request).outcome with
      | error e =>
        have hfailed := congrArg (Except.mapError fun e => "write: " ++ e) hall
        rw [bind_of_error hfailed]
        exact .inl rfl
      | ok _ =>
        have hdone := fallible.mapError_eq_ok_iff (f := fun e => "write: " ++ e) |>.mpr hall
        refine .inr ⟨rfl, ?_⟩
        rw [bind_of_ok hdone]
        have hresponse : (map_error (fun e => "read: " ++ e) (read_to_end peers response_limit 0 response_limit) >>=
            fun buf => of_outcome (check_status expected_status buf)).events =
              (read_to_end peers response_limit 0 response_limit).events := by
          cases houtcome : (map_error (fun e => "read: " ++ e) (read_to_end peers response_limit 0 response_limit)).outcome with
          | error e => rw [bind_of_error houtcome, events_map_error]
          | ok buf => rw [bind_of_ok houtcome, events_map_error, events_of_outcome, List.append_nil]
        simp only [hresponse, events_map_error, events_of_outcome, List.nil_append]

variable (peers) in
/-- On a connection the request is sent, and all of it before anything is read. -/
theorem sent_exchange (addr : SocketAddr) (request : List UInt8) (expected_status : Nat) :
    sent addr (exchange peers addr request expected_status).events <+: request ∧
      ((∃ e ∈ (exchange peers addr request expected_status).events, e.Reads) →
        sent addr (exchange peers addr request expected_status).events = request) := by
  obtain ⟨hbegins, hwhole⟩ := sent_write_all peers addr request.length 0 request (Nat.le_refl _)
  obtain hnone | hunfinished | ⟨hok, hevents⟩ := events_exchange peers addr request expected_status
  · rw [hnone]
    exact ⟨List.nil_prefix, fun ⟨_, he, _⟩ => nomatch he⟩
  · rw [hunfinished]
    refine ⟨hbegins, fun ⟨e, he, hread⟩ => ?_⟩
    have hwrite := write_all_writes addr request.length 0 request e he
    cases e <;> simp_all [Event.Reads, Event.WritesTo]
  · have hreads : sent addr (read_to_end peers response_limit 0 response_limit).events = [] := by
      refine sent_of_every fun e he hwrites => ?_
      have hread := read_to_end_reads response_limit 0 response_limit e he
      cases e <;> simp_all [Event.Reads, Event.WritesTo]
    rw [hevents, sent_append, hreads, List.append_nil, hwhole hok]
    exact ⟨List.prefix_refl _, fun _ => rfl⟩

variable (peers) in
/-- Nothing goes to another address, and no other connection is opened. -/
theorem exchange_stays (addr : SocketAddr) (request : List UInt8) (expected_status : Nat) :
    Every (fun e => ¬ e.Connects ∧ ∀ other ≠ addr, ¬ e.WritesTo other) (exchange peers addr request expected_status) := by
  have hwrites : Every (fun e => ¬ e.Connects ∧ ∀ other ≠ addr, ¬ e.WritesTo other)
      (write_all peers addr request.length 0 request) := by
    intro e he
    have hwrite := write_all_writes addr request.length 0 request e he
    cases e <;> simp_all [Event.Connects, Event.WritesTo, eq_comm]
  have hreads : Every (fun e => ¬ e.Connects ∧ ∀ other ≠ addr, ¬ e.WritesTo other)
      (read_to_end peers response_limit 0 response_limit) := by
    intro e he
    have hread := read_to_end_reads response_limit 0 response_limit e he
    cases e <;> simp_all [Event.Reads, Event.Connects, Event.WritesTo]
  obtain hevents | hevents | ⟨-, hevents⟩ := events_exchange peers addr request expected_status
  · intro e he
    rw [hevents] at he
    cases he
  · intro e he
    exact hwrites e (hevents ▸ he)
  · intro e he
    rw [hevents] at he
    exact (List.mem_append.mp he).elim (hwrites e) (hreads e)

theorem opened_try_each (i : Nat) (addrs : List SocketAddr) (last_err : String) :
    opened (try_each peers i addrs last_err).events <+: addrs ∧
      ((∀ i addr, ∃ e, (peers.connect i addr).result = .error e) →
        opened (try_each peers i addrs last_err).events = addrs) := by
  induction addrs generalizing i last_err with
  | nil => exact ⟨List.nil_prefix, fun _ => rfl⟩
  | cons addr rest ih =>
    have hopened : opened (connect_timeout peers i addr).events = [addr] := rfl
    cases houtcome : (connect_timeout peers i addr).outcome with
    | ok healthy =>
      have hattempt : (attempt (connect_timeout peers i addr) : Probe _).outcome = .ok (.ok healthy) := by
        rw [attempt, houtcome]
      rw [try_each, bind_of_ok hattempt, opened_append, events_attempt, hopened]
      refine ⟨⟨rest, rfl⟩, fun hrefuses => ?_⟩
      obtain ⟨e, herror⟩ := hrefuses i addr
      simp [connect_timeout, emit, herror] at houtcome
    | error e =>
      have hattempt : (attempt (connect_timeout peers i addr) : Probe _).outcome = .ok (.error e) := by
        rw [attempt, houtcome]
      obtain ⟨hbegins, hall⟩ := ih (i + 1) e
      rw [try_each, bind_of_ok hattempt, opened_append, events_attempt, hopened]
      exact ⟨List.cons_prefix_cons.mpr ⟨rfl, hbegins⟩, fun hrefuses => congrArg (addr :: ·) (hall hrefuses)⟩

variable (peers) in
theorem try_each_connects (i : Nat) (addrs : List SocketAddr) (last_err : String) :
    Every Event.Connects (try_each peers i addrs last_err) := by
  induction addrs generalizing i last_err with
  | nil => exact fun _ h => nomatch h
  | cons addr rest ih =>
    refine every_bind ?_ fun outcome _ => ?_
    · intro e he
      obtain rfl := List.mem_singleton.mp he
      exact trivial
    · cases outcome with
      | ok _ => exact fun _ h => nomatch h
      | error e => exact ih (i + 1) e

end Events

section Requests

/-- A request line and the headers, each on a line of its own. -/
def request_lines (path host : List Char) : List (List Char) :=
  ["GET ".toList ++ path ++ " HTTP/1.0".toList, "Host: ".toList ++ host,
    "User-Agent: iac-monitoring-check/1.0".toList, "Connection: close".toList, [], []]

def request_text (path host : List Char) : List Char := ['\r', '\n'].intercalate (request_lines path host)

theorem request_eq (parsed : ParsedUrl) : parsed.request = request_text parsed.path parsed.host := by
  delta ParsedUrl.request
  simp only [request_text, request_lines, List.intercalate_cons_cons, List.intercalate_singleton, List.append_assoc]
  rfl

theorem mem_of_rsplit_once {separator c : Char} {text front back : List Char}
    (h : str.rsplit_once separator text = some (front, back)) (hc : c ∈ front) : c ∈ text := by
  unfold str.rsplit_once at h
  split at h
  · cases h
  · next first rest hdrop =>
    obtain ⟨rfl, -⟩ := Prod.mk.inj (Option.some.inj h)
    have hmem : c ∈ text.reverse.dropWhile (· != separator) := by
      rw [hdrop]
      exact List.mem_cons_of_mem _ (List.mem_reverse.mp hc)
    exact List.mem_reverse.mp ((List.dropWhile_suffix _).subset hmem)

/-- The host and the path are made of the characters of the URL, and a slash. -/
theorem mem_of_parse_http_url {url : List Char} {parsed : ParsedUrl} (h : parse_http_url url = .ok parsed) {c : Char}
    (hc : c ∈ parsed.path ++ parsed.host) : c ∈ url ∨ c = '/' := by
  simp only [parse_http_url] at h
  split at h
  · cases h
  · next after hafter =>
    have hurl : ∀ c ∈ after, c ∈ url := by
      intro c hmem
      have happend := List.append_eq_of_isPrefixOf?_eq_some hafter
      rw [← happend]
      exact List.mem_append_right _ hmem
    have hpath : ∀ c ∈ (if (after.dropWhile (· != '/')).isEmpty then ['/'] else after.dropWhile (· != '/')),
        c ∈ url ∨ c = '/' := by
      intro c hmem
      split_ifs at hmem
      · exact .inr (List.mem_singleton.mp hmem)
      · exact .inl (hurl c ((List.dropWhile_suffix _).subset hmem))
    have hauthority : ∀ c ∈ after.takeWhile (· != '/'), c ∈ url := fun c hmem =>
      hurl c ((List.takeWhile_prefix _).subset hmem)
    generalize (if (after.dropWhile (· != '/')).isEmpty then ['/'] else after.dropWhile (· != '/')) = path at h hpath
    split at h
    · next host port hsplit =>
      split at h
      · cases h
      · split_ifs at h
        obtain rfl := Except.ok.inj h
        exact (List.mem_append.mp hc).elim (hpath c) fun hhost => .inl (hauthority c (mem_of_rsplit_once hsplit hhost))
    · split_ifs at h
      obtain rfl := Except.ok.inj h
      exact (List.mem_append.mp hc).elim (hpath c) fun hhost => .inl (hauthority c hhost)

end Requests

section Guarded

variable {v : Value} {spec : MonitoringCheckSpec} {resolver : Resolver} {peers : Peers spec.timeout}

theorem events_resolve_bind {α : Type} {dns : String} {target : List Char} {k : List SocketAddr → Probe α}
    (h : admitted resolver target ≠ []) :
    (resolve resolver dns target >>= k).events = (k (admitted resolver target)).events := by
  obtain ⟨_, -, hnil⟩ | ⟨hok, -⟩ := outcome_resolve resolver target dns
  · exact absurd hnil h
  · rw [bind_of_ok hok, events_resolve, List.nil_append]

/-- A probe over TCP connects and sends nothing. -/
theorem events_tcp (htype : spec.check_type = .Tcp) (h : tried spec resolver ≠ []) :
    (run spec resolver peers).events = (try_each peers 0 (tried spec resolver) "").events := by
  have htried : tried spec resolver = admitted resolver spec.target.toList := by rw [tried, htype]
  rw [htried] at h ⊢
  rw [run, htype]
  exact events_resolve_bind h

variable (peers) in
/-- A probe over HTTP opens one connection at most. -/
theorem events_http (htype : spec.check_type = .Http) (h : tried spec resolver ≠ []) :
    ∃ parsed addr, parse_http_url spec.target.toList = .ok parsed ∧ tried spec resolver = [addr] ∧
      ((run spec resolver peers).events = (connect_timeout peers 0 addr).events ∨
        (run spec resolver peers).events = (connect_timeout peers 0 addr).events ++
          (exchange peers addr (utf8 parsed.request) (spec.expected_status.getD 200)).events) := by
  rw [tried, htype] at h
  cases hparse : parse_http_url spec.target.toList with
  | error e => simp [hparse] at h
  | ok parsed =>
    simp only [hparse, ne_eq, List.take_eq_nil_iff, one_ne_zero, false_or] at h
    obtain ⟨addr, rest, haddrs⟩ := List.exists_cons_of_ne_nil h
    refine ⟨parsed, addr, rfl, by simp [tried, htype, hparse, haddrs], ?_⟩
    have hrun : (run spec resolver peers).events = (connect_timeout peers 0 addr >>= fun _ =>
        exchange peers addr (utf8 parsed.request) (spec.expected_status.getD 200)).events := by
      rw [run, htype]
      simp only
      rw [check_http, hparse, bind_of_ok (p := of_outcome (.ok parsed)) rfl]
      refine (List.nil_append _).trans ?_
      rw [events_resolve_bind h, haddrs]
    rw [hrun]
    cases houtcome : (connect_timeout peers 0 addr).outcome with
    | error e => exact .inl (by rw [bind_of_error houtcome])
    | ok _ => exact .inr (by rw [bind_of_ok houtcome])

/-- What is refused is not tried. -/
theorem not_metadata_of_tried {addr : SocketAddr} (h : addr ∈ tried spec resolver) : ¬ is_metadata_addr addr.ip = true := by
  have hadmitted {target : List Char} (hmem : addr ∈ admitted resolver target) : ¬ is_metadata_addr addr.ip = true := by
    intro hmetadata
    unfold admitted at hmem
    split at hmem
    · cases hmem
    · split_ifs at hmem with hany
      · cases hmem
      · exact hany (List.any_eq_true.mpr ⟨addr, hmem, hmetadata⟩)
  unfold tried at h
  split at h
  · exact hadmitted h
  · split at h
    · cases h
    · exact hadmitted (List.take_subset _ _ h)

/-- What is asked of a probe. -/
structure Guarded (spec : MonitoringCheckSpec) (resolver : Resolver) (peers : Peers spec.timeout) : Prop where
  no_metadata : ∀ addr ∈ opened (run spec resolver peers).events, reached addr.ip ∉ metadata
  one_request : ∃ path host : List Char, (∀ c ∈ path ++ host, c ≠ '\r' ∧ c ≠ '\n') ∧
    (∀ addr, sent addr (run spec resolver peers).events <+: utf8 (request_text path host)) ∧
    ((∃ e ∈ (run spec resolver peers).events, e.Reads) → ∃ addr, opened (run spec resolver peers).events = [addr] ∧
      sent addr (run spec resolver peers).events = utf8 (request_text path host))

theorem opened_run_prefix : opened (run spec resolver peers).events <+: tried spec resolver := by
  by_cases hnone : tried spec resolver = []
  · obtain ⟨e, hrun⟩ := run_untried peers hnone
    rw [hrun]
    exact List.nil_prefix
  · cases htype : spec.check_type with
    | Tcp =>
      rw [events_tcp htype hnone]
      exact (opened_try_each 0 _ "").1
    | Http =>
      obtain ⟨parsed, addr, -, htried, hevents⟩ := events_http peers htype hnone
      have hexchange := opened_of_every fun e he =>
        (exchange_stays peers addr (utf8 parsed.request) (spec.expected_status.getD 200) e he).1
      rw [htried]
      obtain hevents | hevents := hevents
      · rw [hevents]
        exact List.prefix_refl _
      · rw [hevents, opened_append, hexchange]
        exact List.prefix_refl _

/-- Peers that stall are all connected to, or tried. -/
theorem opened_stalling : opened (run spec resolver (stalling spec)).events = tried spec resolver := by
  by_cases hnone : tried spec resolver = []
  · obtain ⟨e, hrun⟩ := run_untried (stalling spec) hnone
    rw [hrun, hnone]
    rfl
  · cases htype : spec.check_type with
    | Tcp =>
      rw [events_tcp htype hnone]
      refine (opened_try_each 0 _ "").2 fun i addr => ?_
      simp [stalling, htype]
    | Http =>
      obtain ⟨parsed, addr, -, htried, hevents⟩ := events_http (stalling spec) htype hnone
      have hexchange := opened_of_every fun e he =>
        (exchange_stays (stalling spec) addr (utf8 parsed.request) (spec.expected_status.getD 200) e he).1
      rw [htried]
      obtain hevents | hevents := hevents
      · rw [hevents]
        rfl
      · rw [hevents, opened_append, hexchange]
        rfl

/-- Only one request is sent, on one line and with the fixed headers. -/
theorem one_request (haccepted : Accepted spec) : ∃ path host : List Char, (∀ c ∈ path ++ host, c ≠ '\r' ∧ c ≠ '\n') ∧
    (∀ addr, sent addr (run spec resolver peers).events <+: utf8 (request_text path host)) ∧
    ((∃ e ∈ (run spec resolver peers).events, e.Reads) → ∃ addr, opened (run spec resolver peers).events = [addr] ∧
      sent addr (run spec resolver peers).events = utf8 (request_text path host)) := by
  by_cases hnone : tried spec resolver = []
  · obtain ⟨e, hrun⟩ := run_untried peers hnone
    rw [hrun]
    exact ⟨[], [], by simp, fun _ => List.nil_prefix, fun ⟨_, he, _⟩ => nomatch he⟩
  · cases htype : spec.check_type with
    | Tcp =>
      have hconnects := try_each_connects peers 0 (tried spec resolver) ""
      rw [events_tcp htype hnone]
      refine ⟨[], [], by simp, fun addr => ?_, fun ⟨e, he, hread⟩ => ?_⟩
      · rw [sent_of_every fun e he hwrites => ?_]
        · exact List.nil_prefix
        · have hconnect := hconnects e he
          cases e <;> simp_all [Event.Connects, Event.WritesTo]
      · have hconnect := hconnects e he
        cases e <;> simp_all [Event.Connects, Event.Reads]
    | Http =>
      obtain ⟨parsed, addr, hparse, -, hevents⟩ := events_http peers htype hnone
      have hplain : ∀ c ∈ parsed.path ++ parsed.host, c ≠ '\r' ∧ c ≠ '\n' := by
        intro c hc
        obtain htarget | rfl := mem_of_parse_http_url hparse hc
        · have hcontrol := haccepted.no_control c htarget
          simp only [control_chars, List.mem_cons, not_or] at hcontrol
          exact ⟨hcontrol.2.1, hcontrol.1⟩
        · decide
      have hstays := exchange_stays peers addr (utf8 parsed.request) (spec.expected_status.getD 200)
      obtain ⟨hbegins, hwhole⟩ := sent_exchange peers addr (utf8 parsed.request) (spec.expected_status.getD 200)
      refine ⟨parsed.path, parsed.host, hplain, ?_⟩
      rw [← request_eq]
      obtain hevents | hevents := hevents
      · rw [hevents]
        refine ⟨fun _ => List.nil_prefix, fun ⟨e, he, hread⟩ => ?_⟩
        obtain rfl := List.mem_singleton.mp he
        exact hread.elim
      · have hsent (other : SocketAddr) : sent other (run spec resolver peers).events =
            sent other (exchange peers addr (utf8 parsed.request) (spec.expected_status.getD 200)).events := by
          rw [hevents, sent_append]
          rfl
        refine ⟨fun other => ?_, fun ⟨e, he, hread⟩ => ⟨addr, ?_, ?_⟩⟩
        · rw [hsent]
          by_cases hother : other = addr
          · rw [hother]
            exact hbegins
          · rw [sent_of_every fun e he => (hstays e he).2 other hother]
            exact List.nil_prefix
        · rw [hevents, opened_append, opened_of_every fun e he => (hstays e he).1]
          rfl
        · rw [hsent]
          refine hwhole ⟨e, ?_, hread⟩
          rw [hevents] at he
          refine (List.mem_append.mp he).resolve_left fun hconnect => ?_
          obtain rfl := List.mem_singleton.mp hconnect
          exact hread

/-- A check never reaches the metadata service, whatever the peers do, exactly
when no address that it may try is the mapped form of the IPv4 one. -/
theorem metadata_not_reached_iff (hspec : MonitoringCheckSpec.from_value v = .ok spec) (resolver : Resolver) :
    (∀ peers, Guarded spec resolver peers) ↔ ∀ addr ∈ tried spec resolver, addr.ip ≠ mapped_metadata := by
  constructor
  · intro h addr haddr hmapped
    have hreached := (h (stalling spec)).no_metadata addr (opened_stalling ▸ haddr)
    exact hreached ((reaches_metadata_iff addr.ip).mpr (.inr hmapped))
  · intro h peers
    refine ⟨fun addr hopened hreached => ?_, one_request (accepted_of_from_value hspec)⟩
    have htried := opened_run_prefix.subset hopened
    obtain hplain | hmapped := (reaches_metadata_iff addr.ip).mp hreached
    · exact absurd hplain (not_metadata_of_tried htried)
    · exact h addr htried hmapped

/-- A check of an address that is no metadata address. -/
theorem private_address_is_guarded :
    Guarded (db_port "10.0.0.5:5432") (fun _ => .ok []) (stalling (db_port "10.0.0.5:5432")) := by
  have hspec : MonitoringCheckSpec.from_value (db_value "10.0.0.5:5432") = .ok (db_port "10.0.0.5:5432") := rfl
  have htried : tried (db_port "10.0.0.5:5432") (fun _ => .ok []) = [⟨.V4 ⟨10, 0, 0, 5⟩, 5432, 0⟩] := rfl
  refine (metadata_not_reached_iff hspec _).mpr (fun addr haddr => ?_) _
  rw [htried] at haddr
  obtain rfl := List.mem_singleton.mp haddr
  decide

/-- The mapped form of the metadata address is connected to. -/
theorem mapped_metadata_is_reached :
    ¬ ∀ v spec resolver peers, MonitoringCheckSpec.from_value v = .ok spec → Guarded spec resolver peers := by
  intro hall
  have hguarded := hall (db_value "[::ffff:169.254.169.254]:80") (db_port "[::ffff:169.254.169.254]:80")
    (fun _ => .ok []) (stalling _) rfl
  refine hguarded.no_metadata ⟨mapped_metadata, 80, 0⟩ ?_ (by decide)
  rw [opened_stalling]
  decide

end Guarded

end iac_providers.monitoring
