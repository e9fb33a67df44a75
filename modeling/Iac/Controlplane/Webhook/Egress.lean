import Iac.Core.Net
import Iac.Core.Text

open net

namespace iac_controlplane.webhook

def strip_scheme (url : List Char) : Option (List Char) :=
  ( str.strip_prefix "https://".toList url).or ( str.strip_prefix "http://".toList url)

/-- The host of a URL without its scheme: no path, no user and no port. -/
def host_of (host_part : List Char) : List Char :=
  let host := host_part.takeWhile fun c => ¬ (c = '/' ∨ c = '?' ∨ c = '#')
  let host := ((str.rsplit_once '@' host).map Prod.snd).getD host
  match str.rsplit_once ':' host with
  | some (before, port) => if port.all Char.isDigit then before else host
  | none => host

def is_ipv6_private (ip : Ipv6Addr) : Bool := ip.s0 &&& 0xfe00 == 0xfc00

/-- The checks that both filters make of an IPv4 address. -/
def ipv4_is_blocked (ip : Ipv4Addr) : Bool :=
  ip.is_loopback || ip.is_link_local || ip.is_private || ip.is_unspecified || ip == ⟨169, 254, 169, 254⟩

def ipv6_is_blocked (ip : Ipv6Addr) : Bool :=
  ip.is_loopback || ip.is_unspecified || is_ipv6_private ip

def ip_is_blocked : IpAddr → Bool
  | .V4 ip => ipv4_is_blocked ip
  | .V6 ip => ipv6_is_blocked ip

/-- The address between the brackets of an IPv6 host. -/
def unbracketed (host : List Char) : Option (List Char) :=
  ( str.strip_prefix ['['] host).bind (str.strip_suffix [']'])

def metadata_hosts : List String :=
  ["metadata.google.internal", "metadata", "metadata.azure.com", "metadata.aws", "169.254.169.254", "fd00:ec2::254"]

def is_private_or_metadata_host (host : List Char) : Bool :=
  let lower := String.ofList (host.map Char.toLower)
  if lower ∈ metadata_hosts then true
  else
    match Ipv4Addr.from_str host with
    | some ip => ipv4_is_blocked ip
    | none =>
      match (unbracketed host).bind Ipv6Addr.from_str with
      | some ip => ipv6_is_blocked ip
      | none => decide (lower ∈ ["localhost", "ip6-localhost", "ip6-loopback"])

def scheme_ok (allow_insecure : Bool) (url : List Char) : Bool :=
  "https://".toList.isPrefixOf url || (allow_insecure && "http://".toList.isPrefixOf url)

def validate_webhook_url (url : String) (allow_insecure allow_private : Bool) : Except String Unit :=
  if ¬ scheme_ok allow_insecure url.toList then
    .error ("url " ++ str.debug url ++ " must use https:// (set allow_insecure_urls=true to permit http://)")
  else
    match strip_scheme url.toList with
    | none => .error ("url " ++ str.debug url ++ " unparseable")
    | some host_part =>
      if host_of host_part = [] then .error ("url " ++ str.debug url ++ " has empty host")
      else if ¬ allow_private ∧ is_private_or_metadata_host (host_of host_part) then
        .error ("url " ++ str.debug url ++ " resolves to a private / loopback / metadata target " ++
          "(set allow_private_urls=true to permit)")
      else .ok ()

def url_host (url : String) : Option (List Char) :=
  match strip_scheme url.toList with
  | none => none
  | some host_part => if host_of host_part = [] then none else some (host_of host_part)

/-- The resolver: the addresses of a host, asked for with a port. -/
abbrev LookupHost := String → Nat → Except String (List IpAddr)

def port_of (url : String) : Nat := if "https://".toList.isPrefixOf url.toList then 443 else 80

/-- The host without the brackets of an IPv6 address. -/
def bare (host : List Char) : List Char := (unbracketed host).getD host

/-- The loop over the resolved addresses, each with its text. -/
def check_addresses (to_string : IpAddr → String) (host : List Char) : List IpAddr → Except String Unit
  | [] => .ok ()
  | ip :: addrs =>
    if ip_is_blocked ip then
      .error ("host " ++ str.debug (String.ofList host) ++ " resolves to blocked address " ++ to_string ip)
    else check_addresses to_string host addrs

def assert_egress_allowed (to_string : IpAddr → String) (lookup_host : LookupHost) (url : String) : Except String Unit :=
  match url_host url with
  | none => .error ("url " ++ str.debug url ++ " has no host")
  | some host =>
    if is_private_or_metadata_host host then
      .error ("host " ++ str.debug (String.ofList host) ++ " is a private/metadata target")
    else
      match IpAddr.from_str (bare host) with
      | some ip => if ip_is_blocked ip then .error ("host " ++ str.debug (String.ofList host) ++ " is a blocked IP") else .ok ()
      | none =>
        match lookup_host (String.ofList host) (port_of url) with
        | .error e => .error ("dns resolve " ++ str.debug (String.ofList host) ++ ": " ++ e)
        | .ok addrs => check_addresses to_string host addrs

/-- The addresses that the URL leads to: the one it spells out, or those its host resolves to. -/
def addresses (lookup_host : LookupHost) (url : String) : List IpAddr :=
  match url_host url with
  | none => []
  | some host =>
    match IpAddr.from_str (bare host) with
    | some ip => [ip]
    | none => (lookup_host (String.ofList host) (port_of url)).toOption.getD []

section Ranges

/-- The address as a number, its first byte the highest. -/
def number_v4 (ip : Ipv4Addr) : Nat :=
  ((ip.a.toNat * 256 + ip.b.toNat) * 256 + ip.c.toNat) * 256 + ip.d.toNat

def number_v6 (ip : Ipv6Addr) : Nat :=
  ((((((ip.s0.toNat * 65536 + ip.s1.toNat) * 65536 + ip.s2.toNat) * 65536 + ip.s3.toNat) * 65536 + ip.s4.toNat) *
    65536 + ip.s5.toNat) * 65536 + ip.s6.toNat) * 65536 + ip.s7.toNat

/-- The first `length` of `width` bits are those of the base. -/
def InBlock (width base length n : Nat) : Prop := n / 2 ^ (width - length) = base / 2 ^ (width - length)

/-- Loopback, private, link-local, unspecified and metadata addresses. -/
def forbidden_v4 : List (Ipv4Addr × Nat) :=
  [(⟨127, 0, 0, 0⟩, 8), (⟨10, 0, 0, 0⟩, 8), (⟨172, 16, 0, 0⟩, 12), (⟨192, 168, 0, 0⟩, 16), (⟨169, 254, 0, 0⟩, 16),
    (⟨0, 0, 0, 0⟩, 32), (⟨169, 254, 169, 254⟩, 32)]

def link_local_v6 : Ipv6Addr × Nat := (⟨0xfe80, 0, 0, 0, 0, 0, 0, 0⟩, 10)

/-- Loopback, unspecified, unique-local, metadata and link-local addresses. -/
def forbidden_v6 : List (Ipv6Addr × Nat) :=
  [(⟨0, 0, 0, 0, 0, 0, 0, 1⟩, 128), (⟨0, 0, 0, 0, 0, 0, 0, 0⟩, 128), (⟨0xfc00, 0, 0, 0, 0, 0, 0, 0⟩, 7),
    (⟨0xfd00, 0xec2, 0, 0, 0, 0, 0, 0x254⟩, 128), link_local_v6]

def ForbiddenV4 (ip : Ipv4Addr) : Prop :=
  ∃ block ∈ forbidden_v4, InBlock 32 (number_v4 block.1) block.2 (number_v4 ip)

def low_v4 (high low : UInt16) : Ipv4Addr :=
  ⟨.ofNat (high.toNat / 256), .ofNat high.toNat, .ofNat (low.toNat / 256), .ofNat low.toNat⟩

/-- The IPv4 addresses inside an IPv6 address: mapped, compatible, 6to4 and NAT64. -/
def embedded (ip : Ipv6Addr) : List Ipv4Addr :=
  (if ip.s0 = 0 ∧ ip.s1 = 0 ∧ ip.s2 = 0 ∧ ip.s3 = 0 ∧ ip.s4 = 0 ∧ (ip.s5 = 0xffff ∨ ip.s5 = 0) then
    [low_v4 ip.s6 ip.s7] else []) ++
  (if ip.s0 = 0x2002 then [low_v4 ip.s1 ip.s2] else []) ++
  (if ip.s0 = 0x64 ∧ ip.s1 = 0xff9b ∧ ip.s2 = 0 ∧ ip.s3 = 0 ∧ ip.s4 = 0 ∧ ip.s5 = 0 then [low_v4 ip.s6 ip.s7] else [])

/-- An address that no webhook may reach. -/
def Forbidden : IpAddr → Prop
  | .V4 ip => ForbiddenV4 ip
  | .V6 ip => (∃ block ∈ forbidden_v6, InBlock 128 (number_v6 block.1) block.2 (number_v6 ip)) ∨
      ∃ v4 ∈ embedded ip, ForbiddenV4 v4

/-- A link-local IPv6 address, or one around a forbidden IPv4 address. -/
def Overlooked : IpAddr → Prop
  | .V4 _ => False
  | .V6 ip => InBlock 128 (number_v6 link_local_v6.1) link_local_v6.2 (number_v6 ip) ∨ ∃ v4 ∈ embedded ip, ForbiddenV4 v4

end Ranges

section Bytes

variable {a b c d : Nat} (hb : b < 256) (hc : c < 256) (hd : d < 256)

private theorem loopback_block : ((a * 256 + b) * 256 + c) * 256 + d = 0 ↔ a = 0 ∧ b = 0 ∧ c = 0 ∧ d = 0 := by
  omega

include hb hc hd

private theorem eight_bits : (((a * 256 + b) * 256 + c) * 256 + d) / 16777216 = a := by
  omega

private theorem twelve_bits : (((a * 256 + b) * 256 + c) * 256 + d) / 1048576 = 2753 ↔
    (a = 172 ∧ 16 ≤ b) ∧ b ≤ 31 := by
  omega

private theorem sixteen_bits (x y : Nat) (hy : y < 256) :
    (((a * 256 + b) * 256 + c) * 256 + d) / 65536 = x * 256 + y ↔ a = x ∧ b = y := by
  omega

private theorem metadata_number : ((a * 256 + b) * 256 + c) * 256 + d = 2852039166 ↔
    a = 169 ∧ b = 254 ∧ c = 169 ∧ d = 254 := by
  constructor
  · omega
  · rintro ⟨rfl, rfl, rfl, rfl⟩
    rfl

end Bytes

/-- An IPv4 address is blocked in the ranges that are forbidden. -/
theorem ipv4_is_blocked_iff (ip : Ipv4Addr) : ipv4_is_blocked ip = true ↔ ForbiddenV4 ip := by
  obtain ⟨a, b, c, d⟩ := ip
  have hb : b.toNat < 256 := b.toNat_lt
  have hc : c.toNat < 256 := c.toNat_lt
  have hd : d.toNat < 256 := d.toNat_lt
  have h192 := @sixteen_bits a.toNat b.toNat c.toNat d.toNat hb hc hd 192 168 (by decide)
  have h169 := @sixteen_bits a.toNat b.toNat c.toNat d.toNat hb hc hd 169 254 (by decide)
  simp only [ipv4_is_blocked, Ipv4Addr.is_loopback, Ipv4Addr.is_link_local, Ipv4Addr.is_private,
    Ipv4Addr.is_unspecified, Bool.or_eq_true, Bool.and_eq_true, beq_iff_eq, decide_eq_true_eq, Ipv4Addr.mk.injEq,
    ← UInt8.toNat_inj, UInt8.le_iff_toNat_le, ForbiddenV4, forbidden_v4, List.exists_mem_cons_iff, List.not_mem_nil,
    InBlock, number_v4, UInt8.reduceToNat, Nat.reduceMul, Nat.reduceAdd, Nat.reduceSub, Nat.reducePow, Nat.reduceDiv,
    false_and, exists_false, or_false, Nat.div_one, eight_bits hb hc hd, twelve_bits hb hc hd,
    metadata_number hb hc hd, loopback_block] at h192 h169 ⊢
  rw [h192, h169]
  simp only [or_assoc, or_left_comm, or_comm]

/-- The mask of seven bits leaves what is above the lower nine. -/
private theorem unique_local_mask {x : Nat} (h : x < 65536) : x &&& 65024 = 64512 ↔ x / 512 = 126 := by
  have hdiv : (x &&& 65024) / 2 ^ 9 = x / 512 := by
    rw [Nat.and_div_two_pow, show 65024 / 2 ^ 9 = 2 ^ 7 - 1 from rfl, Nat.and_two_pow_sub_one_eq_mod]
    omega
  have hmod : (x &&& 65024) % 2 ^ 9 = 0 := by
    rw [Nat.and_mod_two_pow, show 65024 % 2 ^ 9 = 0 from rfl, Nat.and_zero]
  omega

theorem is_ipv6_private_iff (ip : Ipv6Addr) : is_ipv6_private ip = true ↔
    InBlock 128 (number_v6 ⟨0xfc00, 0, 0, 0, 0, 0, 0, 0⟩) 7 (number_v6 ip) := by
  obtain ⟨s0, s1, s2, s3, s4, s5, s6, s7⟩ := ip
  have h0 : s0.toNat < 65536 := s0.toNat_lt
  have h1 : s1.toNat < 65536 := s1.toNat_lt
  have h2 : s2.toNat < 65536 := s2.toNat_lt
  have h3 : s3.toNat < 65536 := s3.toNat_lt
  have h4 : s4.toNat < 65536 := s4.toNat_lt
  have h5 : s5.toNat < 65536 := s5.toNat_lt
  have h6 : s6.toNat < 65536 := s6.toNat_lt
  have h7 : s7.toNat < 65536 := s7.toNat_lt
  simp only [is_ipv6_private, beq_iff_eq, ← UInt16.toNat_inj, UInt16.toNat_and, UInt16.reduceToNat,
    unique_local_mask h0, InBlock, number_v6, Nat.reduceMul, Nat.reduceAdd, Nat.reduceSub, Nat.reducePow,
    Nat.reduceDiv]
  generalize s0.toNat = s0 at *
  generalize s1.toNat = s1 at *
  generalize s2.toNat = s2 at *
  generalize s3.toNat = s3 at *
  generalize s4.toNat = s4 at *
  generalize s5.toNat = s5 at *
  generalize s6.toNat = s6 at *
  generalize s7.toNat = s7 at *
  omega

theorem number_v6_inj {ip other : Ipv6Addr} (h : number_v6 ip = number_v6 other) : ip = other := by
  obtain ⟨s0, s1, s2, s3, s4, s5, s6, s7⟩ := ip
  obtain ⟨t0, t1, t2, t3, t4, t5, t6, t7⟩ := other
  simp only [number_v6] at h
  have hlast : ∀ {x y s t : Nat}, s < 65536 → t < 65536 → x * 65536 + s = y * 65536 + t → x = y ∧ s = t := by
    omega
  obtain ⟨h, h7⟩ := hlast s7.toNat_lt t7.toNat_lt h
  obtain ⟨h, h6⟩ := hlast s6.toNat_lt t6.toNat_lt h
  obtain ⟨h, h5⟩ := hlast s5.toNat_lt t5.toNat_lt h
  obtain ⟨h, h4⟩ := hlast s4.toNat_lt t4.toNat_lt h
  obtain ⟨h, h3⟩ := hlast s3.toNat_lt t3.toNat_lt h
  obtain ⟨h, h2⟩ := hlast s2.toNat_lt t2.toNat_lt h
  obtain ⟨h0, h1⟩ := hlast s1.toNat_lt t1.toNat_lt h
  rw [UInt16.toNat_inj.mp h0, UInt16.toNat_inj.mp h1, UInt16.toNat_inj.mp h2, UInt16.toNat_inj.mp h3,
    UInt16.toNat_inj.mp h4, UInt16.toNat_inj.mp h5, UInt16.toNat_inj.mp h6, UInt16.toNat_inj.mp h7]

/-- A block of all bits is one address. -/
theorem inBlock_full_iff {ip other : Ipv6Addr} : InBlock 128 (number_v6 other) 128 (number_v6 ip) ↔ ip = other := by
  rw [InBlock, Nat.sub_self, Nat.pow_zero, Nat.div_one, Nat.div_one]
  exact ⟨number_v6_inj, congrArg number_v6⟩

/-- What the check lets through is forbidden only where it overlooks it. -/
theorem forbidden_iff_overlooked {ip : IpAddr} (h : ip_is_blocked ip = false) : Forbidden ip ↔ Overlooked ip := by
  cases ip with
  | V4 ip =>
    have hnot : ¬ ForbiddenV4 ip := fun hforbidden => by
      rw [ip_is_blocked, (ipv4_is_blocked_iff ip).mpr hforbidden] at h
      cases h
    exact iff_of_false hnot id
  | V6 ip =>
    simp only [ip_is_blocked, ipv6_is_blocked, Bool.or_eq_false_iff, Ipv6Addr.is_loopback, Ipv6Addr.is_unspecified,
      beq_eq_false_iff_ne] at h
    obtain ⟨⟨hloopback, hunspecified⟩, hprivate⟩ := h
    have hlocal : ¬ InBlock 128 (number_v6 ⟨0xfc00, 0, 0, 0, 0, 0, 0, 0⟩) 7 (number_v6 ip) := fun hblock => by
      rw [(is_ipv6_private_iff ip).mpr hblock] at hprivate
      cases hprivate
    have hmetadata : ip ≠ ⟨0xfd00, 0xec2, 0, 0, 0, 0, 0, 0x254⟩ := fun heq => hlocal (heq ▸ rfl)
    refine or_congr_left ?_
    simp only [forbidden_v6, List.exists_mem_cons_iff, inBlock_full_iff, hloopback, hunspecified, hmetadata, hlocal,
      false_or, List.not_mem_nil, false_and, exists_false, or_false]

section Filter

variable {to_string : IpAddr → String} {lookup_host : LookupHost} {url : String}

theorem check_addresses_ok_iff {host : List Char} {addrs : List IpAddr} :
    check_addresses to_string host addrs = .ok () ↔ ∀ ip ∈ addrs, ip_is_blocked ip = false := by
  induction addrs with
  | nil => simp [check_addresses]
  | cons ip addrs ih =>
    rw [check_addresses, List.forall_mem_cons, ← ih]
    cases ip_is_blocked ip <;> simp

/-- No address of an accepted URL is blocked. -/
theorem not_blocked_of_allowed (h : assert_egress_allowed to_string lookup_host url = .ok ()) :
    ∀ ip ∈ addresses lookup_host url, ip_is_blocked ip = false := by
  rw [assert_egress_allowed] at h
  rw [addresses]
  cases hhost : url_host url with
  | none => simp [hhost] at h
  | some host =>
    simp only [hhost] at h ⊢
    split at h
    · cases h
    · cases hliteral : IpAddr.from_str (bare host) with
      | some ip =>
        simp only [hliteral] at h ⊢
        split at h
        · cases h
        · next hnot => simpa using hnot
      | none =>
        simp only [hliteral] at h ⊢
        cases hlookup : lookup_host (String.ofList host) (port_of url) with
        | error e => simp [hlookup] at h
        | ok addrs =>
          simp only [hlookup] at h
          exact check_addresses_ok_iff.mp h

/-- A URL that both filters accept leads to no forbidden address exactly when it
leads to none that they overlook. -/
theorem egress_safe_iff {allow_insecure : Bool}
    (haccepted : validate_webhook_url url allow_insecure false = .ok () ∧
      assert_egress_allowed to_string lookup_host url = .ok ()) :
    (∀ ip ∈ addresses lookup_host url, ¬ Forbidden ip) ↔ ∀ ip ∈ addresses lookup_host url, ¬ Overlooked ip :=
  forall₂_congr fun ip hip => not_congr (forbidden_iff_overlooked (not_blocked_of_allowed haccepted.2 ip hip))

end Filter

/-- A resolver that knows one public host. -/
def public_lookup : LookupHost := fun host _ =>
  if host = "hooks.example.com" then .ok [.V4 ⟨93, 184, 215, 14⟩] else .error "no such host"

/-- The loopback address, written as an IPv6 address around it. -/
theorem mapped_loopback_passes :
    validate_webhook_url "https://[::ffff:127.0.0.1]/sink" false false = .ok () ∧
      assert_egress_allowed (fun _ => "") public_lookup "https://[::ffff:127.0.0.1]/sink" = .ok () ∧
      ∃ ip ∈ addresses public_lookup "https://[::ffff:127.0.0.1]/sink", Forbidden ip := by
  refine ⟨by decide, by decide, .V6 ⟨0, 0, 0, 0, 0, 0xffff, 0x7f00, 1⟩, by decide, .inr ?_⟩
  exact ⟨⟨127, 0, 0, 1⟩, by decide, (ipv4_is_blocked_iff _).mp (by decide)⟩

theorem public_host_is_safe : addresses public_lookup "https://hooks.example.com/sink" = [.V4 ⟨93, 184, 215, 14⟩] ∧
    ∀ ip ∈ addresses public_lookup "https://hooks.example.com/sink", ¬ Forbidden ip := by
  have haddresses : addresses public_lookup "https://hooks.example.com/sink" = [.V4 ⟨93, 184, 215, 14⟩] := by
    decide
  have hvalid : validate_webhook_url "https://hooks.example.com/sink" false false = .ok () := by decide
  have hallowed : assert_egress_allowed (fun _ => "") public_lookup "https://hooks.example.com/sink" = .ok () := by
    decide
  refine ⟨haddresses, (egress_safe_iff ⟨hvalid, hallowed⟩).mpr ?_⟩
  rw [haddresses]
  rintro ip hip
  obtain rfl := List.mem_singleton.mp hip
  exact id

end iac_controlplane.webhook
