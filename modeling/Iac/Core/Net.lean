import Iac.Core.Numeral
import Iac.Core.Text
import Mathlib.Data.List.Basic
import Mathlib.Data.List.TakeWhile
import Mathlib.Data.Nat.Basic

namespace net

structure Ipv4Addr where
  a : UInt8
  b : UInt8
  c : UInt8
  d : UInt8
  deriving DecidableEq

structure Ipv6Addr where
  s0 : UInt16
  s1 : UInt16
  s2 : UInt16
  s3 : UInt16
  s4 : UInt16
  s5 : UInt16
  s6 : UInt16
  s7 : UInt16
  deriving DecidableEq

inductive IpAddr where
  | V4 (ip : Ipv4Addr)
  | V6 (ip : Ipv6Addr)
  deriving DecidableEq

def Ipv4Addr.is_loopback (ip : Ipv4Addr) : Bool := ip.a == 127

def Ipv4Addr.is_link_local (ip : Ipv4Addr) : Bool := ip.a == 169 && ip.b == 254

def Ipv4Addr.is_private (ip : Ipv4Addr) : Bool :=
  ip.a == 10 || (ip.a == 172 && 16 ≤ ip.b && ip.b ≤ 31) || (ip.a == 192 && ip.b == 168)

def Ipv4Addr.is_unspecified (ip : Ipv4Addr) : Bool := ip == ⟨0, 0, 0, 0⟩

def Ipv6Addr.is_loopback (ip : Ipv6Addr) : Bool := ip == ⟨0, 0, 0, 0, 0, 0, 0, 1⟩

def Ipv6Addr.is_unspecified (ip : Ipv6Addr) : Bool := ip == ⟨0, 0, 0, 0, 0, 0, 0, 0⟩

/-- `char::to_digit`. -/
def to_digit (radix : Nat) (c : Char) : Option Nat :=
  let n := c.toNat
  let digit :=
    if 48 ≤ n ∧ n ≤ 57 then n - 48
    else if 97 ≤ n ∧ n ≤ 122 then n - 87
    else if 65 ≤ n ∧ n ≤ 90 then n - 55
    else radix
  if digit < radix then some digit else none

/-- A reader takes a value off the front of the text. -/
abbrev Reader (α : Type) := List Char → Option (α × List Char)

def read_number (radix max_digits bound : Nat) ( allow_zero_prefix : Bool) : Reader Nat := fun input =>
  let digits := (input.takeWhile fun c => (to_digit radix c).isSome).filterMap (to_digit radix)
  let rest := input.dropWhile fun c => (to_digit radix c).isSome
  let value := digits.foldl (fun n digit => n * radix + digit) 0
  if max_digits < digits.length ∨ digits = [] then none
  else if allow_zero_prefix = false ∧ input.head? = some '0' ∧ 1 < digits.length then none
  else if value < bound then some (value, rest)
  else none

/-- The separator stands before every part but the first. -/
def read_separator {α : Type} (separator : Char) (index : Nat) (inner : Reader α) : Reader α := fun input =>
  if index = 0 then inner input
  else
    match input with
    | c :: rest => if c = separator then inner rest else none
    | [] => none

def read_octet (index : Nat) : Reader Nat := read_separator '.' index (read_number 10 3 256 false)

def read_ipv4_addr : Reader Ipv4Addr := fun input => do
  let (a, rest) ← read_octet 0 input
  let (b, rest) ← read_octet 1 rest
  let (c, rest) ← read_octet 2 rest
  let (d, rest) ← read_octet 3 rest
  return (⟨.ofNat a, .ofNat b, .ofNat c, .ofNat d⟩, rest)

def Ipv4Addr.groups (ip : Ipv4Addr) : List Nat :=
  [ip.a.toNat * 256 + ip.b.toNat, ip.c.toNat * 256 + ip.d.toNat]

/-- Groups of an IPv6 address from index `i` on, at most as many as are left,
and whether an IPv4 address ends them. -/
def read_groups : Nat → Nat → List Char → List Nat × Bool × List Char
  | 0, _, input => ([], false, input)
  | left + 1, i, input =>
    match if 0 < left then read_separator ':' i read_ipv4_addr input else none with
    | some (v4, rest) => (v4.groups, true, rest)
    | none =>
      match read_separator ':' i (read_number 16 4 65536 true) input with
      | some (group, rest) =>
        let (groups, has_v4, rest) := read_groups left (i + 1) rest
        (group :: groups, has_v4, rest)
      | none => ([], false, input)

def Ipv6Addr.of_groups (groups : List Nat) : Ipv6Addr :=
  let group i := UInt16.ofNat (groups.getD i 0)
  ⟨group 0, group 1, group 2, group 3, group 4, group 5, group 6, group 7⟩

def read_ipv6_addr : Reader Ipv6Addr := fun input =>
  let (head, has_v4, rest) := read_groups 8 0 input
  if head.length = 8 then some (.of_groups head, rest)
  else if has_v4 then none
  else
    match rest with
    | ':' :: ':' :: rest =>
      let (tail, _, rest) := read_groups (8 - (head.length + 1)) 0 rest
      some (.of_groups (head ++ List.replicate (8 - head.length - tail.length) 0 ++ tail), rest)
    | _ => none

/-- The whole text is read. -/
def parse_with {α : Type} (inner : Reader α) (input : List Char) : Option α :=
  match inner input with
  | some (value, []) => some value
  | _ => none

def Ipv4Addr.from_str (input : List Char) : Option Ipv4Addr :=
  if 15 < input.length then none else parse_with read_ipv4_addr input

def Ipv6Addr.from_str (input : List Char) : Option Ipv6Addr := parse_with read_ipv6_addr input

def read_ip_addr : Reader IpAddr := fun input =>
  match read_ipv4_addr input with
  | some (ip, rest) => some (.V4 ip, rest)
  | none => (read_ipv6_addr input).map fun result => (.V6 result.1, result.2)

def IpAddr.from_str (input : List Char) : Option IpAddr := parse_with read_ip_addr input

/-- `std::net::SocketAddr`. An IPv4 address has no scope. -/
structure SocketAddr where
  ip : IpAddr
  port : UInt16
  scope_id : Nat := 0
  deriving DecidableEq

/-- A number of any length. -/
def read_unbounded (bound : Nat) : Reader Nat := fun input => read_number 10 input.length bound true input

def read_given_char (given : Char) : Reader Unit
  | c :: rest => if c = given then some ((), rest) else none
  | [] => none

def read_port : Reader UInt16 := fun input => do
  let (_, rest) ← read_given_char ':' input
  let (port, rest) ← read_unbounded 65536 rest
  return (.ofNat port, rest)

def read_scope_id : Reader Nat := fun input => do
  let (_, rest) ← read_given_char '%' input
  read_unbounded num.u32_bound rest

def read_socket_addr_v4 : Reader SocketAddr := fun input => do
  let (ip, rest) ← read_ipv4_addr input
  let (port, rest) ← read_port rest
  return (⟨.V4 ip, port, 0⟩, rest)

/-- The scope may be left out. -/
def read_socket_addr_v6 : Reader SocketAddr := fun input => do
  let (_, rest) ← read_given_char '[' input
  let (ip, rest) ← read_ipv6_addr rest
  let (scope_id, rest) := (read_scope_id rest).getD (0, rest)
  let (_, rest) ← read_given_char ']' rest
  let (port, rest) ← read_port rest
  return (⟨.V6 ip, port, scope_id⟩, rest)

def read_socket_addr : Reader SocketAddr := fun input =>
  match read_socket_addr_v4 input with
  | some result => some result
  | none => read_socket_addr_v6 input

def SocketAddr.from_str (input : List Char) : Option SocketAddr := parse_with read_socket_addr input

/-- `str::parse::<u16>`. -/
def parse_u16 (text : List Char) : Option UInt16 := (num.from_str_radix 10 65536 text).map .ofNat

/-- `str::to_socket_addrs`: an address as it is written, or the answers for the
name before the last colon. -/
def to_socket_addrs (lookup : List Char → Except String (List IpAddr)) (target : List Char) :
    Except String (List SocketAddr) :=
  match SocketAddr.from_str target with
  | some addr => .ok [addr]
  | none =>
    match str.rsplit_once ':' target with
    | none => .error "invalid socket address"
    | some (host, port) =>
      match parse_u16 port with
      | none => .error "invalid port value"
      | some port => (lookup host).map fun ips => ips.map fun ip => ⟨ip, port, 0⟩

section Display

def hex_digits (n : Nat) : String := String.ofList (Nat.toDigits 16 n)

def Ipv4Addr.to_string (ip : Ipv4Addr) : String :=
  toString ip.a.toNat ++ "." ++ toString ip.b.toNat ++ "." ++ toString ip.c.toNat ++ "." ++ toString ip.d.toNat

def Ipv6Addr.segments (ip : Ipv6Addr) : List Nat :=
  [ip.s0, ip.s1, ip.s2, ip.s3, ip.s4, ip.s5, ip.s6, ip.s7].map UInt16.toNat

/-- `Ipv6Addr::to_ipv4_mapped`: the address in `::ffff:0:0/96`. -/
def Ipv6Addr.to_ipv4_mapped (ip : Ipv6Addr) : Option Ipv4Addr :=
  if ip.s0 = 0 ∧ ip.s1 = 0 ∧ ip.s2 = 0 ∧ ip.s3 = 0 ∧ ip.s4 = 0 ∧ ip.s5 = 0xffff then
    some ⟨.ofNat (ip.s6.toNat / 256), .ofNat (ip.s6.toNat % 256), .ofNat (ip.s7.toNat / 256), .ofNat (ip.s7.toNat % 256)⟩
  else none

/-- The start and the length of the first of the longest runs of zeros. -/
def longest_zeros (segments : List Nat) : Nat × Nat :=
  let run (start : Nat) : Nat := ((segments.drop start).takeWhile (· == 0)).length
  (List.range segments.length).foldl (fun best start => if best.2 < run start then (start, run start) else best) (0, 0)

def fmt_segments (segments : List Nat) : String := ":".intercalate (segments.map hex_digits)

def Ipv6Addr.to_string (ip : Ipv6Addr) : String :=
  match ip.to_ipv4_mapped with
  | some v4 => "::ffff:" ++ v4.to_string
  | none =>
    let (start, len) := longest_zeros ip.segments
    if 1 < len then fmt_segments (ip.segments.take start) ++ "::" ++ fmt_segments (ip.segments.drop (start + len))
    else fmt_segments ip.segments

def SocketAddr.to_string (addr : SocketAddr) : String :=
  let port := toString addr.port.toNat
  match addr.ip with
  | .V4 ip => ip.to_string ++ ":" ++ port
  | .V6 ip =>
    if addr.scope_id = 0 then "[" ++ ip.to_string ++ "]:" ++ port
    else "[" ++ ip.to_string ++ "%" ++ toString addr.scope_id ++ "]:" ++ port

end Display

/-- The digit of a number below sixteen. -/
def hex (v : Nat) : Char := Char.ofNat (if v < 10 then 48 + v else 87 + v)

def octet_values (n : Nat) : List Nat :=
  if n < 10 then [n] else if n < 100 then [n / 10, n % 10] else [n / 100, n / 10 % 10, n % 10]

def group_values (n : Nat) : List Nat := [n / 4096, n / 256 % 16, n / 16 % 16, n % 16]

def octet_text (n : Nat) : List Char := (octet_values n).map hex
def group_text (n : Nat) : List Char := (group_values n).map hex

def Ipv6Addr.groups (ip : Ipv6Addr) : List Nat :=
  [ip.s0, ip.s1, ip.s2, ip.s3, ip.s4, ip.s5, ip.s6, ip.s7].map UInt16.toNat

/-- A text of the address: four numbers, or eight groups of four digits. -/
def IpAddr.spelling : IpAddr → List Char
  | .V4 ip => octet_text ip.a.toNat ++ '.' :: octet_text ip.b.toNat ++ '.' :: octet_text ip.c.toNat ++
      '.' :: octet_text ip.d.toNat
  | .V6 ip => group_text ip.s0.toNat ++ (ip.groups.tail.flatMap fun group => ':' :: group_text group)

theorem to_digit_hex {radix v : Nat} (hradix : radix ≤ 16) (hv : v < radix) : to_digit radix (hex v) = some v := by
  have hcode : ∀ v < 16, (hex v).toNat = if v < 10 then 48 + v else 87 + v := by decide
  have hvalue : (if 48 ≤ (hex v).toNat ∧ (hex v).toNat ≤ 57 then (hex v).toNat - 48
      else if 97 ≤ (hex v).toNat ∧ (hex v).toNat ≤ 122 then (hex v).toNat - 87
      else if 65 ≤ (hex v).toNat ∧ (hex v).toNat ≤ 90 then (hex v).toNat - 55 else radix) = v := by
    rw [hcode v (by omega)]
    split_ifs <;> omega
  simp only [to_digit, hvalue, hv, ↓reduceIte]

/-- The rest does not go on with a digit. -/
def Ends (radix : Nat) (rest : List Char) : Prop :=
  ∀ c, rest.head? = some c → to_digit radix c = none

theorem hex_zero_iff {v : Nat} (hv : v < 16) : hex v = '0' ↔ v = 0 := by
  have hall : ∀ v < 16, (hex v = '0' ↔ v = 0) := by decide
  exact hall v hv

theorem read_number_hex {radix max_digits bound : Nat} {zero : Bool} {values : List Nat} {rest : List Char}
    (hradix : radix ≤ 16) (hvalues : ∀ v ∈ values, v < radix) (hne : values ≠ []) (hlen : values.length ≤ max_digits)
    (hzero : zero = false → values.head? = some 0 → values.length ≤ 1) (hrest : Ends radix rest)
    (hbound : values.foldl (fun n digit => n * radix + digit) 0 < bound) :
    read_number radix max_digits bound zero (values.map hex ++ rest) =
      some (values.foldl (fun n digit => n * radix + digit) 0, rest) := by
  have hdigits : ∀ c ∈ values.map hex, (to_digit radix c).isSome = true := by
    intro c hc
    obtain ⟨v, hv, rfl⟩ := List.mem_map.mp hc
    rw [to_digit_hex hradix (hvalues v hv)]
    rfl
  have hstop : rest.takeWhile (fun c => (to_digit radix c).isSome) = [] ∧
      rest.dropWhile (fun c => (to_digit radix c).isSome) = rest := by
    cases rest with
    | nil => exact ⟨rfl, rfl⟩
    | cons c rest => simp [hrest c rfl]
  have htake : (values.map hex ++ rest).takeWhile (fun c => (to_digit radix c).isSome) = values.map hex := by
    rw [List.takeWhile_append_of_pos hdigits, hstop.1, List.append_nil]
  have hdrop : (values.map hex ++ rest).dropWhile (fun c => (to_digit radix c).isSome) = rest := by
    rw [List.dropWhile_append_of_pos hdigits, hstop.2]
  have hread : (values.map hex).filterMap (to_digit radix) = values := by
    rw [List.filterMap_map, List.filterMap_congr (g := some), List.filterMap_some]
    exact fun v hv => to_digit_hex hradix (hvalues v hv)
  have hprefix : ¬ (zero = false ∧ (values.map hex ++ rest).head? = some '0' ∧ 1 < values.length) := by
    rintro ⟨hfalse, hhead, hlong⟩
    cases values with
    | nil => exact hne rfl
    | cons v values =>
      have hv := hvalues v (List.mem_cons_self ..)
      have hvzero : v = 0 := (hex_zero_iff (by omega)).mp (by simpa using hhead)
      have := hzero hfalse (by simp [hvzero])
      omega
  unfold read_number
  simp only [htake, hdrop, hread]
  rw [if_neg (by simp only [hne, or_false]; omega), if_neg hprefix, if_pos hbound]

theorem read_octet_text {n : Nat} (hn : n < 256) {rest : List Char} (hrest : Ends 10 rest) :
    read_number 10 3 256 false (octet_text n ++ rest) = some (n, rest) := by
  have hvalue : (octet_values n).foldl (fun n digit => n * 10 + digit) 0 = n := by
    unfold octet_values
    split_ifs
    · simp
    · simp only [List.foldl_cons, List.foldl_nil]
      omega
    · simp only [List.foldl_cons, List.foldl_nil]
      omega
  have hshape : (∀ v ∈ octet_values n, v < 10) ∧ octet_values n ≠ [] ∧ (octet_values n).length ≤ 3 ∧
      ((octet_values n).head? = some 0 → (octet_values n).length ≤ 1) := by
    unfold octet_values
    split_ifs
    · simp; omega
    · simp; omega
    · simp; omega
  obtain ⟨hdigits, hne, hlen, hzero⟩ := hshape
  have hread := @read_number_hex 10 3 256 false (octet_values n) rest (by omega) hdigits hne hlen (fun _ => hzero) hrest
    (by omega)
  rwa [hvalue] at hread

theorem read_group_text {n : Nat} (hn : n < 65536) {rest : List Char} (hrest : Ends 16 rest) :
    read_number 16 4 65536 true (group_text n ++ rest) = some (n, rest) := by
  have hvalue : (group_values n).foldl (fun n digit => n * 16 + digit) 0 = n := by
    simp only [group_values, List.foldl_cons, List.foldl_nil]
    omega
  have hdigits : ∀ v ∈ group_values n, v < 16 := by
    simp [group_values]
    omega
  have hread := @read_number_hex 16 4 65536 true (group_values n) rest (by omega) hdigits (by simp [group_values])
    (by simp [group_values]) (by simp) hrest (by omega)
  rwa [hvalue] at hread

theorem ends_of_cons {radix : Nat} {c : Char} {rest : List Char} (h : to_digit radix c = none) : Ends radix (c :: rest) := by
  intro d hd
  obtain rfl := Option.some.inj hd
  exact h

theorem ends_nil (radix : Nat) : Ends radix [] := fun _ h => nomatch h

/-- A text of an IPv4 address is read as the address. -/
theorem read_ipv4_spelling (ip : Ipv4Addr) : read_ipv4_addr (IpAddr.V4 ip).spelling = some (ip, []) := by
  have hfirst (n : UInt8) (rest : List Char) (hrest : Ends 10 rest) :
      read_octet 0 (octet_text n.toNat ++ rest) = some (n.toNat, rest) :=
    read_octet_text n.toNat_lt hrest
  have hnext (index : Nat) (n : UInt8) (rest : List Char) (hrest : Ends 10 rest) :
      read_octet (index + 1) ('.' :: (octet_text n.toNat ++ rest)) = some (n.toNat, rest) :=
    read_octet_text n.toNat_lt hrest
  have hdot (rest : List Char) : Ends 10 ('.' :: rest) := ends_of_cons (by decide)
  have hlast := hnext 2 ip.d [] (ends_nil 10)
  rw [List.append_nil] at hlast
  unfold read_ipv4_addr IpAddr.spelling
  simp only [List.append_assoc, List.cons_append]
  rw [hfirst ip.a _ (hdot _)]
  simp only [Option.bind_eq_bind, Option.bind_some]
  rw [hnext 0 ip.b _ (hdot _)]
  simp only [Option.bind_some]
  rw [hnext 1 ip.c _ (hdot _)]
  simp only [Option.bind_some]
  rw [hlast]
  simp

/-- A text whose digits are not followed by a dot is no IPv4 address. -/
theorem read_ipv4_addr_none {input : List Char}
    (h : (input.dropWhile fun c => (to_digit 10 c).isSome).head? ≠ some '.') : read_ipv4_addr input = none := by
  have hrest (value : Nat) (rest : List Char) (hread : read_octet 0 input = some (value, rest)) :
      rest = input.dropWhile fun c => (to_digit 10 c).isSome := by
    unfold read_octet read_separator read_number at hread
    simp only [↓reduceIte] at hread
    split_ifs at hread
    exact (Prod.mk.inj (Option.some.inj hread)).2.symm
  have hsecond (rest : List Char) (hhead : rest.head? ≠ some '.') : read_octet 1 rest = none := by
    unfold read_octet read_separator
    cases rest with
    | nil => rfl
    | cons c rest =>
      have hc : c ≠ '.' := by simpa using hhead
      simp [hc]
  unfold read_ipv4_addr
  cases hread : read_octet 0 input with
  | none => rfl
  | some first =>
    obtain ⟨value, rest⟩ := first
    have hnone := hsecond rest (hrest value rest hread ▸ h)
    simp [hnone]

/-- A group, and what may follow it, is no IPv4 address. -/
theorem read_ipv4_group_none {n : Nat} (hn : n < 65536) {rest : List Char} (hrest : ∀ c, rest.head? = some c → c = ':') :
    read_ipv4_addr (group_text n ++ rest) = none := by
  refine read_ipv4_addr_none fun hdot => ?_
  have hhex : ∀ v < 16, hex v ≠ '.' := by decide
  have hstop : rest.dropWhile (fun c => (to_digit 10 c).isSome) = rest := by
    cases rest with
    | nil => rfl
    | cons c rest =>
      obtain rfl := hrest c rfl
      rw [List.dropWhile_cons, if_neg (by decide)]
  have hmem : '.' ∈ group_text n ∨ rest.head? = some '.' := by
    rw [List.dropWhile_append] at hdot
    split at hdot
    · exact .inr (hstop ▸ hdot)
    · refine .inl ?_
      obtain ⟨tail, htail⟩ : ∃ tail, (group_text n).dropWhile (fun c => (to_digit 10 c).isSome) = '.' :: tail := by
        cases hdrop : (group_text n).dropWhile fun c => (to_digit 10 c).isSome with
        | nil => simp_all
        | cons c tail => exact ⟨tail, by simpa [hdrop] using hdot⟩
      exact (List.dropWhile_suffix _).subset (htail ▸ List.mem_cons_self ..)
  obtain hmem | hhead := hmem
  · obtain ⟨v, hv, heq⟩ := List.mem_map.mp hmem
    exact hhex v (by simp [group_values] at hv; omega) heq
  · exact absurd (hrest _ hhead) (by decide)

/-- What follows the first group starts with a colon. -/
private theorem groups_head {groups : List Nat} :
    ∀ c, (groups.flatMap fun group => ':' :: group_text group).head? = some c → c = ':' := by
  intro c hc
  cases groups with
  | nil => simp at hc
  | cons next groups => simpa using hc.symm

theorem read_groups_spelling {groups : List Nat} (hgroups : ∀ group ∈ groups, group < 65536) (i : Nat) :
    read_groups groups.length (i + 1) (groups.flatMap fun group => ':' :: group_text group) = (groups, false, []) := by
  induction groups generalizing i with
  | nil => rfl
  | cons group groups ih =>
    have hgroup := hgroups group (List.mem_cons_self ..)
    have hfollow := @groups_head groups
    have hends : Ends 16 (groups.flatMap fun group => ':' :: group_text group) := by
      intro c hc
      obtain rfl := hfollow c hc
      decide
    have hv4 := read_ipv4_group_none hgroup hfollow
    have hv6 := read_group_text hgroup hends
    have hrest := ih (fun g hg => hgroups g (List.mem_cons_of_mem _ hg)) (i + 1)
    simp only [List.flatMap_cons, List.cons_append, List.length_cons, read_groups, read_separator,
      Nat.add_one_ne_zero, ↓reduceIte, hv4, hv6, hrest, ite_self]

/-- A text of an IPv6 address is read as the address. -/
theorem read_ipv6_spelling (ip : Ipv6Addr) : read_ipv6_addr (IpAddr.V6 ip).spelling = some (ip, []) := by
  have hgroups : ∀ group ∈ ip.groups, group < 65536 := by
    intro group hgroup
    obtain ⟨n, -, rfl⟩ := List.mem_map.mp hgroup
    exact n.toNat_lt
  have htail := @read_groups_spelling ip.groups.tail (fun g hg => hgroups g (List.mem_of_mem_tail hg)) 0
  have hends : Ends 16 (ip.groups.tail.flatMap fun group => ':' :: group_text group) := by
    intro c hc
    obtain rfl := groups_head c hc
    decide
  have hv4 := read_ipv4_group_none ip.s0.toNat_lt (@groups_head ip.groups.tail)
  have hv6 := read_group_text ip.s0.toNat_lt hends
  have hread : read_groups 8 0 (IpAddr.V6 ip).spelling = (ip.groups, false, []) := by
    have htail : read_groups 7 (0 + 1) (ip.groups.tail.flatMap fun group => ':' :: group_text group) =
        (ip.groups.tail, false, []) := htail
    rw [IpAddr.spelling, read_groups]
    simp only [read_separator, ↓reduceIte, hv4, hv6, htail, ite_self]
    rfl
  unfold read_ipv6_addr
  rw [hread]
  simp [Ipv6Addr.groups, Ipv6Addr.of_groups]

/-- Every address has a text that is read as it. -/
theorem from_str_spelling (ip : IpAddr) : IpAddr.from_str ip.spelling = some ip := by
  unfold IpAddr.from_str parse_with read_ip_addr
  cases ip with
  | V4 ip => rw [read_ipv4_spelling]
  | V6 ip =>
    have hv4 : read_ipv4_addr (IpAddr.V6 ip).spelling = none :=
      read_ipv4_group_none ip.s0.toNat_lt (@groups_head ip.groups.tail)
    simp only [hv4, read_ipv6_spelling, Option.map_some]

/-- A text of an address has digits, dots and colons only. -/
theorem mem_spelling {ip : IpAddr} {c : Char} (h : c ∈ ip.spelling) : (∃ v < 16, c = hex v) ∨ c = '.' ∨ c = ':' := by
  have hoctet {n : UInt8} (h : c ∈ octet_text n.toNat) : ∃ v < 16, c = hex v := by
    obtain ⟨v, hv, rfl⟩ := List.mem_map.mp h
    have hlt := n.toNat_lt
    refine ⟨v, ?_, rfl⟩
    unfold octet_values at hv
    split_ifs at hv
    · simp at hv; omega
    · simp at hv; omega
    · simp at hv; omega
  have hgroup {n : UInt16} (h : c ∈ group_text n.toNat) : ∃ v < 16, c = hex v := by
    obtain ⟨v, hv, rfl⟩ := List.mem_map.mp h
    have hlt := n.toNat_lt
    exact ⟨v, by simp [group_values] at hv; omega, rfl⟩
  cases ip with
  | V4 ip =>
    simp only [IpAddr.spelling, List.mem_append, List.mem_cons] at h
    obtain (((h | h | h) | h | h) | h | h) := h
    · exact .inl (hoctet h)
    · exact .inr (.inl h)
    · exact .inl (hoctet h)
    · exact .inr (.inl h)
    · exact .inl (hoctet h)
    · exact .inr (.inl h)
    · exact .inl (hoctet h)
  | V6 ip =>
    simp only [IpAddr.spelling, List.mem_append, List.mem_flatMap, List.mem_cons] at h
    obtain h | ⟨group, hmem, h | h⟩ := h
    · exact .inl (hgroup h)
    · exact .inr (.inr h)
    · obtain ⟨n, -, rfl⟩ := List.mem_map.mp (List.mem_of_mem_tail hmem)
      exact .inl (hgroup h)

end net
