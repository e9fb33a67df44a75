import Iac.Core.Net
import Iac.Core.Text

open net

namespace iac_controlplane.api

/-- A byte that `HeaderValue::to_str` reads: a tab or a visible ASCII character. -/
def visible_ascii (b : UInt8) : Bool := (32 ≤ b && b < 127) || b == 9

/-- The bytes of a header line: no controls, but any byte above ASCII. -/
structure HeaderValue where
  bytes : List UInt8
  valid : ∀ b ∈ bytes, visible_ascii b = true ∨ 128 ≤ b

def HeaderValue.to_str (value : HeaderValue) : Option (List Char) :=
  if value.bytes.all visible_ascii then some (value.bytes.map fun b => Char.ofNat b.toNat) else none

/-- The header lines of a request, in their order. -/
abbrev HeaderMap := List (String × HeaderValue)

/-- The first of the lines with the name. -/
def HeaderMap.get (headers : HeaderMap) (name : String) : Option HeaderValue :=
  (List.find? (fun header : String × HeaderValue => header.1 == name) headers).map Prod.snd

/-- An entry of the chain: `[v6]:port`, `v4:port` or an address. -/
def parse_xff_entry (entry : List Char) : Option IpAddr :=
  let bare :=
    if entry.head? = some '[' then (entry.dropWhile (· == '[')).takeWhile (· != ']')
    else if (IpAddr.from_str entry).isSome then entry
    else if entry.count ':' = 1 then entry.takeWhile (· != ':')
    else entry
  IpAddr.from_str bare

/-- The address of an entry, unless it is a trusted proxy's. -/
def untrusted_entry (trusted_proxies : List IpAddr) (entry : List Char) : Option IpAddr :=
  (parse_xff_entry (str.trim entry)).filter fun ip => !trusted_proxies.contains ip

/-- The rightmost of the entries that has such an address. -/
def rightmost_untrusted (trusted_proxies : List IpAddr) (entries : List (List Char)) : Option IpAddr :=
  entries.reverse.findSome? (untrusted_entry trusted_proxies)

/-- The address that the rate limit of the request is counted under. -/
def effective_client_ip (headers : HeaderMap) (socket_addr : SocketAddr) (trusted_proxies : List IpAddr) : IpAddr :=
  let socket_ip := socket_addr.ip
  if trusted_proxies.isEmpty || !trusted_proxies.contains socket_ip then socket_ip
  else
    match headers.get "x-forwarded-for" with
    | none => socket_ip
    | some value =>
      match value.to_str with
      | none => socket_ip
      | some s => (rightmost_untrusted trusted_proxies (s.splitOn ',')).getD socket_ip

/-- What a trusted proxy appends for the peer it saw: the address of the peer in
a spelling that is read as it, or a text that is not read. -/
structure Hop where
  peer : IpAddr
  text : List Char
  plain : ∀ c ∈ text, 32 ≤ c.toNat ∧ c.toNat < 127 ∧ c ≠ ','
  spells : parse_xff_entry (str.trim text) = some peer ∨ parse_xff_entry (str.trim text) = none

/-- The text of the hop is read as the peer. -/
def Hop.Spelled (hop : Hop) : Prop := parse_xff_entry (str.trim hop.text) = some hop.peer

def suffix_text (suffix : List Hop) : List Char := [','].intercalate (suffix.map Hop.text)

def suffix_bytes (suffix : List Hop) : List UInt8 := (suffix_text suffix).map fun c => .ofNat c.toNat

theorem suffix_text_visible {suffix : List Hop} {c : Char} (h : c ∈ suffix_text suffix) : 32 ≤ c.toNat ∧ c.toNat < 127 := by
  unfold suffix_text at h
  induction suffix with
  | nil => simp at h
  | cons hop suffix ih =>
    cases suffix with
    | nil =>
      obtain ⟨hlow, hhigh, -⟩ := hop.plain c (by simpa using h)
      exact ⟨hlow, hhigh⟩
    | cons next suffix =>
      simp only [List.map_cons, List.intercalate_cons_cons, List.mem_append, List.mem_singleton] at h
      obtain (h | rfl) | h := h
      · obtain ⟨hlow, hhigh, -⟩ := hop.plain c h
        exact ⟨hlow, hhigh⟩
      · decide
      · exact ih h

theorem suffix_bytes_visible (suffix : List Hop) : (suffix_bytes suffix).all visible_ascii = true := by
  simp only [suffix_bytes, List.all_map, List.all_eq_true, Function.comp_apply]
  intro c hc
  obtain ⟨hlow, hhigh⟩ := suffix_text_visible hc
  have hbyte : (UInt8.ofNat c.toNat).toNat = c.toNat := by
    rw [UInt8.toNat_ofNat']
    omega
  simp only [visible_ascii, Bool.or_eq_true, Bool.and_eq_true, decide_eq_true_eq, UInt8.le_iff_toNat_le,
    UInt8.lt_iff_toNat_lt, hbyte]
  exact .inl ⟨hlow, hhigh⟩

/-- What the client puts in front of the chain: header lines of its own, and text
in the line that the proxies append to. -/
structure ClientPart where
  lines : List HeaderValue
  inline : Option HeaderValue

/-- The line that the proxies append to. -/
def ClientPart.appended (client : ClientPart) (suffix : List Hop) : HeaderValue where
  bytes := (client.inline.map fun text => text.bytes ++ [44]).getD [] ++ suffix_bytes suffix
  valid b hb := by
    obtain hb | hb := List.mem_append.mp hb
    · cases hinline : client.inline with
      | none => simp [hinline] at hb
      | some text =>
        simp only [hinline, Option.map_some, Option.getD_some, List.mem_append, List.mem_singleton] at hb
        obtain hb | rfl := hb
        · exact text.valid b hb
        · exact .inl (by decide)
    · exact .inl (List.all_eq_true.mp (suffix_bytes_visible suffix) b hb)

def forwarded (client : ClientPart) (suffix : List Hop) : HeaderMap :=
  (client.lines ++ [client.appended suffix]).map fun line => ("x-forwarded-for", line)

theorem forwarded_get (client : ClientPart) (suffix : List Hop) :
    (forwarded client suffix).get "x-forwarded-for" = some (client.lines.head?.getD (client.appended suffix)) := by
  unfold forwarded HeaderMap.get
  cases client.lines with
  | nil => simp
  | cons line lines => simp

theorem rightmost_untrusted_append (trusted : List IpAddr) (first second : List (List Char)) :
    rightmost_untrusted trusted (first ++ second) =
      (rightmost_untrusted trusted second).or (rightmost_untrusted trusted first) := by
  unfold rightmost_untrusted
  rw [List.reverse_append, List.findSome?_append]

/-- The client's text in the line of the chain is visible ASCII. -/
def ClientPart.Visible (client : ClientPart) : Prop :=
  ∀ text, client.inline = some text → text.bytes.all visible_ascii = true

theorem decode_suffix (suffix : List Hop) :
    ((suffix_bytes suffix).map fun b => Char.ofNat b.toNat) = suffix_text suffix := by
  unfold suffix_bytes
  rw [List.map_map]
  refine (List.map_congr_left fun c hc => ?_).trans (List.map_id _)
  obtain ⟨hlow, hhigh⟩ := suffix_text_visible hc
  have hbyte : (UInt8.ofNat c.toNat).toNat = c.toNat := by
    rw [UInt8.toNat_ofNat']
    omega
  rw [Function.comp_apply, hbyte, Char.ofNat_toNat, id]

theorem split_suffix {suffix : List Hop} (hne : suffix ≠ []) : (suffix_text suffix).splitOn ',' = suffix.map Hop.text := by
  refine List.splitOn_intercalate ',' (fun text htext hcomma => ?_) (by simpa using hne)
  obtain ⟨hop, -, rfl⟩ := List.mem_map.mp htext
  exact (hop.plain ',' hcomma).2.2 rfl

/-- The entries of the client's text in that line. -/
def ClientPart.entries (client : ClientPart) : List (List Char) :=
  match client.inline with
  | none => []
  | some text => (text.bytes.map fun b => Char.ofNat b.toNat).splitOn ','

/-- In a visible line the entries of the suffix are to the right of the client's. -/
theorem appended_entries {client : ClientPart} {suffix : List Hop} (hne : suffix ≠ []) (hvisible : client.Visible) :
    ∃ s, (client.appended suffix).to_str = some s ∧ s.splitOn ',' = client.entries ++ suffix.map Hop.text := by
  have hsuffix := suffix_bytes_visible suffix
  unfold ClientPart.entries
  cases hinline : client.inline with
  | none =>
    refine ⟨suffix_text suffix, ?_, split_suffix hne⟩
    simp [HeaderValue.to_str, ClientPart.appended, hinline, hsuffix, decode_suffix]
  | some text =>
    have htext := hvisible text hinline
    refine ⟨(text.bytes.map fun b => Char.ofNat b.toNat) ++ ',' :: suffix_text suffix, ?_, ?_⟩
    · have hall : (text.bytes ++ [44] ++ suffix_bytes suffix).all visible_ascii = true := by
        rw [List.all_append, List.all_append, htext, hsuffix]
        decide
      simp only [HeaderValue.to_str, ClientPart.appended, hinline, Option.map_some, Option.getD_some]
      rw [if_pos hall, List.map_append, List.map_append, decode_suffix, List.append_assoc]
      rfl
    · rw [List.splitOn_append_cons_self, split_suffix hne]

theorem untrusted_entry_not_mem {trusted : List IpAddr} {entry : List Char} {ip : IpAddr}
    (h : untrusted_entry trusted entry = some ip) : parse_xff_entry (str.trim entry) = some ip ∧ ip ∉ trusted := by
  obtain ⟨hparse, htrusted⟩ := Option.filter_eq_some_iff.mp h
  exact ⟨hparse, by simpa using htrusted⟩

/-- The suffix names a hop outside the trusted proxies. -/
def Vouches (trusted : List IpAddr) (suffix : List Hop) : Prop :=
  ∃ hop ∈ suffix, hop.peer ∉ trusted ∧ hop.Spelled

theorem rightmost_untrusted_of_vouches {trusted : List IpAddr} {suffix : List Hop} (h : Vouches trusted suffix) :
    ∃ hop ∈ suffix, hop.peer ∉ trusted ∧ rightmost_untrusted trusted (suffix.map Hop.text) = some hop.peer := by
  obtain ⟨named, hmem, htrusted, hspelled⟩ := h
  have hsome : (rightmost_untrusted trusted (suffix.map Hop.text)).isSome = true := by
    refine List.findSome?_isSome_iff.mpr ⟨named.text, by simpa using ⟨named, hmem, rfl⟩, ?_⟩
    simp [untrusted_entry, show parse_xff_entry (str.trim named.text) = some named.peer from hspelled, htrusted]
  obtain ⟨ip, hip⟩ := Option.isSome_iff_exists.mp hsome
  obtain ⟨text, htext, hentry⟩ := List.exists_of_findSome?_eq_some hip
  obtain ⟨hop, hhop, rfl⟩ := List.mem_map.mp (List.mem_reverse.mp htext)
  obtain ⟨hparse, hnot⟩ := untrusted_entry_not_mem hentry
  have hpeer : hop.peer = ip := by
    obtain hspells | hspells := hop.spells
    · exact Option.some.inj (hspells.symm.trans hparse)
    · cases hspells.symm.trans hparse
  exact ⟨hop, hhop, hpeer ▸ hnot, hpeer ▸ hip⟩

theorem rightmost_untrusted_none {trusted : List IpAddr} {suffix : List Hop} (h : ¬ Vouches trusted suffix) :
    rightmost_untrusted trusted (suffix.map Hop.text) = none := by
  refine List.findSome?_eq_none_iff.mpr fun text htext => ?_
  obtain ⟨hop, hhop, rfl⟩ := List.mem_map.mp (List.mem_reverse.mp htext)
  by_contra hsome
  obtain ⟨ip, hip⟩ := Option.ne_none_iff_exists'.mp hsome
  obtain ⟨hparse, hnot⟩ := untrusted_entry_not_mem hip
  obtain hspells | hspells := hop.spells
  · obtain rfl := Option.some.inj (hspells.symm.trans hparse)
    exact h ⟨hop, hhop, hnot, hspells⟩
  · cases hspells.symm.trans hparse

/-- Behind a trusted proxy the first header line decides. -/
theorem effective_client_ip_eq {client : ClientPart} {suffix : List Hop} {socket : SocketAddr} {trusted : List IpAddr}
    (hsocket : socket.ip ∈ trusted) :
    effective_client_ip (forwarded client suffix) socket trusted =
      (((client.lines.head?.getD (client.appended suffix)).to_str).bind fun s =>
        rightmost_untrusted trusted (s.splitOn ',')).getD socket.ip := by
  have hguard : (trusted.isEmpty || !trusted.contains socket.ip) = false := by
    simp [List.ne_nil_of_mem hsocket, hsocket]
  unfold effective_client_ip
  simp only [hguard, Bool.false_eq_true, ↓reduceIte, forwarded_get]
  cases (client.lines.head?.getD (client.appended suffix)).to_str with
  | none => rfl
  | some s => rfl

theorem spelling_plain {ip : IpAddr} {c : Char} (h : c ∈ ip.spelling) :
    32 ≤ c.toNat ∧ c.toNat < 127 ∧ c ≠ ',' ∧ c ≠ '[' ∧ str.is_whitespace c = false := by
  have hhex : ∀ v < 16, 32 ≤ (hex v).toNat ∧ (hex v).toNat < 127 ∧ hex v ≠ ',' ∧ hex v ≠ '[' ∧
      str.is_whitespace (hex v) = false := by decide
  obtain ⟨v, hv, rfl⟩ | rfl | rfl := mem_spelling h
  · exact hhex v hv
  · decide
  · decide

theorem parse_xff_spelling (ip : IpAddr) : parse_xff_entry (str.trim ip.spelling) = some ip := by
  have hbracket : ip.spelling.head? ≠ some '[' := fun hhead =>
    (spelling_plain (List.mem_of_head? hhead)).2.2.2.1 rfl
  rw [str.trim_eq_self fun c hc => (spelling_plain hc).2.2.2.2]
  unfold parse_xff_entry
  simp only [hbracket, ↓reduceIte, from_str_spelling, Option.isSome_some]

/-- The hop with the text of its address. -/
def spelled_hop (ip : IpAddr) : Hop where
  peer := ip
  text := ip.spelling
  plain _ hc := ⟨(spelling_plain hc).1, (spelling_plain hc).2.1, (spelling_plain hc).2.2.1⟩
  spells := .inl (parse_xff_spelling ip)

/-- A header line with the text of the address. -/
def spelled_line (ip : IpAddr) : HeaderValue where
  bytes := suffix_bytes [spelled_hop ip]
  valid b hb := .inl (List.all_eq_true.mp (suffix_bytes_visible _) b hb)

theorem spelled_line_entries (ip : IpAddr) :
    ((spelled_line ip).bytes.map fun b => Char.ofNat b.toNat).splitOn ',' = [ip.spelling] := by
  have hdecode : ((spelled_line ip).bytes.map fun b => Char.ofNat b.toNat) = suffix_text [spelled_hop ip] :=
    decode_suffix _
  rw [hdecode, split_suffix (List.cons_ne_nil _ _)]
  rfl

theorem rightmost_untrusted_spelling {trusted : List IpAddr} {ip : IpAddr} (h : ip ∉ trusted) :
    rightmost_untrusted trusted [ip.spelling] = some ip := by
  simp [rightmost_untrusted, untrusted_entry, parse_xff_spelling, h]

/-- What the front end lets a client put in front of the chain: up to so many
header lines of its own, and text that is visible ASCII or any text. -/
structure FrontEnd where
  lines : Nat
  visible_only : Bool

def FrontEnd.lets_through (front : FrontEnd) (client : ClientPart) : Prop :=
  client.lines.length ≤ front.lines ∧ (front.visible_only = true → client.Visible)

/-- Whatever clients put in front, the address is the same, of a hop that the
trusted proxies appended. -/
def NotChosen (front : FrontEnd) (suffix : List Hop) (socket : SocketAddr) (trusted : List IpAddr) : Prop :=
  ∀ first second, front.lets_through first → front.lets_through second →
    effective_client_ip (forwarded first suffix) socket trusted =
        effective_client_ip (forwarded second suffix) socket trusted ∧
      ∃ hop ∈ suffix, hop.peer ∉ trusted ∧ effective_client_ip (forwarded first suffix) socket trusted = hop.peer

variable {suffix : List Hop} {socket : SocketAddr} {trusted : List IpAddr}

/-- In a visible line the suffix answers before the client does. -/
theorem effective_client_ip_visible (hsocket : socket.ip ∈ trusted) (hne : suffix ≠ []) {client : ClientPart}
    (hlines : client.lines = []) (hvisible : client.Visible) :
    effective_client_ip (forwarded client suffix) socket trusted =
      ((rightmost_untrusted trusted (suffix.map Hop.text)).or (rightmost_untrusted trusted client.entries)).getD
        socket.ip := by
  obtain ⟨s, hs, hsplit⟩ := appended_entries hne hvisible
  rw [effective_client_ip_eq hsocket, hlines, List.head?_nil, Option.getD_none, hs, Option.bind_some, hsplit,
    rightmost_untrusted_append]

/-- A line of the client's own that spells an address is all that is read. -/
theorem own_line_answers (hsocket : socket.ip ∈ trusted) {ip : IpAddr} (hip : ip ∉ trusted) :
    effective_client_ip (forwarded ⟨[spelled_line ip], none⟩ suffix) socket trusted = ip := by
  have hread : (spelled_line ip).to_str = some ((spelled_line ip).bytes.map fun b => Char.ofNat b.toNat) :=
    if_pos (suffix_bytes_visible _)
  rw [effective_client_ip_eq hsocket, List.head?_cons, Option.getD_some, hread, Option.bind_some, spelled_line_entries,
    rightmost_untrusted_spelling hip, Option.getD_some]

theorem empty_line_answers (hsocket : socket.ip ∈ trusted) :
    effective_client_ip (forwarded ⟨[⟨[], by simp⟩], none⟩ suffix) socket trusted = socket.ip := by
  rw [effective_client_ip_eq hsocket]
  rfl

/-- A byte above ASCII keeps the whole line from being read. -/
theorem opaque_text_answers (hsocket : socket.ip ∈ trusted) :
    effective_client_ip (forwarded ⟨[], some ⟨[200], by simp⟩⟩ suffix) socket trusted = socket.ip := by
  have hopaque : ((⟨[], some ⟨[200], by simp⟩⟩ : ClientPart).appended suffix).to_str = none := by
    refine if_neg ?_
    simp [ClientPart.appended, visible_ascii]
  rw [effective_client_ip_eq hsocket, List.head?_nil, Option.getD_none, hopaque]
  rfl

/-- Text with an address in front of a suffix that names no hop. -/
theorem inline_address_answers (hsocket : socket.ip ∈ trusted) (hne : suffix ≠ []) (hvouches : ¬ Vouches trusted suffix)
    {ip : IpAddr} (hip : ip ∉ trusted) :
    effective_client_ip (forwarded ⟨[], some (spelled_line ip)⟩ suffix) socket trusted = ip := by
  have hvisible : (⟨[], some (spelled_line ip)⟩ : ClientPart).Visible := by
    intro text htext
    obtain rfl := Option.some.inj htext
    exact suffix_bytes_visible _
  have hentries : (⟨[], some (spelled_line ip)⟩ : ClientPart).entries = [ip.spelling] := spelled_line_entries ip
  rw [effective_client_ip_visible hsocket hne rfl hvisible, rightmost_untrusted_none hvouches, hentries,
    rightmost_untrusted_spelling hip]
  rfl

theorem no_text_answers (hsocket : socket.ip ∈ trusted) (hne : suffix ≠ []) :
    effective_client_ip (forwarded ⟨[], none⟩ suffix) socket trusted =
      (rightmost_untrusted trusted (suffix.map Hop.text)).getD socket.ip := by
  have hvisible : (⟨[], none⟩ : ClientPart).Visible := fun text htext => nomatch htext
  rw [effective_client_ip_visible hsocket hne rfl hvisible]
  simp [ClientPart.entries, rightmost_untrusted]

/-- Two clients get different addresses. -/
theorem chosen_of {front : FrontEnd} (hsocket : socket.ip ∈ trusted) (hhop : ∃ hop ∈ suffix, hop.peer ∉ trusted)
    (h : ¬ (front.lines = 0 ∧ front.visible_only = true ∧ Vouches trusted suffix)) :
    ∃ first second, front.lets_through first ∧ front.lets_through second ∧
      effective_client_ip (forwarded first suffix) socket trusted ≠
        effective_client_ip (forwarded second suffix) socket trusted := by
  obtain ⟨hop, hmem, hpeer⟩ := hhop
  have hne : suffix ≠ [] := List.ne_nil_of_mem hmem
  have hdiffer : hop.peer ≠ socket.ip := fun heq => hpeer (heq ▸ hsocket)
  have hnone {lines : List HeaderValue} : (⟨lines, none⟩ : ClientPart).Visible := fun text htext => nomatch htext
  obtain hlines | hlines := Nat.eq_zero_or_pos front.lines
  · by_cases hvouches : Vouches trusted suffix
    · have hopaque : front.visible_only ≠ true := fun hvisible => h ⟨hlines, hvisible, hvouches⟩
      obtain ⟨named, -, hnamed, hanswer⟩ := rightmost_untrusted_of_vouches hvouches
      refine ⟨⟨[], none⟩, ⟨[], some ⟨[200], by simp⟩⟩, ⟨Nat.zero_le _, fun _ => hnone⟩,
        ⟨Nat.zero_le _, fun hvisible => absurd hvisible hopaque⟩, ?_⟩
      rw [no_text_answers hsocket hne, opaque_text_answers hsocket, hanswer, Option.getD_some]
      exact fun heq => hnamed (heq ▸ hsocket)
    · refine ⟨⟨[], some (spelled_line hop.peer)⟩, ⟨[], none⟩, ⟨Nat.zero_le _, fun _ text htext => ?_⟩,
        ⟨Nat.zero_le _, fun _ => hnone⟩, ?_⟩
      · obtain rfl := Option.some.inj htext
        exact suffix_bytes_visible _
      · rw [inline_address_answers hsocket hne hvouches hpeer, no_text_answers hsocket hne,
          rightmost_untrusted_none hvouches]
        exact hdiffer
  · refine ⟨⟨[spelled_line hop.peer], none⟩, ⟨[⟨[], by simp⟩], none⟩, ⟨hlines, fun _ => hnone⟩,
      ⟨hlines, fun _ => hnone⟩, ?_⟩
    rw [own_line_answers hsocket hpeer, empty_line_answers hsocket]
    exact hdiffer

/-- The client cannot choose its address exactly when all it gets to add is
visible text in the line of the chain and the trusted proxies name one of their
untrusted peers. -/
theorem client_ip_not_chosen_iff {front : FrontEnd} (hsocket : socket.ip ∈ trusted)
    (hhop : ∃ hop ∈ suffix, hop.peer ∉ trusted) :
    NotChosen front suffix socket trusted ↔
      front.lines = 0 ∧ front.visible_only = true ∧ ∃ hop ∈ suffix, hop.peer ∉ trusted ∧ hop.Spelled := by
  constructor
  · intro hnot
    by_contra h
    obtain ⟨first, second, hfirst, hsecond, hdiffer⟩ := chosen_of hsocket hhop h
    exact hdiffer (hnot first second hfirst hsecond).1
  · rintro ⟨hlines, hvisible, hvouches⟩
    obtain ⟨hop, hmem, htrusted, hanswer⟩ := rightmost_untrusted_of_vouches hvouches
    have hne : suffix ≠ [] := List.ne_nil_of_mem hmem
    have heffective (client : ClientPart) (hthrough : front.lets_through client) :
        effective_client_ip (forwarded client suffix) socket trusted = hop.peer := by
      have hnil : client.lines = [] := List.eq_nil_of_length_eq_zero (Nat.le_zero.mp (hlines ▸ hthrough.1))
      rw [effective_client_ip_visible hsocket hne hnil (hthrough.2 hvisible), hanswer]
      rfl
    intro first second hfirst hsecond
    rw [heffective first hfirst, heffective second hsecond]
    exact ⟨rfl, hop, hmem, htrusted, rfl⟩

section Samples

def proxy : IpAddr := .V4 ⟨10, 0, 0, 1⟩
def peer : IpAddr := .V4 ⟨1, 2, 3, 4⟩

/-- A proxy that cannot tell its peer. -/
def unknown_hop : Hop := ⟨peer, "unknown".toList, str.forall_mem_of_all (by decide), .inr (by decide)⟩

/-- Text in front of the peer's address changes nothing. -/
theorem visible_text_does_not_choose : NotChosen ⟨0, true⟩ [spelled_hop peer] ⟨proxy, 5000, 0⟩ [proxy] :=
  (client_ip_not_chosen_iff (by decide) ⟨spelled_hop peer, by simp, by decide⟩).mpr
    ⟨rfl, rfl, spelled_hop peer, by simp, by decide, parse_xff_spelling peer⟩

/-- A header line of its own, a byte above ASCII and a hop that is not named each let the client choose. -/
theorem client_chooses :
    ¬ NotChosen ⟨1, true⟩ [spelled_hop peer] ⟨proxy, 5000, 0⟩ [proxy] ∧
      ¬ NotChosen ⟨0, false⟩ [spelled_hop peer] ⟨proxy, 5000, 0⟩ [proxy] ∧
      ¬ NotChosen ⟨0, true⟩ [unknown_hop] ⟨proxy, 5000, 0⟩ [proxy] := by
  have hchooses (front : FrontEnd) (hop : Hop) (hpeer : hop.peer = peer)
      (h : ¬ (front.lines = 0 ∧ front.visible_only = true ∧ Vouches [proxy] [hop])) :
      ¬ NotChosen front [hop] ⟨proxy, 5000, 0⟩ [proxy] := by
    intro hnot
    obtain ⟨first, second, hfirst, hsecond, hdiffer⟩ :=
      @chosen_of [hop] ⟨proxy, 5000, 0⟩ [proxy] front (by decide) ⟨hop, by simp, hpeer ▸ by decide⟩ h
    exact hdiffer (hnot first second hfirst hsecond).1
  refine ⟨hchooses _ _ rfl (by simp), hchooses _ _ rfl (by simp), hchooses _ _ rfl ?_⟩
  rintro ⟨-, -, hop, hmem, -, hspelled⟩
  obtain rfl := List.mem_singleton.mp hmem
  have hunread : parse_xff_entry (str.trim unknown_hop.text) = none := by decide
  cases hunread.symm.trans hspelled

end Samples

end iac_controlplane.api
