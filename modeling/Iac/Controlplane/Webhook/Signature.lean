import Iac.Core.Numeral
import Iac.Core.Sha256
import Iac.Core.Text
import Iac.Core.Utf8

namespace iac_controlplane.webhook

def hmac_key (secret : List UInt8) : List UInt8 :=
  let key := if 64 < secret.length then sha2.digest secret else secret
  key ++ List.replicate (64 - key.length) 0

/-- `HMAC-SHA256(secret, body)` in lowercase hex. -/
def compute_hmac_sha256 (secret body : List UInt8) : List Char :=
  let ipad := (hmac_key secret).map (· ^^^ 0x36)
  let opad := (hmac_key secret).map (· ^^^ 0x5c)
  (sha2.hex_digest (opad ++ sha2.digest (ipad ++ body))).toList

/-- The text a signature of the version is made of. -/
def signed_payload (version : String) (timestamp : Int64) (url body : List Char) : Option (List Char) :=
  if version = "v1" then some (num.display_i64 timestamp ++ '.' :: body)
  else if version = "v2" then some (num.display_i64 timestamp ++ '.' :: (url ++ '.' :: body))
  else none

/-- The header with a signature for each version that is known; none without any. -/
def build_signature_header (secret : List UInt8) (timestamp : Int64) (url body : List Char) (versions : List String) :
    Option (List Char) :=
  let signatures := versions.filterMap fun version =>
    (signed_payload version timestamp url body).map fun payload =>
      version.toList ++ '=' :: compute_hmac_sha256 secret (utf8 payload)
  if signatures.isEmpty then none
  else some ([','].intercalate (("t=".toList ++ num.display_i64 timestamp) :: signatures))

structure ParsedSignatureHeader where
  timestamp : Int64
  v1 : Option (List Char)
  v2 : Option (List Char)

/-- What the parts read so far say; a later part of a key replaces an earlier one. -/
structure HeaderParts where
  t : Option Int64 := none
  v1 : Option (List Char) := none
  v2 : Option (List Char) := none

/-- `str::split_once`. -/
def split_once (separator : Char) (text : List Char) : Option (List Char × List Char) :=
  match text.dropWhile (· != separator) with
  | [] => none
  | _ :: rest => some (text.takeWhile (· != separator), rest)

def HeaderParts.read (parts : HeaderParts) (part : List Char) : Option HeaderParts :=
  (split_once '=' part).map fun (k, v) =>
    let key := String.ofList (str.trim k)
    if key = "t" then { parts with t := num.parse_i64 (str.trim v) }
    else if key = "v1" then { parts with v1 := some (str.trim v) }
    else if key = "v2" then { parts with v2 := some (str.trim v) }
    else parts

def parse_signature_header_versioned (header : List Char) : Option ParsedSignatureHeader := do
  let parts ← (header.splitOn ',').foldlM HeaderParts.read {}
  let timestamp ← parts.t
  return { timestamp, v1 := parts.v1, v2 := parts.v2 }

def parse_signature_header (header : List Char) : Option (Int64 × List Char) := do
  let parsed ← parse_signature_header_versioned header
  let v1 ← parsed.v1
  return (parsed.timestamp, v1)

/-- Compares without stopping at the first difference. -/
def ct_eq (a b : List UInt8) : Bool :=
  if a.length ≠ b.length then false
  else (a.zip b).foldl (fun diff xy => diff ||| (xy.1 ^^^ xy.2)) 0 == 0

/-- The timestamp is at most the tolerance from now; the difference wraps. -/
def is_fresh (now timestamp tolerance_secs : Int64) : Bool := !decide ((now - timestamp).abs > tolerance_secs)

def verify_signed_payload (secret body : List UInt8) (header : List Char) (now tolerance_secs : Int64) :
    Except String Unit := do
  let (timestamp, sig_hex) ← (parse_signature_header header).elim (.error "malformed signature header") .ok
  if !is_fresh now timestamp tolerance_secs then .error "timestamp outside tolerance"
  else do
    let body ← (str.from_utf8 body).elim (.error "non-utf8 body") .ok
    let expected := compute_hmac_sha256 secret (utf8 (num.display_i64 timestamp ++ '.' :: body))
    if !ct_eq (utf8 sig_hex) (utf8 expected) then .error "signature mismatch" else .ok ()

def verify_signed_payload_v2 (secret body : List UInt8) (url : List Char) (header : List Char)
    (now tolerance_secs : Int64) : Except String Unit := do
  let parsed ← (parse_signature_header_versioned header).elim (.error "malformed signature header") .ok
  if !is_fresh now parsed.timestamp tolerance_secs then .error "timestamp outside tolerance"
  else do
    let sig_hex ← parsed.v2.elim (.error "v2 signature missing") .ok
    let body ← (str.from_utf8 body).elim (.error "non-utf8 body") .ok
    let expected := compute_hmac_sha256 secret
      (utf8 (num.display_i64 parsed.timestamp ++ '.' :: (url ++ '.' :: body)))
    if !ct_eq (utf8 sig_hex) (utf8 expected) then .error "signature mismatch" else .ok ()

private theorem fold_difference {pairs : List (UInt8 × UInt8)} {diff : UInt8} :
    pairs.foldl (fun diff xy => diff ||| (xy.1 ^^^ xy.2)) diff = 0 ↔ diff = 0 ∧ ∀ xy ∈ pairs, xy.1 = xy.2 := by
  induction pairs generalizing diff with
  | nil => simp
  | cons xy pairs ih =>
    rw [List.foldl_cons, ih, UInt8.or_eq_zero_iff, UInt8.xor_eq_zero_iff, List.forall_mem_cons, and_assoc]

theorem ct_eq_iff {a b : List UInt8} : ct_eq a b = true ↔ a = b := by
  unfold ct_eq
  split_ifs with hlength
  · simp only [false_iff]
    rintro rfl
    exact hlength rfl
  · rw [beq_iff_eq, fold_difference]
    have hlength := not_not.mp hlength
    constructor
    · rintro ⟨-, hpairs⟩
      refine List.ext_getElem hlength fun i hi hi' => ?_
      have hzip : i < (a.zip b).length := by
        rw [List.length_zip]
        omega
      simpa using hpairs _ (List.getElem_mem hzip)
    · rintro rfl
      refine ⟨rfl, fun xy hxy => ?_⟩
      obtain ⟨i, hi, rfl⟩ := List.getElem_of_mem hxy
      simp

theorem ct_eq_utf8_iff {a b : List Char} : ct_eq (utf8 a) (utf8 b) = true ↔ a = b := by
  rw [ct_eq_iff]
  exact utf8.utf8_injective.eq_iff

/-- The versions that the receivers check. -/
inductive Version where
  | v1
  | v2
  deriving DecidableEq

def Version.name : Version → String
  | .v1 => "v1"
  | .v2 => "v2"

/-- What the signature of the version covers after the timestamp. -/
def Version.covered (version : Version) (url body : List Char) : List Char :=
  match version with
  | .v1 => body
  | .v2 => url ++ '.' :: body

def Version.payload (version : Version) (timestamp : Int64) (url body : List Char) : List Char :=
  num.display_i64 timestamp ++ '.' :: version.covered url body

/-- A signature of the version. -/
def Version.sign (version : Version) (secret : List UInt8) (timestamp : Int64) (url body : List Char) : List Char :=
  compute_hmac_sha256 secret (utf8 (version.payload timestamp url body))

def ParsedSignatureHeader.signature (parsed : ParsedSignatureHeader) : Version → Option (List Char)
  | .v1 => parsed.v1
  | .v2 => parsed.v2

/-- The receiver's check of the version. -/
def verify (version : Version) (secret body : List UInt8) (url header : List Char) (now tolerance_secs : Int64) :
    Except String Unit :=
  match version with
  | .v1 => verify_signed_payload secret body header now tolerance_secs
  | .v2 => verify_signed_payload_v2 secret body url header now tolerance_secs

theorem signed_payload_eq (version : Version) (timestamp : Int64) (url body : List Char) :
    signed_payload version.name timestamp url body = some (version.payload timestamp url body) := by
  cases version with
  | v1 => rfl
  | v2 => rfl

theorem signed_payload_some {version : String} {timestamp : Int64} {url body payload : List Char}
    (h : signed_payload version timestamp url body = some payload) :
    ∃ known : Version, known.name = version ∧ payload = known.payload timestamp url body := by
  unfold signed_payload at h
  split_ifs at h with hv1 hv2
  · exact ⟨.v1, hv1.symm, (Option.some.inj h).symm⟩
  · exact ⟨.v2, hv2.symm, (Option.some.inj h).symm⟩

/-- A receiver takes a body when the header has the signature of it for the
header's timestamp, which is fresh. -/
theorem verify_ok_iff {version : Version} {secret : List UInt8} {url body header : List Char} {now tolerance : Int64} :
    verify version secret (utf8 body) url header now tolerance = .ok () ↔
      ∃ parsed, parse_signature_header_versioned header = some parsed ∧
        is_fresh now parsed.timestamp tolerance = true ∧
        parsed.signature version = some (version.sign secret parsed.timestamp url body) := by
  cases hparse : parse_signature_header_versioned header with
  | none =>
    cases version with
    | v1 => simp [verify, verify_signed_payload, parse_signature_header, hparse, bind, Except.bind]
    | v2 => simp [verify, verify_signed_payload_v2, hparse, bind, Except.bind]
  | some parsed =>
    have hchecked (sig expected : List Char) :
        (if !ct_eq (utf8 sig) (utf8 expected) then Except.error "signature mismatch" else .ok ()) = .ok () ↔
          sig = expected := by
      rw [← ct_eq_utf8_iff (a := sig)]
      cases ct_eq (utf8 sig) (utf8 expected) with
      | true => simp
      | false => simp
    simp only [Option.some.injEq, exists_eq_left']
    cases version with
    | v1 =>
      simp only [verify, verify_signed_payload, parse_signature_header, hparse, Option.bind_eq_bind, Option.bind_some,
        ParsedSignatureHeader.signature]
      cases hsig : parsed.v1 with
      | none => simp [bind, Except.bind]
      | some sig =>
        cases hfresh : is_fresh now parsed.timestamp tolerance with
        | false => simp [bind, Except.bind, hfresh]
        | true =>
          simp only [Option.bind_some, Option.pure_def, Option.elim_some, bind, Except.bind, hfresh, Bool.not_true,
            Bool.false_eq_true, ↓reduceIte, str.from_utf8_utf8, hchecked, true_and, Option.some.injEq]
          exact Iff.rfl
    | v2 =>
      simp only [verify, verify_signed_payload_v2, hparse, ParsedSignatureHeader.signature]
      cases hsig : parsed.v2 with
      | none =>
        cases hfresh : is_fresh now parsed.timestamp tolerance with
        | false => simp [bind, Except.bind, hfresh]
        | true => simp [bind, Except.bind, hfresh, hsig]
      | some sig =>
        cases hfresh : is_fresh now parsed.timestamp tolerance with
        | false => simp [bind, Except.bind, hfresh]
        | true =>
          simp only [Option.elim_some, bind, Except.bind, hfresh, Bool.not_true, Bool.false_eq_true, ↓reduceIte, hsig,
            str.from_utf8_utf8, hchecked, true_and, Option.some.injEq]
          exact Iff.rfl

/-- The characters of keys and values of a header. -/
def Token (text : List Char) : Prop :=
  ∀ c ∈ text, str.is_whitespace c = false ∧ c ≠ ',' ∧ c ≠ '='

theorem token_display (timestamp : Int64) : Token (num.display_i64 timestamp) := by
  have hdigit (c : Char) (h : c.isDigit = true) : str.is_whitespace c = false ∧ c ≠ ',' ∧ c ≠ '=' := by
    refine ⟨str.not_whitespace_of_digit h, ?_, ?_⟩
    · rintro rfl
      exact absurd h (by decide)
    · rintro rfl
      exact absurd h (by decide)
  intro c hc
  obtain rfl | h := num.mem_display_i64 hc
  · decide
  · exact hdigit c h

theorem token_hmac (secret body : List UInt8) : Token (compute_hmac_sha256 secret body) := by
  have hhex : ∀ n < 16, str.is_whitespace (sha2.hex_digit n) = false ∧ sha2.hex_digit n ≠ ',' ∧
      sha2.hex_digit n ≠ '=' := by decide
  intro c hc
  simp only [compute_hmac_sha256, sha2.hex_digest, String.toList_ofList, List.mem_flatMap, List.mem_cons,
    List.not_mem_nil, or_false] at hc
  obtain ⟨b, -, hc⟩ := hc
  have hb := b.toNat_lt
  obtain rfl | rfl := hc
  · exact hhex _ (by omega)
  · exact hhex _ (by omega)

theorem token_name (version : Version) : Token version.name.toList := by
  cases version with
  | v1 => exact str.forall_mem_of_all (by decide)
  | v2 => exact str.forall_mem_of_all (by decide)

theorem split_once_token {key value : List Char} (hkey : Token key) :
    split_once '=' (key ++ '=' :: value) = some (key, value) := by
  have hnot : ∀ c ∈ key, (c != '=') = true := fun c hc => by simpa using (hkey c hc).2.2
  unfold split_once
  rw [List.dropWhile_append_of_pos hnot, List.takeWhile_append_of_pos hnot]
  simp

theorem read_timestamp (parts : HeaderParts) (timestamp : Int64) :
    parts.read ("t=".toList ++ num.display_i64 timestamp) = some { parts with t := some timestamp } := by
  have hkey : Token ['t'] := str.forall_mem_of_all (by decide)
  have hsplit := @split_once_token ['t'] (num.display_i64 timestamp) hkey
  have htrim := str.trim_eq_self fun c hc => (token_display timestamp c hc).1
  unfold HeaderParts.read
  rw [show "t=".toList ++ num.display_i64 timestamp = ['t'] ++ '=' :: num.display_i64 timestamp from rfl, hsplit,
    Option.map_some]
  simp only [htrim, num.parse_display_i64]
  rfl

def HeaderParts.set (parts : HeaderParts) (version : Version) (sig : List Char) : HeaderParts :=
  match version with
  | .v1 => { parts with v1 := some sig }
  | .v2 => { parts with v2 := some sig }

theorem read_signature (parts : HeaderParts) (version : Version) {sig : List Char} (hsig : Token sig) :
    parts.read (version.name.toList ++ '=' :: sig) = some (parts.set version sig) := by
  have hsplit := @split_once_token version.name.toList sig (token_name version)
  have htrim := str.trim_eq_self fun c hc => (hsig c hc).1
  have hkey := str.trim_eq_self fun c hc => (token_name version c hc).1
  unfold HeaderParts.read
  rw [hsplit, Option.map_some]
  simp only [htrim, hkey, String.ofList_toList]
  cases version with
  | v1 => rfl
  | v2 => rfl

def HeaderParts.signature (parts : HeaderParts) : Version → Option (List Char)
  | .v1 => parts.v1
  | .v2 => parts.v2

theorem HeaderParts.signature_set (parts : HeaderParts) (version other : Version) (sig : List Char) :
    (parts.set version sig).signature other = if other = version then some sig else parts.signature other := by
  cases version <;> cases other <;> rfl

theorem Version.name_injective : Function.Injective Version.name := by
  intro a b h
  cases a <;> cases b <;> first | rfl | exact absurd h (by decide)

/-- The signatures of a header, as its parts list them. -/
def signature_parts (secret : List UInt8) (timestamp : Int64) (url body : List Char) (versions : List String) :
    List (List Char) :=
  versions.filterMap fun version =>
    (signed_payload version timestamp url body).map fun payload =>
      version.toList ++ '=' :: compute_hmac_sha256 secret (utf8 payload)

section Build

variable {secret : List UInt8} {timestamp : Int64} {url body : List Char}

/-- Each known version that is listed gets its signature. -/
theorem read_signature_parts (versions : List String) (parts : HeaderParts) :
    ∃ final, (signature_parts secret timestamp url body versions).foldlM HeaderParts.read parts = some final ∧
      final.t = parts.t ∧ ∀ version : Version, final.signature version =
        if version.name ∈ versions then some (version.sign secret timestamp url body) else parts.signature version := by
  induction versions generalizing parts with
  | nil => exact ⟨parts, rfl, rfl, fun version => by simp⟩
  | cons listed versions ih =>
    unfold signature_parts
    rw [List.filterMap_cons]
    cases hpayload : signed_payload listed timestamp url body with
    | none =>
      obtain ⟨final, hread, ht, hsignatures⟩ := ih parts
      refine ⟨final, hread, ht, fun version => ?_⟩
      have hother : version.name ≠ listed := by
        rintro rfl
        rw [signed_payload_eq] at hpayload
        cases hpayload
      simp [hsignatures version, hother]
    | some payload =>
      obtain ⟨known, rfl, rfl⟩ := signed_payload_some hpayload
      obtain ⟨final, hread, ht, hsignatures⟩ := ih (parts.set known (known.sign secret timestamp url body))
      refine ⟨final, ?_, ?_, fun version => ?_⟩
      · have hfirst := read_signature parts known (token_hmac secret (utf8 (known.payload timestamp url body)))
        simp only [Option.map_some, List.foldlM_cons, hfirst]
        exact hread
      · rw [ht]
        cases known <;> rfl
      · rw [hsignatures version, HeaderParts.signature_set]
        by_cases hknown : version = known
        · subst hknown
          simp
        · have hname : version.name ≠ known.name := fun h => hknown (Version.name_injective h)
          simp [hknown, hname]

theorem parts_no_comma (versions : List String) :
    ∀ part ∈ ("t=".toList ++ num.display_i64 timestamp) :: signature_parts secret timestamp url body versions,
      ',' ∉ part := by
  intro part hpart hcomma
  obtain rfl | hpart := List.mem_cons.mp hpart
  · obtain h | h := List.mem_append.mp hcomma
    · exact absurd h (by decide)
    · exact (token_display timestamp ',' h).2.1 rfl
  · obtain ⟨listed, -, hlisted⟩ := List.mem_filterMap.mp hpart
    obtain ⟨payload, hpayload, rfl⟩ := Option.map_eq_some_iff.mp hlisted
    obtain ⟨known, rfl, rfl⟩ := signed_payload_some hpayload
    obtain h | h := List.mem_append.mp hcomma
    · exact (token_name known ',' h).2.1 rfl
    · obtain h | h := List.mem_cons.mp h
      · exact absurd h (by decide)
      · exact (token_hmac secret _ ',' h).2.1 rfl

/-- The parser reads what the builder wrote. -/
theorem parse_build {versions : List String} {header : List Char}
    (h : build_signature_header secret timestamp url body versions = some header) :
    ∃ parsed, parse_signature_header_versioned header = some parsed ∧ parsed.timestamp = timestamp ∧
      ∀ version : Version, version.name ∈ versions →
        parsed.signature version = some (version.sign secret timestamp url body) := by
  unfold build_signature_header at h
  simp only at h
  split_ifs at h
  obtain rfl := Option.some.inj h
  obtain ⟨final, hread, ht, hsignatures⟩ :=
    @read_signature_parts secret timestamp url body versions { t := some timestamp }
  have hsplit := List.splitOn_intercalate ',' (@parts_no_comma secret timestamp url body versions) (List.cons_ne_nil _ _)
  refine ⟨⟨timestamp, final.v1, final.v2⟩, ?_, rfl, fun version hversion => ?_⟩
  · unfold parse_signature_header_versioned
    rw [signature_parts] at hsplit hread
    rw [hsplit, List.foldlM_cons, read_timestamp]
    simp only [Option.bind_eq_bind, Option.bind_some, hread, ht]
    rfl
  · have hsignature := hsignatures version
    rw [if_pos hversion] at hsignature
    cases version with
    | v1 => exact hsignature
    | v2 => exact hsignature

end Build

/-- The results of the check's two operations are the exact ones. -/
structure NoOverflow (now timestamp : Int64) : Prop where
  difference : (now - timestamp).toInt = now.toInt - timestamp.toInt
  distance : (now - timestamp).abs.toInt = (now - timestamp).toInt.natAbs

theorem no_overflow_iff {now timestamp : Int64} :
    NoOverflow now timestamp ↔ (now.toInt - timestamp.toInt).natAbs < 2 ^ 63 := by
  constructor
  · rintro ⟨hdifference, hdistance⟩
    have hlt := (now - timestamp).abs.toInt_lt
    omega
  · intro hlt
    have hdifference : (now - timestamp).toInt = now.toInt - timestamp.toInt := by
      rw [Int64.toInt_sub]
      refine Int.bmod_eq_of_le ?_ ?_
      · omega
      · omega
    refine ⟨hdifference, ?_⟩
    have hbits : (now - timestamp).abs.toInt = (now - timestamp).toBitVec.abs.toInt := rfl
    rw [hbits, BitVec.toInt_abs_eq_natAbs_of_ne_intMin]
    · rfl
    · intro hmin
      have hvalue : (now - timestamp).toInt = (BitVec.intMin 64).toInt := congrArg BitVec.toInt hmin
      have hint : (BitVec.intMin 64).toInt = -2 ^ 63 := by decide
      omega

/-- Where nothing wraps, the fresh timestamps are those within the tolerance. -/
theorem NoOverflow.is_fresh_iff {now timestamp : Int64} (h : NoOverflow now timestamp) (tolerance : Int64) :
    is_fresh now timestamp tolerance = true ↔ (now.toInt - timestamp.toInt).natAbs ≤ tolerance.toInt := by
  have hfresh : is_fresh now timestamp tolerance = true ↔ ¬ tolerance < (now - timestamp).abs := by simp [is_fresh]
  rw [hfresh, Int64.lt_iff_toInt_lt, h.distance, h.difference, Int.not_lt]

/-- A timestamp within the tolerance is fresh; the difference does not wrap there. -/
theorem is_fresh_of_le {now timestamp tolerance : Int64}
    (h : (now.toInt - timestamp.toInt).natAbs ≤ tolerance.toInt) :
    is_fresh now timestamp tolerance = true := by
  have htolerance := tolerance.toInt_lt
  exact ((no_overflow_iff.mpr (by omega)).is_fresh_iff tolerance).mpr h

/-- What a delivery tells its receiver. -/
structure Message where
  timestamp : Int64
  url : List Char
  body : List Char

def Version.sign_message (version : Version) (secret : List UInt8) (message : Message) : List Char :=
  version.sign secret message.timestamp message.url message.body

def Version.bytes (version : Version) (message : Message) : List UInt8 :=
  utf8 (version.payload message.timestamp message.url message.body)

/-- The header has the timestamp of the message, and the signature under the version. -/
def Carries (header : List Char) (message : Message) (version : Version) (sig : List Char) : Prop :=
  ∃ parsed, parse_signature_header_versioned header = some parsed ∧ parsed.timestamp = message.timestamp ∧
    parsed.signature version = some sig

/-- The receiver takes the message with this header. -/
def Accepted (version : Version) (secret : List UInt8) (message : Message) (header : List Char)
    (now tolerance : Int64) : Prop :=
  verify version secret (utf8 message.body) message.url header now tolerance = .ok ()

/-- The claim is the version, the timestamp, the body and the URL that were signed. -/
structure Bound (made used : Version) (signed claimed : Message) : Prop where
  version : used = made
  timestamp : claimed.timestamp = signed.timestamp
  body : claimed.body = signed.body
  url : made = .v2 → claimed.url = signed.url

/-- The signed text of one message is that of another: a dot of a URL or of a
body stands where the other has its separator. -/
def Confused (made used : Version) (signed claimed : Message) : Prop :=
  claimed.timestamp = signed.timestamp ∧
    match made, used with
    | .v1, .v1 => False
    | .v1, .v2 => signed.body = claimed.url ++ '.' :: claimed.body
    | .v2, .v1 => signed.url ++ '.' :: signed.body = claimed.body
    | .v2, .v2 => signed.url ++ '.' :: signed.body = claimed.url ++ '.' :: claimed.body ∧ signed.url ≠ claimed.url

theorem dot_append_inj {a b x y : List Char} (ha : '.' ∉ a) (hb : '.' ∉ b) (h : a ++ '.' :: x = b ++ '.' :: y) :
    a = b ∧ x = y := by
  have htake {a x : List Char} (ha : '.' ∉ a) : (a ++ '.' :: x).takeWhile (· != '.') = a := by
    have hnot : ∀ c ∈ a, (c != '.') = true := fun c hc => by
      simp only [bne_iff_ne]
      rintro rfl
      exact ha hc
    rw [List.takeWhile_append_of_pos hnot]
    simp
  have hab : a = b := by rw [← htake (x := x) ha, h, htake hb]
  subst hab
  exact ⟨rfl, (List.cons.inj (List.append_cancel_left h)).2⟩

theorem dot_not_mem_display (timestamp : Int64) : '.' ∉ num.display_i64 timestamp := by
  intro h
  obtain h | h := num.mem_display_i64 h
  · exact absurd h (by decide)
  · exact absurd h (by decide)

theorem payload_eq_iff {made used : Version} {signed claimed : Message} :
    made.payload signed.timestamp signed.url signed.body = used.payload claimed.timestamp claimed.url claimed.body ↔
      signed.timestamp = claimed.timestamp ∧
        made.covered signed.url signed.body = used.covered claimed.url claimed.body := by
  constructor
  · intro h
    obtain ⟨htimestamp, hcovered⟩ := dot_append_inj (dot_not_mem_display _) (dot_not_mem_display _) h
    exact ⟨num.display_i64_injective htimestamp, hcovered⟩
  · rintro ⟨htimestamp, hcovered⟩
    rw [Version.payload, Version.payload, htimestamp, hcovered]

/-- Messages with one signed text are bound to each other, or confused. -/
theorem same_payload_iff {made used : Version} {signed claimed : Message} :
    made.payload signed.timestamp signed.url signed.body = used.payload claimed.timestamp claimed.url claimed.body ↔
      Bound made used signed claimed ∨ Confused made used signed claimed := by
  rw [payload_eq_iff]
  constructor
  · rintro ⟨htimestamp, hcovered⟩
    cases made with
    | v1 =>
      cases used with
      | v1 => exact .inl ⟨rfl, htimestamp.symm, hcovered.symm, fun h => nomatch h⟩
      | v2 => exact .inr ⟨htimestamp.symm, hcovered⟩
    | v2 =>
      cases used with
      | v1 => exact .inr ⟨htimestamp.symm, hcovered⟩
      | v2 =>
        by_cases hurl : signed.url = claimed.url
        · have hbody : '.' :: signed.body = '.' :: claimed.body := by
            simp only [Version.covered, hurl] at hcovered
            exact List.append_cancel_left hcovered
          exact .inl ⟨rfl, htimestamp.symm, (List.cons.inj hbody).2.symm, fun _ => hurl.symm⟩
        · exact .inr ⟨htimestamp.symm, hcovered, hurl⟩
  · rintro (⟨rfl, htimestamp, hbody, hurl⟩ | ⟨htimestamp, hcovered⟩)
    · refine ⟨htimestamp.symm, ?_⟩
      cases used with
      | v1 => exact hbody.symm
      | v2 => rw [Version.covered, Version.covered, hbody, hurl rfl]
    · refine ⟨htimestamp.symm, ?_⟩
      cases made with
      | v1 =>
        cases used with
        | v1 => exact hcovered.elim
        | v2 => exact hcovered
      | v2 =>
        cases used with
        | v1 => exact hcovered
        | v2 => exact hcovered.1

theorem not_bound_of_confused {made used : Version} {signed claimed : Message} (h : Confused made used signed claimed) :
    ¬ Bound made used signed claimed := by
  rintro ⟨rfl, -, -, hurl⟩
  cases used with
  | v1 => exact h.2
  | v2 => exact h.2.2 (hurl rfl).symm

theorem accepted_iff {version : Version} {secret : List UInt8} {message : Message} {header sig : List Char}
    {now tolerance : Int64} (hcarries : Carries header message version sig) :
    Accepted version secret message header now tolerance ↔
      is_fresh now message.timestamp tolerance = true ∧ sig = version.sign_message secret message := by
  obtain ⟨parsed, hparse, htimestamp, hsig⟩ := hcarries
  unfold Accepted
  rw [verify_ok_iff]
  simp only [hparse, Option.some.injEq, exists_eq_left', hsig, htimestamp]
  exact Iff.rfl

/-- The header that is built for a message is accepted for it, by every version it lists. -/
theorem build_accepted {version : Version} {secret : List UInt8} {message : Message} {versions : List String}
    {header : List Char} {now tolerance : Int64}
    (hbuild : build_signature_header secret message.timestamp message.url message.body versions = some header)
    (hlisted : version.name ∈ versions) (hfresh : is_fresh now message.timestamp tolerance = true) :
    Accepted version secret message header now tolerance := by
  obtain ⟨parsed, hparse, htimestamp, hsignature⟩ := parse_build hbuild
  have hcarries : Carries header message version (version.sign_message secret message) :=
    ⟨parsed, hparse, htimestamp, hsignature version hlisted⟩
  exact (accepted_iff hcarries).mpr ⟨hfresh, rfl⟩

/-- A signature is accepted for the message it was made for. Where the two signed
texts do not collide under the HMAC, it is accepted for nothing else exactly when
the texts are not the same for another split at a dot, or the timestamp is stale. -/
theorem signatures_bind_iff {made used : Version} {secret : List UInt8} {signed claimed : Message} {header : List Char}
    {now tolerance : Int64} (hcarries : Carries header claimed used (made.sign_message secret signed))
    (hcollision : compute_hmac_sha256 secret (made.bytes signed) = compute_hmac_sha256 secret (used.bytes claimed) →
      made.bytes signed = used.bytes claimed) :
    (∀ versions built (now tolerance : Int64),
        build_signature_header secret signed.timestamp signed.url signed.body versions = some built →
        made.name ∈ versions → (now.toInt - signed.timestamp.toInt).natAbs ≤ tolerance.toInt →
        Accepted made secret signed built now tolerance) ∧
      ((Accepted used secret claimed header now tolerance → Bound made used signed claimed) ↔
        ¬ (is_fresh now claimed.timestamp tolerance = true ∧ Confused made used signed claimed)) := by
  refine ⟨fun versions built now tolerance hbuild hlisted hle => build_accepted hbuild hlisted (is_fresh_of_le hle), ?_⟩
  rw [accepted_iff hcarries]
  have hsame : made.sign_message secret signed = used.sign_message secret claimed ↔
      Bound made used signed claimed ∨ Confused made used signed claimed := by
    rw [← same_payload_iff]
    constructor
    · exact fun h => utf8.utf8_injective (hcollision h)
    · intro h
      unfold Version.sign_message Version.sign
      rw [h]
  rw [hsame]
  constructor
  · rintro hbound ⟨hfresh, hconfused⟩
    exact not_bound_of_confused hconfused (hbound ⟨hfresh, .inr hconfused⟩)
  · rintro hnot ⟨hfresh, hbound | hconfused⟩
    · exact hbound
    · exact absurd ⟨hfresh, hconfused⟩ hnot

section Samples

/-- An event for one receiver. -/
def event : Message := ⟨1700000000, "https://hooks.example".toList, "{}".toList⟩

/-- The same signed text for a receiver at another URL. -/
def moved_event : Message := ⟨1700000000, "https://hooks".toList, "example.{}".toList⟩

private theorem event_header :
    ∃ header, build_signature_header [1] event.timestamp event.url event.body ["v1", "v2"] = some header ∧
      Carries header event .v2 (Version.v2.sign_message [1] event) := by
  obtain ⟨header, hbuild⟩ : ∃ header,
      build_signature_header [1] event.timestamp event.url event.body ["v1", "v2"] = some header := ⟨_, rfl⟩
  obtain ⟨parsed, hparse, htimestamp, hsignature⟩ := parse_build hbuild
  exact ⟨header, hbuild, parsed, hparse, htimestamp, hsignature .v2 (by decide)⟩

private theorem fresh_sample : is_fresh 1700000100 event.timestamp 300 = true := is_fresh_of_le (by decide)

/-- The receiver takes the event, and only for what it is. -/
theorem event_is_accepted :
    ∃ header, Accepted .v2 [1] event header 1700000100 300 ∧
      (Accepted .v2 [1] event header 1700000100 300 → Bound .v2 .v2 event event) := by
  obtain ⟨header, hbuild, hcarries⟩ := event_header
  have hbind := @signatures_bind_iff .v2 .v2 [1] event event header 1700000100 300 hcarries fun _ => rfl
  exact ⟨header, hbind.1 _ _ _ _ hbuild (by decide) (by decide), hbind.2.mpr fun h => h.2.2.2 rfl⟩

/-- The header of the event makes the receiver at the other URL take another body. -/
theorem event_is_taken_elsewhere :
    ∃ header, build_signature_header [1] event.timestamp event.url event.body ["v1", "v2"] = some header ∧
      Accepted .v2 [1] moved_event header 1700000100 300 ∧ ¬ Bound .v2 .v2 event moved_event := by
  obtain ⟨header, hbuild, parsed, hparse, htimestamp, hsig⟩ := event_header
  have hconfused : Confused .v2 .v2 event moved_event := ⟨rfl, by decide, by decide⟩
  have hsame : Version.v2.sign_message [1] event = Version.v2.sign_message [1] moved_event := by
    unfold Version.sign_message Version.sign
    rw [same_payload_iff.mpr (.inr hconfused)]
  have hcarries : Carries header moved_event .v2 (Version.v2.sign_message [1] event) := ⟨parsed, hparse, htimestamp, hsig⟩
  exact ⟨header, hbuild, (accepted_iff hcarries).mpr ⟨fresh_sample, hsame⟩, not_bound_of_confused hconfused⟩

end Samples

/-- The part sets the timestamp. -/
def TimestampPart (part value : List Char) : Prop :=
  ∃ key, split_once '=' part = some (key, value) ∧ String.ofList (str.trim key) = "t"

/-- The timestamp stands in the last of the parts that set one. -/
def StandsLast (timestamp : Int64) (parts : List (List Char)) : Prop :=
  ∃ before part value after, parts = before ++ part :: after ∧ TimestampPart part value ∧
    num.parse_i64 (str.trim value) = some timestamp ∧ ∀ later ∈ after, ∀ value, ¬ TimestampPart later value

/-- The timestamp of the header, wherever it stands in it. -/
def HeaderTimestamp (header : List Char) (timestamp : Int64) : Prop :=
  StandsLast timestamp (header.splitOn ',')

theorem StandsLast.cons {timestamp : Int64} {parts : List (List Char)} (h : StandsLast timestamp parts)
    (first : List Char) : StandsLast timestamp (first :: parts) := by
  obtain ⟨before, part, value, after, rfl, hpart, hvalue, hafter⟩ := h
  exact ⟨first :: before, part, value, after, rfl, hpart, hvalue, hafter⟩

theorem HeaderParts.read_t {parts read : HeaderParts} {part : List Char} (h : parts.read part = some read) :
    (∃ value, TimestampPart part value ∧ read.t = num.parse_i64 (str.trim value)) ∨
      (∀ value, ¬ TimestampPart part value) ∧ read.t = parts.t := by
  obtain ⟨⟨key, value⟩, hsplit, rfl⟩ := Option.map_eq_some_iff.mp h
  by_cases hkey : String.ofList (str.trim key) = "t"
  · exact .inl ⟨value, ⟨key, hsplit, hkey⟩, by simp [hkey]⟩
  · refine .inr ⟨?_, ?_⟩
    · rintro other ⟨found, hfound, hname⟩
      rw [hsplit] at hfound
      obtain ⟨rfl, -⟩ := Prod.mk.inj (Option.some.inj hfound)
      exact hkey hname
    · simp only [hkey, ↓reduceIte]
      split_ifs <;> rfl

/-- The timestamp that is read stands last, or was there before and no part set another. -/
theorem read_parts_t {list : List (List Char)} {parts final : HeaderParts} {timestamp : Int64}
    (hread : list.foldlM HeaderParts.read parts = some final) (ht : final.t = some timestamp) :
    StandsLast timestamp list ∨ parts.t = some timestamp ∧ ∀ part ∈ list, ∀ value, ¬ TimestampPart part value := by
  induction list generalizing parts with
  | nil =>
    rw [List.foldlM_nil] at hread
    obtain rfl := Option.some.inj hread
    exact .inr ⟨ht, by simp⟩
  | cons part list ih =>
    rw [List.foldlM_cons] at hread
    obtain ⟨next, hnext, hrest⟩ := Option.bind_eq_some_iff.mp hread
    obtain hlast | ⟨hkept, hnone⟩ := ih hrest
    · exact .inl (hlast.cons part)
    · obtain ⟨value, hpart, hvalue⟩ | ⟨hother, hsame⟩ := HeaderParts.read_t hnext
      · exact .inl ⟨[], part, value, list, rfl, hpart, hvalue ▸ hkept, hnone⟩
      · exact .inr ⟨hsame ▸ hkept, List.forall_mem_cons.mpr ⟨hother, hnone⟩⟩

/-- The parser admits the timestamp of the header. -/
theorem parsed_timestamp_stands {header : List Char} {parsed : ParsedSignatureHeader}
    (h : parse_signature_header_versioned header = some parsed) : HeaderTimestamp header parsed.timestamp := by
  obtain ⟨final, hread, hfinal⟩ := Option.bind_eq_some_iff.mp h
  obtain ⟨timestamp, ht, hparsed⟩ := Option.bind_eq_some_iff.mp hfinal
  obtain rfl := Option.some.inj hparsed
  obtain hlast | ⟨hdefault, -⟩ := read_parts_t hread ht
  · exact hlast
  · cases hdefault

/-- The timestamp with which the verifier of the version goes into its check. -/
def Version.reads (version : Version) (header : List Char) : Option Int64 :=
  match version with
  | .v1 => (parse_signature_header header).map Prod.fst
  | .v2 => (parse_signature_header_versioned header).map ParsedSignatureHeader.timestamp

theorem Version.reads_parsed {version : Version} {header : List Char} {timestamp : Int64}
    (h : version.reads header = some timestamp) :
    ∃ parsed, parse_signature_header_versioned header = some parsed ∧ parsed.timestamp = timestamp := by
  cases version with
  | v1 =>
    obtain ⟨⟨t, sig⟩, hparse, rfl⟩ := Option.map_eq_some_iff.mp h
    obtain ⟨parsed, hparsed, hsig⟩ := Option.bind_eq_some_iff.mp hparse
    obtain ⟨v1, -, hpair⟩ := Option.bind_eq_some_iff.mp hsig
    exact ⟨parsed, hparsed, (Prod.mk.inj (Option.some.inj hpair)).1⟩
  | v2 => exact Option.map_eq_some_iff.mp h

theorem verify_reads_fresh {version : Version} {secret body : List UInt8} {url header : List Char}
    {now tolerance : Int64} (h : verify version secret body url header now tolerance = .ok ()) :
    ∃ timestamp, version.reads header = some timestamp ∧ is_fresh now timestamp tolerance = true := by
  cases version with
  | v1 =>
    simp only [verify, verify_signed_payload] at h
    cases hparse : parse_signature_header header with
    | none => simp [hparse, bind, Except.bind] at h
    | some read =>
      refine ⟨read.1, by rw [Version.reads, hparse, Option.map_some], ?_⟩
      by_contra hstale
      rw [Bool.not_eq_true] at hstale
      simp [hparse, bind, Except.bind, hstale] at h
  | v2 =>
    simp only [verify, verify_signed_payload_v2] at h
    cases hparse : parse_signature_header_versioned header with
    | none => simp [hparse, bind, Except.bind] at h
    | some parsed =>
      refine ⟨parsed.timestamp, by rw [Version.reads, hparse, Option.map_some], ?_⟩
      by_contra hstale
      rw [Bool.not_eq_true] at hstale
      simp [hparse, bind, Except.bind, hstale] at h

/-- What the receiver's check of a version keeps: the replay window as integers,
and every operation of it in range. -/
structure Windowed (version : Version) (header : List Char) (now tolerance : Int64) : Prop where
  window : ∀ secret body url, verify version secret body url header now tolerance = .ok () →
    ∃ timestamp, HeaderTimestamp header timestamp ∧ (now.toInt - timestamp.toInt).natAbs ≤ tolerance.toInt
  exact : ∀ timestamp, version.reads header = some timestamp → NoOverflow now timestamp

/-- The window holds, without overflow, exactly where the timestamp that is read
is less than half of the range of 64 bits away from now. -/
theorem windowed_iff (version : Version) (header : List Char) (now tolerance : Int64) :
    Windowed version header now tolerance ↔
      ∀ timestamp, version.reads header = some timestamp → (now.toInt - timestamp.toInt).natAbs < 2 ^ 63 := by
  constructor
  · exact fun h timestamp hreads => no_overflow_iff.mp (h.exact timestamp hreads)
  · intro h
    refine ⟨fun secret body url haccepted => ?_, fun timestamp hreads => no_overflow_iff.mpr (h timestamp hreads)⟩
    obtain ⟨timestamp, hreads, hfresh⟩ := verify_reads_fresh haccepted
    have hexact := no_overflow_iff.mpr (h timestamp hreads)
    obtain ⟨parsed, hparsed, rfl⟩ := Version.reads_parsed hreads
    exact ⟨parsed.timestamp, parsed_timestamp_stands hparsed, (hexact.is_fresh_iff tolerance).mp hfresh⟩

/-- A delivery that is 2^63 seconds old. -/
def ancient : Message := ⟨-9223372035154775808, "https://hooks.example".toList, "{}".toList⟩

/-- Both receivers take it: the distance wraps to the least number, which is its own
absolute value. -/
theorem ancient_is_accepted :
    ∃ header, build_signature_header [1] ancient.timestamp ancient.url ancient.body ["v1", "v2"] = some header ∧
      ∀ version : Version, version.reads header = some ancient.timestamp ∧
        Accepted version [1] ancient header 1700000000 300 ∧ ¬ Windowed version header 1700000000 300 := by
  obtain ⟨header, hbuild⟩ : ∃ header,
      build_signature_header [1] ancient.timestamp ancient.url ancient.body ["v1", "v2"] = some header := ⟨_, rfl⟩
  refine ⟨header, hbuild, fun version => ?_⟩
  have hlisted : version.name ∈ ["v1", "v2"] := by
    cases version with
    | v1 => decide
    | v2 => decide
  have haccepted : Accepted version [1] ancient header 1700000000 300 := build_accepted hbuild hlisted (by decide)
  obtain ⟨timestamp, hreads, -⟩ := verify_reads_fresh haccepted
  have hread : timestamp = ancient.timestamp := by
    obtain ⟨other, hother, rfl⟩ := Version.reads_parsed hreads
    obtain ⟨parsed, hparsed, htimestamp, -⟩ := parse_build hbuild
    rw [← htimestamp, Option.some.inj (hparsed.symm.trans hother)]
  subst hread
  refine ⟨hreads, haccepted, fun hwindowed => ?_⟩
  exact absurd (no_overflow_iff.mp (hwindowed.exact _ hreads)) (by decide)

end iac_controlplane.webhook
