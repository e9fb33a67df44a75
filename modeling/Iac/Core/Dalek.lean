import Mathlib.Data.List.Basic

namespace base64

def alphabet : List Char :=
  ['A', 'B', 'C', 'D', 'E', 'F', 'G', 'H', 'I', 'J', 'K', 'L', 'M', 'N', 'O', 'P',
   'Q', 'R', 'S', 'T', 'U', 'V', 'W', 'X', 'Y', 'Z', 'a', 'b', 'c', 'd', 'e', 'f',
   'g', 'h', 'i', 'j', 'k', 'l', 'm', 'n', 'o', 'p', 'q', 'r', 's', 't', 'u', 'v',
   'w', 'x', 'y', 'z', '0', '1', '2', '3', '4', '5', '6', '7', '8', '9', '+', '/']

def digit (n : Nat) : Char := alphabet.getD (n % 64) '='

def encode_bytes : List UInt8 → List Char
  | [] => []
  | [a] =>
    let n := a.toNat * 16
    [digit (n / 64), digit n, '=', '=']
  | [a, b] =>
    let n := (a.toNat * 256 + b.toNat) * 4
    [digit (n / 4096), digit (n / 64), digit n, '=']
  | a :: b :: c :: rest =>
    let n := (a.toNat * 256 + b.toNat) * 256 + c.toNat
    [digit (n / 262144), digit (n / 4096), digit (n / 64), digit n] ++ encode_bytes rest

/-- The standard alphabet, with padding. -/
def encode (bytes : List UInt8) : String := String.ofList (encode_bytes bytes)

/-- Padding ends the text, and the bits that it leaves over are zero. -/
def decode_chars : List Char → Option (List UInt8)
  | [] => some []
  | [a, b, '=', '='] => do
    let n := (← alphabet.idxOf? a) * 64 + (← alphabet.idxOf? b)
    if n % 16 = 0 then some [UInt8.ofNat (n / 16)] else none
  | [a, b, c, '='] => do
    let n := ((← alphabet.idxOf? a) * 64 + (← alphabet.idxOf? b)) * 64 + (← alphabet.idxOf? c)
    if n % 4 = 0 then some [UInt8.ofNat (n / 1024), UInt8.ofNat (n / 4 % 256)] else none
  | a :: b :: c :: d :: rest => do
    let n := (((← alphabet.idxOf? a) * 64 + (← alphabet.idxOf? b)) * 64 + (← alphabet.idxOf? c)) * 64 + (← alphabet.idxOf? d)
    let bytes ← decode_chars rest
    return [UInt8.ofNat (n / 65536), UInt8.ofNat (n / 256 % 256), UInt8.ofNat (n % 256)] ++ bytes
  | _ => none

def decode (text : String) : Option (List UInt8) := decode_chars text.toList

theorem idxOf?_digit (n : Nat) : alphabet.idxOf? (digit n) = some (n % 64) := by
  have hall : ∀ k < 64, alphabet.idxOf? (alphabet.getD k '=') = some k := by decide
  exact hall (n % 64) (Nat.mod_lt n (by decide))

theorem digit_ne_pad (n : Nat) : digit n ≠ '=' := by
  have hall : ∀ k < 64, alphabet.getD k '=' ≠ '=' := by decide
  exact hall (n % 64) (Nat.mod_lt n (by decide))

theorem decode_chars_pad_two (a b : Char) : decode_chars [a, b, '=', '='] = (do
    let n := (← alphabet.idxOf? a) * 64 + (← alphabet.idxOf? b)
    if n % 16 = 0 then some [UInt8.ofNat (n / 16)] else none) := by
  rw [decode_chars]

theorem decode_chars_pad_one {a b c : Char} (hc : c ≠ '=') : decode_chars [a, b, c, '='] = (do
    let n := ((← alphabet.idxOf? a) * 64 + (← alphabet.idxOf? b)) * 64 + (← alphabet.idxOf? c)
    if n % 4 = 0 then some [UInt8.ofNat (n / 1024), UInt8.ofNat (n / 4 % 256)] else none) := by
  rw [decode_chars]
  exact hc

theorem decode_chars_quantum {a b c d : Char} {rest : List Char} (hd : d ≠ '=') :
    decode_chars (a :: b :: c :: d :: rest) = (do
      let n := (((← alphabet.idxOf? a) * 64 + (← alphabet.idxOf? b)) * 64 + (← alphabet.idxOf? c)) * 64 +
        (← alphabet.idxOf? d)
      let bytes ← decode_chars rest
      return [UInt8.ofNat (n / 65536), UInt8.ofNat (n / 256 % 256), UInt8.ofNat (n % 256)] ++ bytes) := by
  rw [decode_chars]
  all_goals
    intros
    simp_all

private theorem ofNat_of_eq {n : Nat} {a : UInt8} (h : n = a.toNat) : UInt8.ofNat n = a := by
  rw [h, UInt8.ofNat_toNat]

theorem decode_encode_bytes (bytes : List UInt8) : decode_chars (encode_bytes bytes) = some bytes := by
  induction bytes using encode_bytes.induct with
  | case1 => rfl
  | case2 a =>
    have ha := a.toNat_lt
    have hn : a.toNat * 16 / 64 % 64 * 64 + a.toNat * 16 % 64 = a.toNat * 16 := by omega
    simp only [encode_bytes, decode_chars_pad_two, idxOf?_digit, Option.bind_eq_bind, Option.bind_some, hn]
    rw [if_pos (by omega), ofNat_of_eq (a := a) (by omega)]
  | case3 a b =>
    have ha := a.toNat_lt
    have hb := b.toNat_lt
    have hn : (((a.toNat * 256 + b.toNat) * 4 / 4096 % 64) * 64 + (a.toNat * 256 + b.toNat) * 4 / 64 % 64) * 64 +
        (a.toNat * 256 + b.toNat) * 4 % 64 = (a.toNat * 256 + b.toNat) * 4 := by omega
    simp only [encode_bytes, decode_chars_pad_one (digit_ne_pad _), idxOf?_digit, Option.bind_eq_bind, Option.bind_some, hn]
    rw [if_pos (by omega), ofNat_of_eq (a := a) (by omega), ofNat_of_eq (a := b) (by omega)]
  | case4 a b c rest ih =>
    have ha := a.toNat_lt
    have hb := b.toNat_lt
    have hc := c.toNat_lt
    have hn : ((((a.toNat * 256 + b.toNat) * 256 + c.toNat) / 262144 % 64 * 64 +
        ((a.toNat * 256 + b.toNat) * 256 + c.toNat) / 4096 % 64) * 64 +
        ((a.toNat * 256 + b.toNat) * 256 + c.toNat) / 64 % 64) * 64 +
        ((a.toNat * 256 + b.toNat) * 256 + c.toNat) % 64 = (a.toNat * 256 + b.toNat) * 256 + c.toNat := by omega
    simp only [encode_bytes, List.cons_append, List.nil_append, decode_chars_quantum (digit_ne_pad _), idxOf?_digit,
      Option.bind_eq_bind, Option.bind_some, hn, ih, Option.pure_def]
    rw [ofNat_of_eq (a := a) (by omega), ofNat_of_eq (a := b) (by omega), ofNat_of_eq (a := c) (by omega)]

/-- What is decoded is what was encoded. -/
theorem decode_encode (bytes : List UInt8) : decode (encode bytes) = some bytes := by
  rw [decode, encode, String.toList_ofList]
  exact decode_encode_bytes bytes

end base64

/-- The functions of third-party crates that sign and verify: those of
ed25519_dalek, on secrets, public keys and signatures as bytes and on messages
as text, and the two directions of base64. -/
structure Dalek where
  sign : List UInt8 → String → List UInt8
  verifying_key : List UInt8 → List UInt8
  verify : List UInt8 → String → List UInt8 → Bool
  encode : List UInt8 → String
  decode : String → Option (List UInt8)

/-- What the crates say of the signature of a message: its length, that it
verifies, and that base64 gives it back. -/
structure Dalek.Signs (dalek : Dalek) (secret : List UInt8) (message : String) : Prop where
  length : (dalek.sign secret message).length = 64
  verifies : dalek.verify (dalek.verifying_key secret) message (dalek.sign secret message) = true
  decodes : dalek.decode (dalek.encode (dalek.sign secret message)) = some (dalek.sign secret message)

/-- A signature, with the keys and the bytes in base64. -/
structure Signed where
  secret : String
  public_key : String
  message : String
  signature : String

/-- What the crates do on the given signatures and their keys. -/
def Dalek.on (signed : List Signed) : Dalek where
  sign secret message :=
    ((signed.find? fun s => base64.decode s.secret == some secret && s.message == message).bind fun s =>
      base64.decode s.signature).getD []
  verifying_key secret :=
    ((signed.find? fun s => base64.decode s.secret == some secret).bind fun s => base64.decode s.public_key).getD []
  verify public_key message signature := signed.any fun s =>
    base64.decode s.public_key == some public_key && s.message == message && base64.decode s.signature == some signature
  encode := base64.encode
  decode := base64.decode

/-- The bytes that the texts of `s` are the base64 of. -/
structure Signed.Bytes (s : Signed) where
  secret : List UInt8
  public_key : List UInt8
  signature : List UInt8
  secret_eq : base64.encode secret = s.secret
  public_key_eq : base64.encode public_key = s.public_key
  signature_eq : base64.encode signature = s.signature
  length : signature.length = 64

/-- The keys that the samples sign with. -/
def sample_secret : List UInt8 :=
  [157, 97, 177, 157, 239, 253, 90, 96, 186, 132, 74, 244, 146, 236, 44, 196, 68, 73, 197, 105, 123, 50,
   105, 25, 112, 59, 172, 3, 28, 174, 127, 96]

def sample_public_key : List UInt8 :=
  [215, 90, 152, 1, 130, 177, 10, 183, 213, 75, 254, 211, 201, 100, 7, 58, 14, 225, 114, 243, 218, 166,
   35, 37, 175, 2, 26, 104, 247, 7, 81, 26]

theorem encode_sample_secret : base64.encode sample_secret = "nWGxne/9WmC6hEr0kuwsxERJxWl7MmkZcDusAxyuf2A=" := by rfl

theorem encode_sample_public_key :
    base64.encode sample_public_key = "11qYAYKxCrfVS/7TyWQHOg7hcvPapiMlrwIaaPcHURo=" := by rfl

section Given

variable {signed : List Signed} {s : Signed}

theorem Signed.Bytes.decode_secret (b : s.Bytes) : base64.decode s.secret = some b.secret := by
  rw [← b.secret_eq, base64.decode_encode]

theorem Signed.Bytes.getD_decode_secret (b : s.Bytes) : (base64.decode s.secret).getD [] = b.secret := by
  rw [b.decode_secret, Option.getD_some]

theorem Signed.Bytes.decode_public_key (b : s.Bytes) : base64.decode s.public_key = some b.public_key := by
  rw [← b.public_key_eq, base64.decode_encode]

theorem Signed.Bytes.decode_signature (b : s.Bytes) : base64.decode s.signature = some b.signature := by
  rw [← b.signature_eq, base64.decode_encode]

/-- The signature of a message that has been given. -/
theorem Dalek.sign_on {secret : List UInt8} {message : String}
    (h : signed.find? (fun s => base64.decode s.secret == some secret && s.message == message) = some s) :
    (Dalek.on signed).sign secret message = (base64.decode s.signature).getD [] := by
  simp [Dalek.on, h]

theorem Dalek.sign_single (b : s.Bytes) : (Dalek.on [s]).sign b.secret s.message = b.signature := by
  have hfind := b.decode_secret
  rw [Dalek.sign_on (List.find?_cons_of_pos (by simp [hfind])), b.decode_signature]
  rfl

theorem Dalek.signs_single (b : s.Bytes) : (Dalek.on [s]).Signs b.secret s.message := by
  have hkey : (Dalek.on [s]).verifying_key b.secret = b.public_key := by
    simp [Dalek.on, b.decode_secret, b.decode_public_key]
  refine ⟨?_, ?_, ?_⟩
  · rw [Dalek.sign_single b, b.length]
  · rw [Dalek.sign_single b, hkey]
    simp [Dalek.on, b.decode_public_key, b.decode_signature]
  · rw [Dalek.sign_single b]
    exact base64.decode_encode b.signature

end Given
