import Mathlib.Data.List.Basic
import Mathlib.Algebra.Group.Nat.Defs

namespace sha2

/-- The first 32 bits of the fractional parts of the cube roots of the first 64 primes. -/
def round_constants : List Nat :=
  [0x428a2f98, 0x71374491, 0xb5c0fbcf, 0xe9b5dba5, 0x3956c25b, 0x59f111f1, 0x923f82a4, 0xab1c5ed5,
   0xd807aa98, 0x12835b01, 0x243185be, 0x550c7dc3, 0x72be5d74, 0x80deb1fe, 0x9bdc06a7, 0xc19bf174,
   0xe49b69c1, 0xefbe4786, 0x0fc19dc6, 0x240ca1cc, 0x2de92c6f, 0x4a7484aa, 0x5cb0a9dc, 0x76f988da,
   0x983e5152, 0xa831c66d, 0xb00327c8, 0xbf597fc7, 0xc6e00bf3, 0xd5a79147, 0x06ca6351, 0x14292967,
   0x27b70a85, 0x2e1b2138, 0x4d2c6dfc, 0x53380d13, 0x650a7354, 0x766a0abb, 0x81c2c92e, 0x92722c85,
   0xa2bfe8a1, 0xa81a664b, 0xc24b8b70, 0xc76c51a3, 0xd192e819, 0xd6990624, 0xf40e3585, 0x106aa070,
   0x19a4c116, 0x1e376c08, 0x2748774c, 0x34b0bcb5, 0x391c0cb3, 0x4ed8aa4a, 0x5b9cca4f, 0x682e6ff3,
   0x748f82ee, 0x78a5636f, 0x84c87814, 0x8cc70208, 0x90befffa, 0xa4506ceb, 0xbef9a3f7, 0xc67178f2]

/-- The eight words that a message is hashed into. -/
structure State where
  a : Nat
  b : Nat
  c : Nat
  d : Nat
  e : Nat
  f : Nat
  g : Nat
  h : Nat

def initial : State :=
  ⟨0x6a09e667, 0xbb67ae85, 0x3c6ef372, 0xa54ff53a, 0x510e527f, 0x9b05688c, 0x1f83d9ab, 0x5be0cd19⟩

/-- Rotation of a word to the right. -/
def rotr (x n : Nat) : Nat := (x >>> n) ||| ((x <<< (32 - n)) % 2 ^ 32)
def schedule_sigma0 (x : Nat) : Nat := rotr x 7 ^^^ rotr x 18 ^^^ (x >>> 3)
def schedule_sigma1 (x : Nat) : Nat := rotr x 17 ^^^ rotr x 19 ^^^ (x >>> 10)
def round_sigma0 (x : Nat) : Nat := rotr x 2 ^^^ rotr x 13 ^^^ rotr x 22
def round_sigma1 (x : Nat) : Nat := rotr x 6 ^^^ rotr x 11 ^^^ rotr x 25
def choose (x y z : Nat) : Nat := (x &&& y) ^^^ ((2 ^ 32 - 1 - x) &&& z)
def majority (x y z : Nat) : Nat := (x &&& y) ^^^ (x &&& z) ^^^ (y &&& z)

def round (s : State) (kw : Nat × Nat) : State :=
  let t1 := s.h + round_sigma1 s.e + choose s.e s.f s.g + kw.1 + kw.2
  let t2 := round_sigma0 s.a + majority s.a s.b s.c
  ⟨(t1 + t2) % 2 ^ 32, s.a, s.b, s.c, (s.d + t1) % 2 ^ 32, s.e, s.f, s.g⟩

/-- The message schedule, the latest word first. -/
def schedule : Nat → List Nat → List Nat
  | 0, words => words
  | n + 1, words => schedule n (((schedule_sigma1 (words.getD 1 0) + words.getD 6 0 +
      schedule_sigma0 (words.getD 14 0) + words.getD 15 0) % 2 ^ 32) :: words)

def compress (s : State) (block : List Nat) : State :=
  let r := (round_constants.zip (schedule 48 block.reverse).reverse).foldl round s
  ⟨(s.a + r.a) % 2 ^ 32, (s.b + r.b) % 2 ^ 32, (s.c + r.c) % 2 ^ 32, (s.d + r.d) % 2 ^ 32,
    (s.e + r.e) % 2 ^ 32, (s.f + r.f) % 2 ^ 32, (s.g + r.g) % 2 ^ 32, (s.h + r.h) % 2 ^ 32⟩

def big_endian (width n : Nat) : List UInt8 :=
  (List.range width).map fun i => UInt8.ofNat (n / 256 ^ (width - 1 - i) % 256)

/-- The words of four bytes, the first byte the highest. -/
def words : List UInt8 → List Nat
  | a :: b :: c :: d :: rest => (((a.toNat * 256 + b.toNat) * 256 + c.toNat) * 256 + d.toNat) :: words rest
  | _ => []

/-- What makes the blocks of a message full: a bit, zeros and the size in bits. -/
def padding (size : Nat) : List UInt8 :=
  128 :: List.replicate ((119 - size % 64) % 64) 0 ++ big_endian 8 (8 * size)

/-- Hashes so many blocks of sixteen words. -/
def compress_all : Nat → State → List Nat → State
  | 0, s, _ => s
  | n + 1, s, ws => compress_all n (compress s (ws.take 16)) (ws.drop 16)

def digest (message : List UInt8) : List UInt8 :=
  let ws := words (message ++ padding message.length)
  let s := compress_all (ws.length / 16) initial ws
  [s.a, s.b, s.c, s.d, s.e, s.f, s.g, s.h].flatMap (big_endian 4)

def hex_digit (n : Nat) : Char := if n < 10 then Char.ofNat (48 + n) else Char.ofNat (87 + n)

def hex_digest (message : List UInt8) : String :=
  String.ofList ((digest message).flatMap fun b => [hex_digit (b.toNat / 16), hex_digit (b.toNat % 16)])

theorem length_digest (message : List UInt8) : (digest message).length = 32 := by
  have hword (n : Nat) : (big_endian 4 n).length = 4 := by simp [big_endian]
  simp [digest, hword]

theorem length_hex_digest (message : List UInt8) : (hex_digest message).length = 64 := by
  simp [hex_digest, List.length_flatMap, length_digest]

example : hex_digest "abc".toUTF8.data.toList = "ba7816bf8f01cfea414140de5dae2223b00361a396177a9cb410ff61f20015ad" := by
  decide

end sha2
