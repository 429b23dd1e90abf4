/-
SHA-256 and HMAC-SHA256.

The padded message is absorbed block by block. The message schedule is a window of the
last sixteen words: each round uses its first word and appends the next one.
-/

import EdhocAuth.Lib.Block
import EdhocAuth.Lib.Hash
import EdhocAuth.Lib.Octets

namespace Sha256

/-- The chaining value, and the working variables of a round. -/
structure State where
  a : UInt32
  b : UInt32
  c : UInt32
  d : UInt32
  e : UInt32
  f : UInt32
  g : UInt32
  h : UInt32
deriving DecidableEq

def rotr (x n : UInt32) : UInt32 := (x >>> n) ||| (x <<< (32 - n))

def ch (x y z : UInt32) : UInt32 := (x &&& y) ^^^ (~~~x &&& z)

def maj (x y z : UInt32) : UInt32 := (x &&& y) ^^^ (x &&& z) ^^^ (y &&& z)

def bigSigma0 (x : UInt32) : UInt32 := rotr x 2 ^^^ rotr x 13 ^^^ rotr x 22

def bigSigma1 (x : UInt32) : UInt32 := rotr x 6 ^^^ rotr x 11 ^^^ rotr x 25

def smallSigma0 (x : UInt32) : UInt32 := rotr x 7 ^^^ rotr x 18 ^^^ (x >>> 3)

def smallSigma1 (x : UInt32) : UInt32 := rotr x 17 ^^^ rotr x 19 ^^^ (x >>> 10)

def roundConstants : List UInt32 :=
  [0x428a2f98, 0x71374491, 0xb5c0fbcf, 0xe9b5dba5, 0x3956c25b, 0x59f111f1, 0x923f82a4, 0xab1c5ed5,
    0xd807aa98, 0x12835b01, 0x243185be, 0x550c7dc3, 0x72be5d74, 0x80deb1fe, 0x9bdc06a7, 0xc19bf174,
    0xe49b69c1, 0xefbe4786, 0x0fc19dc6, 0x240ca1cc, 0x2de92c6f, 0x4a7484aa, 0x5cb0a9dc, 0x76f988da,
    0x983e5152, 0xa831c66d, 0xb00327c8, 0xbf597fc7, 0xc6e00bf3, 0xd5a79147, 0x06ca6351, 0x14292967,
    0x27b70a85, 0x2e1b2138, 0x4d2c6dfc, 0x53380d13, 0x650a7354, 0x766a0abb, 0x81c2c92e, 0x92722c85,
    0xa2bfe8a1, 0xa81a664b, 0xc24b8b70, 0xc76c51a3, 0xd192e819, 0xd6990624, 0xf40e3585, 0x106aa070,
    0x19a4c116, 0x1e376c08, 0x2748774c, 0x34b0bcb5, 0x391c0cb3, 0x4ed8aa4a, 0x5b9cca4f, 0x682e6ff3,
    0x748f82ee, 0x78a5636f, 0x84c87814, 0x8cc70208, 0x90befffa, 0xa4506ceb, 0xbef9a3f7, 0xc67178f2]

def initial : State :=
  ⟨0x6a09e667, 0xbb67ae85, 0x3c6ef372, 0xa54ff53a, 0x510e527f, 0x9b05688c, 0x1f83d9ab, 0x5be0cd19⟩

/-- One round: working variables and window. -/
def round (s : State × List UInt32) (k : UInt32) : State × List UInt32 :=
  let v := s.1
  let w := s.2.getD 0 0
  let t1 := v.h + bigSigma1 v.e + ch v.e v.f v.g + k + w
  let t2 := bigSigma0 v.a + maj v.a v.b v.c
  let next := smallSigma1 (s.2.getD 14 0) + s.2.getD 9 0 + smallSigma0 (s.2.getD 1 0) + w
  (⟨t1 + t2, v.a, v.b, v.c, v.d + t1, v.e, v.f, v.g⟩, s.2.tail ++ [next])

def words (block : List UInt8) : List UInt32 :=
  (List.range 16).map fun i => UInt32.ofNat (Octets.toNat (Octets.field block (i * 4) 4))

def compress (s : State) (block : List UInt8) : State :=
  let v := (roundConstants.foldl round (s, words block)).1
  ⟨s.a + v.a, s.b + v.b, s.c + v.c, s.d + v.d, s.e + v.e, s.f + v.f, s.g + v.g, s.h + v.h⟩

/-- One bit, zeros, and the length in bits. -/
def pad (message : List UInt8) : List UInt8 :=
  message ++ [0x80] ++ List.replicate ((119 - message.length % 64) % 64) 0 ++
    Octets.ofNat 8 (message.length * 8)

def State.octets (s : State) : List UInt8 :=
  [s.a, s.b, s.c, s.d, s.e, s.f, s.g, s.h].flatMap fun x => Octets.ofNat 4 x.toNat

def hash (message : List UInt8) : List UInt8 :=
  (Hash.absorb 64 compress initial (pad message)).1.octets

theorem length_hash (message : List UInt8) : (hash message).length = 32 := by
  simp [hash, State.octets]

def hmac (key message : List UInt8) : Block UInt8 32 :=
  ⟨Hash.hmac 64 hash key message, length_hash _⟩

end Sha256
