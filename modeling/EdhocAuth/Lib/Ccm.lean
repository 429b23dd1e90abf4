/-
AES-128 and the CCM mode with a tag of eight octets.

A message is masked with a key stream and followed by a CBC-MAC of it, which is masked as well.
`decrypt_eq_some_iff`: over any block cipher, a ciphertext opens to the data that it is the
encryption of, and to nothing else.
-/

import EdhocAuth.Lib.Block
import EdhocAuth.Lib.Hash
import EdhocAuth.Lib.Octets

/-! ### AES -/

namespace Aes

/-- Multiplication by `x` in GF(2^8). -/
def xtime (b : UInt8) : UInt8 := (b <<< 1) ^^^ (if b &&& 0x80 = 0 then 0x00 else 0x1b)

/-- Multiplication: one bit of `b` after the other, the highest first. -/
def mul (a b : UInt8) : UInt8 :=
  [7, 6, 5, 4, 3, 2, 1, 0].foldl
    (fun product i => xtime product ^^^ (if b >>> i &&& 1 = 0 then 0x00 else a)) 0

/-- The inverse, as the power of 254; that of zero is zero. -/
def inv (a : UInt8) : UInt8 :=
  (List.range 6).foldl (fun power _ => mul (mul power power) a) a |> fun power => mul power power

def rotl (b n : UInt8) : UInt8 := (b <<< n) ||| (b >>> (8 - n))

/-- The S-box: the inverse and an affine map. -/
def subByte (b : UInt8) : UInt8 :=
  inv b ^^^ rotl (inv b) 1 ^^^ rotl (inv b) 2 ^^^ rotl (inv b) 3 ^^^ rotl (inv b) 4 ^^^ 0x63

/-- The states and keys are columns of four octets, one after the other. -/
def shiftRows (s : List UInt8) : List UInt8 :=
  [0, 5, 10, 15, 4, 9, 14, 3, 8, 13, 2, 7, 12, 1, 6, 11].map fun i => s.getD i 0

def mixColumn (c : List UInt8) : List UInt8 :=
  (List.range 4).map fun i =>
    xtime (c.getD i 0) ^^^ (xtime (c.getD ((i + 1) % 4) 0) ^^^ c.getD ((i + 1) % 4) 0) ^^^
      c.getD ((i + 2) % 4) 0 ^^^ c.getD ((i + 3) % 4) 0

def mixColumns (s : List UInt8) : List UInt8 :=
  [0, 4, 8, 12].flatMap fun i => mixColumn (Octets.field s i 4)

def xor (a b : List UInt8) : List UInt8 := List.zipWith (· ^^^ ·) a b

/-- The next round key, with a round constant. -/
def nextKey (key : List UInt8) (rcon : UInt8) : List UInt8 :=
  let rotated := (Octets.field key 13 3 ++ Octets.field key 12 1).map subByte
  let w0 := xor (xor (Octets.field key 0 4) rotated) [rcon, 0, 0, 0]
  let w1 := xor (Octets.field key 4 4) w0
  let w2 := xor (Octets.field key 8 4) w1
  let w3 := xor (Octets.field key 12 4) w2
  w0 ++ w1 ++ w2 ++ w3

/-- A round: the round key and the state behind it. -/
def round (ks : List UInt8 × List UInt8) (rcon : UInt8) : List UInt8 × List UInt8 :=
  let key := nextKey ks.1 rcon
  (key, xor (mixColumns (shiftRows (ks.2.map subByte))) key)

/-- AES-128: nine rounds and a last one without `mixColumns`. -/
def encrypt (key block : List UInt8) : Block UInt8 16 :=
  let ks := [0x01, 0x02, 0x04, 0x08, 0x10, 0x20, 0x40, 0x80, 0x1b].foldl round (key, xor block key)
  Block.read 0 16 (xor (shiftRows (ks.2.map subByte)) (nextKey ks.1 0x36))

end Aes

/-! ### CCM -/

namespace Ccm

variable (cipher : List UInt8 → Block UInt8 16)

/-- Zeros up to a multiple of 16 octets. -/
def pad (octets : List UInt8) : List UInt8 :=
  octets ++ List.replicate ((16 - octets.length % 16) % 16) 0

/-- The associated data behind its length. -/
def encodeAad (aad : List UInt8) : List UInt8 :=
  if aad = [] then []
  else if aad.length < 0xFF00 then Octets.ofNat 2 aad.length ++ aad
  else if aad.length < 2 ^ 32 then [0xFF, 0xFE] ++ Octets.ofNat 4 aad.length ++ aad
  else [0xFF, 0xFF] ++ Octets.ofNat 8 aad.length ++ aad

/-- The first block: flags, nonce and the length of the data. -/
def firstBlock (nonce data aad : List UInt8) : List UInt8 :=
  [UInt8.ofNat ((if aad = [] then 0 else 64) + 8 * 3 + (14 - nonce.length))] ++ nonce ++
    Octets.ofNat (15 - nonce.length) data.length

def cbcMac (blocks : List UInt8) : List UInt8 :=
  (Hash.absorb 16 (fun x block => (cipher (Aes.xor x block)).toList) (List.replicate 16 0) blocks).1

def counterBlock (nonce : List UInt8) (i : Nat) : List UInt8 :=
  [UInt8.ofNat (14 - nonce.length)] ++ nonce ++ Octets.ofNat (15 - nonce.length) i

/-- The blocks that mask `len` octets of data. -/
def keyStream (nonce : List UInt8) (len : Nat) : List UInt8 :=
  (List.range ((len + 15) / 16)).flatMap fun i => (cipher (counterBlock nonce (i + 1))).toList

def mask (nonce data : List UInt8) : List UInt8 :=
  Aes.xor data (keyStream cipher nonce data.length)

def tag (nonce data aad : List UInt8) : List UInt8 :=
  (Aes.xor (cipher (counterBlock nonce 0)).toList
    (cbcMac cipher (firstBlock nonce data aad ++ pad (encodeAad aad) ++ pad data))).take 8

/-- The sizes that can be encoded. -/
def Fits (nonce : List UInt8) (len : Nat) : Prop :=
  7 ≤ nonce.length ∧ nonce.length ≤ 13 ∧ len < 256 ^ (15 - nonce.length)

instance (nonce : List UInt8) (len : Nat) : Decidable (Fits nonce len) :=
  inferInstanceAs (Decidable (_ ∧ _))

def encrypt (nonce data aad : List UInt8) : Option (List UInt8) :=
  if Fits nonce data.length then some (mask cipher nonce data ++ tag cipher nonce data aad)
  else none

def decrypt (nonce ct aad : List UInt8) : Option (List UInt8) :=
  let data := mask cipher nonce (ct.take (ct.length - 8))
  if 8 ≤ ct.length ∧ Fits nonce data.length ∧
      tag cipher nonce data aad = ct.drop (ct.length - 8) then some data
  else none

variable {cipher} {nonce data aad ct : List UInt8}

/-- The key stream is long enough for the data. -/
theorem length_keyStream (len : Nat) : len ≤ (keyStream cipher nonce len).length := by
  have blocks : (keyStream cipher nonce len).length = (len + 15) / 16 * 16 := by
    simp only [keyStream, List.length_flatMap, List.Vector.toList_length, List.map_const',
      List.length_range, List.sum_replicate_nat]
  omega

@[simp] theorem length_mask (data : List UInt8) :
    (mask cipher nonce data).length = data.length := by
  rw [mask, Aes.xor, List.length_zipWith]
  exact Nat.min_eq_left (length_keyStream _)

/-- The mask is its own inverse. -/
theorem mask_mask (data : List UInt8) : mask cipher nonce (mask cipher nonce data) = data := by
  rw [mask, length_mask]
  exact Octets.zipWith_xor_xor (length_keyStream _)

/-- The chaining value of the tag is a block. -/
theorem length_absorbBlocks (k : Nat) {x blocks : List UInt8} (size : x.length = 16) :
    (Hash.absorbBlocks 16 (fun x block => (cipher (Aes.xor x block)).toList) k x
      blocks).1.length = 16 := by
  induction k generalizing x blocks with
  | zero => exact size
  | succ k ih => exact ih (List.Vector.toList_length _)

theorem length_tag : (tag cipher nonce data aad).length = 8 := by
  have mac (blocks : List UInt8) : (cbcMac cipher blocks).length = 16 :=
    length_absorbBlocks _ List.length_replicate
  rw [tag, Aes.xor, List.length_take, List.length_zipWith, mac, List.Vector.toList_length]
  rfl

/-- A ciphertext opens to the data that it is the encryption of. -/
theorem decrypt_eq_some_iff :
    decrypt cipher nonce ct aad = some data ↔ encrypt cipher nonce data aad = some ct := by
  constructor
  · intro opened
    rw [decrypt] at opened
    split at opened
    · next checks =>
      obtain ⟨-, fits, tags⟩ := checks
      obtain rfl := Option.some.inj opened
      rw [encrypt, if_pos fits, tags, mask_mask, List.take_append_drop]
    · cases opened
  · intro sealed
    rw [encrypt] at sealed
    split at sealed
    · next fits =>
      obtain rfl := Option.some.inj sealed
      have size : (mask cipher nonce data ++ tag cipher nonce data aad).length - 8 =
          (mask cipher nonce data).length := by
        rw [List.length_append, length_tag, Nat.add_sub_cancel]
      have long : 8 ≤ (mask cipher nonce data ++ tag cipher nonce data aad).length := by
        rw [List.length_append, length_tag]
        exact Nat.le_add_left _ _
      rw [decrypt, size, List.take_left, List.drop_left, mask_mask]
      exact if_pos ⟨long, fits, rfl⟩
    · cases sealed

/-- What has no room for a tag is not decrypted. -/
theorem decrypt_short (short : ct.length < 8) : decrypt cipher nonce ct aad = none :=
  if_neg fun all => absurd all.1 (not_le.mpr short)

end Ccm
