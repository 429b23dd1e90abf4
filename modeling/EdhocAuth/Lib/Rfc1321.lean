/-
MD5 and HMAC as RFC 1321 and RFC 2104 describe them.

The definitions follow the steps of section 3 of RFC 1321: the padding counts bits, the table
comes from the sine function, and an operation of a round names the register it writes.
Nothing here is meant to be run.
-/

import Mathlib.Algebra.Order.Floor.Semiring
import Mathlib.Analysis.Complex.Trigonometric
import Mathlib.Data.Fin.VecNotation

namespace Rfc1321

abbrev Word : Type := UInt32

/-! ### Octets, bits and words -/

/-- The bits of octets, the highest of each octet first. -/
def bits (octets : List UInt8) : List Bool :=
  octets.flatMap fun b => (List.range 8).map fun i => b.toNat.testBit (7 - i)

def ofBits : List Bool → List UInt8
  | b₇ :: b₆ :: b₅ :: b₄ :: b₃ :: b₂ :: b₁ :: b₀ :: rest =>
    UInt8.ofNat ([b₇, b₆, b₅, b₄, b₃, b₂, b₁, b₀].foldl
      (fun n b => 2 * n + b.toNat) 0) :: ofBits rest
  | _ => []

/-- The word that four octets spell, the lowest first. -/
def word (b₀ b₁ b₂ b₃ : UInt8) : Word :=
  UInt32.ofNat (b₀.toNat + 256 * b₁.toNat + 256 ^ 2 * b₂.toNat + 256 ^ 3 * b₃.toNat)

/-- The octets of a word, the lowest first. -/
def octets (w : Word) : List UInt8 :=
  (List.range 4).map fun i => UInt8.ofNat (w.toNat / 256 ^ i)

/-! ### Padding -/

/-- The least number of zero bits that makes the length congruent to 448, modulo 512. -/
noncomputable def zeroBits (length : Nat) : Nat := sInf { k | (length + 1 + k) % 512 = 448 }

/-- Step 1 and step 2. -/
noncomputable def padded (message : List UInt8) : List UInt8 :=
  ofBits (bits message ++ true :: List.replicate (zeroBits (bits message).length) false) ++
    octets (UInt32.ofNat (bits message).length) ++
      octets (UInt32.ofNat ((bits message).length / 2 ^ 32))

/-! ### Rounds -/

abbrev Registers : Type := Fin 4 → Word

/-- Step 3. -/
def initial : Registers :=
  ![word 0x01 0x23 0x45 0x67, word 0x89 0xab 0xcd 0xef, word 0xfe 0xdc 0xba 0x98,
    word 0x76 0x54 0x32 0x10]

/-- The auxiliary functions `F`, `G`, `H` and `I` of the four rounds. -/
def auxiliary (round : Fin 4) (x y z : Word) : Word :=
  match round with
  | 0 => (x &&& y) ||| (~~~x &&& z)
  | 1 => (x &&& z) ||| (y &&& ~~~z)
  | 2 => x ^^^ y ^^^ z
  | 3 => y ^^^ (x ||| ~~~z)

noncomputable def T (i : Nat) : Word := UInt32.ofNat ⌊2 ^ 32 * |Real.sin i|⌋₊

def rotate (x : Word) (s : Nat) : Word := ⟨x.toBitVec.rotateLeft s⟩

/-- The operation `[abcd k s i]` of a round, where `a` is the register that is written and `b`,
`c`, `d` are those that follow it: `a = b + ((a + F(b,c,d) + X[k] + T[i]) <<< s)`. -/
noncomputable def operation (round : Fin 4) (X : Nat → Word) (a : Fin 4) (k s i : Nat)
    (r : Registers) : Registers :=
  Function.update r a
    (r (a + 1) + rotate (r a + auxiliary round (r (a + 1)) (r (a + 2)) (r (a + 3)) + X k + T i) s)

/-- The word that the operation `j` of a round adds. -/
def wordIndex (round : Fin 4) (j : Nat) : Nat :=
  match round with
  | 0 => j
  | 1 => (1 + 5 * j) % 16
  | 2 => (5 + 3 * j) % 16
  | 3 => 7 * j % 16

/-- The rotation of the operation `j` of a round. -/
def shift (round : Fin 4) (j : Nat) : Nat :=
  match round with
  | 0 => [7, 12, 17, 22].getD (j % 4) 0
  | 1 => [5, 9, 14, 20].getD (j % 4) 0
  | 2 => [4, 11, 16, 23].getD (j % 4) 0
  | 3 => [6, 10, 15, 21].getD (j % 4) 0

/-- The operations `[ABCD …]`, `[DABC …]`, `[CDAB …]`, `[BCDA …]` and so on of a round. -/
noncomputable def rounds (round : Fin 4) (X : Nat → Word) (r : Registers) : Registers :=
  (List.range 16).foldl
    (fun r j => operation round X (-Fin.ofNat 4 j) (wordIndex round j) (shift round j)
      (16 * round + j + 1) r) r

/-- Step 4 for one block of 16 words. -/
noncomputable def compress (X : Nat → Word) (r : Registers) : Registers :=
  r + rounds 3 X (rounds 2 X (rounds 1 X (rounds 0 X r)))

def messageWord (m : List UInt8) (n : Nat) : Word :=
  word (m.getD (4 * n) 0) (m.getD (4 * n + 1) 0) (m.getD (4 * n + 2) 0) (m.getD (4 * n + 3) 0)

noncomputable def process (m : List UInt8) : Registers :=
  (List.range (m.length / 64)).foldl
    (fun r i => compress (fun j => messageWord m (16 * i + j)) r) initial

/-- Step 5: the registers, the lowest octet of `A` first. -/
def digest (r : Registers) : List UInt8 :=
  octets (r 0) ++ octets (r 1) ++ octets (r 2) ++ octets (r 3)

noncomputable def md5 (message : List UInt8) : List UInt8 := digest (process (padded message))

end Rfc1321

namespace Rfc2104

/-- The key as a block of `B` octets: hashed if it is longer, and filled up with zeros. -/
def blockKey (hash : List UInt8 → List UInt8) (B : Nat) (key : List UInt8) : List UInt8 :=
  let key := if B < key.length then hash key else key
  key ++ List.replicate (B - key.length) 0x00

/-- `H(K XOR opad, H(K XOR ipad, text))` -/
def hmac (hash : List UInt8 → List UInt8) (B : Nat) (key text : List UInt8) : List UInt8 :=
  let K := blockKey hash B key
  let ipad := List.replicate B 0x36
  let opad := List.replicate B 0x5c
  hash (List.zipWith (· ^^^ ·) K opad ++ hash (List.zipWith (· ^^^ ·) K ipad ++ text))

end Rfc2104
