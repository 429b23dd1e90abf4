/-
Transparent primitives: the sizes and the functional behaviour of the libraries,
with nothing hidden.

Keys are their seeds, padded; an encapsulated secret stands in its ciphertext; a
ciphertext is the plaintext with an empty tag. They are correct, so that runs of the
programs on octets can be exhibited. No security statement is about them.
-/

import EdhocAuth.Edhoc4.Core

namespace EdhocAuth.Transparent

def pad {n : Nat} (m : Nat) (b : Block UInt8 n) : Block UInt8 (n + m) := Block.cat b (zeros m)

def xor (a b : Block UInt8 32) : Block UInt8 32 :=
  ⟨List.zipWith (· ^^^ ·) a.toList b.toList, by simp⟩

theorem xor_comm (a b : Block UInt8 32) : xor a b = xor b a :=
  List.Vector.eq _ _ (List.zipWith_comm_of_comm UInt8.xor_comm)

def primitives : Primitives UInt8 where
  sha256 := readBlock 32
  hmac k m := readBlock 32 (k.toList ++ m)
  aeadEncrypt _ _ _ pt := some (pt ++ List.replicate 16 0)
  aeadDecrypt _ _ _ ct := if 16 ≤ ct.length then some (ct.take (ct.length - 16)) else none
  scalarmultBase a := a
  scalarmult a b := some (xor a b)
  mlkemKeypair d := some (pad 1120 d, pad 2336 d)
  mlkemEnc _ m := some (pad 1056 m, m)
  mlkemDec ct _ := some (Block.fst (n := 32) (m := 1056) ct)
  mldsaKeypair seed := some (pad 1280 seed, pad 2528 seed)
  mldsaSign _ _ _ := some (zeros _, 2420)
  mldsaVerify _ _ _ := true
  edKeypair seed := (seed, pad 32 seed)
  edSign _ _ := some (zeros _)
  edVerify _ _ _ := true

/-- The library on octets does what an honest run relies on. -/
theorem primitives_correct : primitives.Correct where
  aead _ _ _ pt := by
    refine ⟨pt ++ List.replicate 16 0, rfl, ?_, by simp⟩
    show (if _ then _ else _) = _
    rw [if_pos (by simp)]
    simp
  x25519 a b := ⟨xor a b, rfl, congrArg some (xor_comm b a)⟩
  mlkemKeypair _ := ⟨_, _, rfl⟩
  mlkem _ m := ⟨_, m, rfl, congrArg some (Block.fst_cat m (zeros 1056))⟩
  mldsa _ _ _ := ⟨_, rfl, rfl⟩
  ed25519 _ _ := ⟨_, rfl, rfl⟩

def creds (b : UInt8) : Edhoc4.Creds UInt8 where
  kemSk := Block.cat (pad 2336 (Block.fill 64 b)) (Block.fill 32 b)
  kemPk := Block.cat (pad 1120 (Block.fill 64 b)) (Block.fill 32 b)
  sigSk := pad 2528 (Block.fill 32 b)
  sigVk := pad 1280 (Block.fill 32 b)
  idCred := Block.fill _ b

end EdhocAuth.Transparent
