/-
The primitives the two EDHOC cores call in libsodium and PQClean, and the key
schedule both build on them (`sha256`, `hkdf_extract`, `hkdf_expand`, `derive_k`,
`aead_seal`, `aead_open` of `edhoc4.c`, repeated as `e3_*` in `edhoc03.c`).

The handlers only move octets around and compare them, so they are written over
any type of octets: `UInt8` is the running program, and the octets of a symbolic
term algebra give the Dolev–Yao reading of the very same handlers. Everything the
handlers get from a library is a field of `Primitives`; a function with an `int`
return code gives an `Option`, and the buffers of a call that failed are left as
they were, since no handler reads such a buffer before it writes it again.

* `Primitives.Correct`: what an honest run relies on.
* `Primitives.Ideal`: collision freeness and authenticated encryption, idealised.
* `Primitives.CollisionFree`: only that no two inputs collide.

`Correct` holds of the libraries themselves. The other two are for symbolic octets
only: over `UInt8` a hash of 32 octets has collisions, so that no instance satisfies
them. What is proved under them is a result on the symbolic reading (`Symbolic`
gives an instance), and says of the running program what such results say.
-/

import EdhocAuth.Lib.Block

namespace EdhocAuth

/-- A type of octets: the byte values are among them and can be recognised. -/
class Octet (B : Type) where
  ofByte : UInt8 → B
  toByte? : B → Option UInt8
  toByte?_eq_some {x : B} {b : UInt8} : toByte? x = some b ↔ x = ofByte b

instance : Octet UInt8 where
  ofByte b := b
  toByte? b := some b
  toByte?_eq_some := by simp

section Bytes

variable {B : Type} [Octet B]

theorem Octet.ofByte_inj {a b : UInt8} :
    (Octet.ofByte a : B) = Octet.ofByte b ↔ a = b := by
  constructor
  · intro h
    have ha := (Octet.toByte?_eq_some (x := (Octet.ofByte a : B))).mpr rfl
    rw [h, Octet.toByte?_eq_some.mpr rfl] at ha
    exact (Option.some.inj ha).symm
  · intro h
    rw [h]

/-- A buffer after `memset(_, 0, n)`. -/
def zeros (n : Nat) : Block B n := Block.fill n (Octet.ofByte 0)

/-- `memcpy(_, buf, n)`. -/
def readBlock (n : Nat) (buf : List B) : Block B n := Block.read (Octet.ofByte 0) n buf

def octet (b : UInt8) : Block B 1 := ⟨[Octet.ofByte b], rfl⟩

def ascii (s : String) : List B := s.toList.map fun c => Octet.ofByte (UInt8.ofNat c.toNat)

end Bytes

/-- The library calls of `edhoc4.c` and `edhoc03.c`. Calls that draw randomness
take it as an argument. -/
structure Primitives (B : Type) where
  /-- `crypto_hash_sha256` -/
  sha256 : List B → Block B 32
  /-- `crypto_auth_hmacsha256` under a 32-byte key -/
  hmac : Block B 32 → List B → Block B 32
  /-- `crypto_aead_chacha20poly1305_ietf_encrypt`: key, nonce, associated data, plaintext -/
  aeadEncrypt : Block B 32 → Block B 12 → List B → List B → Option (List B)
  /-- `crypto_aead_chacha20poly1305_ietf_decrypt`: key, nonce, associated data, ciphertext -/
  aeadDecrypt : Block B 32 → Block B 12 → List B → List B → Option (List B)
  /-- `crypto_scalarmult_base` -/
  scalarmultBase : Block B 32 → Block B 32
  /-- `crypto_scalarmult`, which fails on an all-zero result -/
  scalarmult : Block B 32 → Block B 32 → Option (Block B 32)
  /-- `PQCLEAN_MLKEM768_CLEAN_crypto_kem_keypair` from its 64 random bytes: `(pk, sk)` -/
  mlkemKeypair : Block B 64 → Option (Block B 1184 × Block B 2400)
  /-- `PQCLEAN_MLKEM768_CLEAN_crypto_kem_enc` from its 32 random bytes: `(ct, ss)` -/
  mlkemEnc : Block B 1184 → Block B 32 → Option (Block B 1088 × Block B 32)
  /-- `PQCLEAN_MLKEM768_CLEAN_crypto_kem_dec`: ciphertext, secret key -/
  mlkemDec : Block B 1088 → Block B 2400 → Option (Block B 32)
  /-- `PQCLEAN_MLDSA44_CLEAN_crypto_sign_keypair` from its 32-byte seed: `(vk, sk)` -/
  mldsaKeypair : Block B 32 → Option (Block B 1312 × Block B 2560)
  /-- `PQCLEAN_MLDSA44_CLEAN_crypto_sign_signature` of a message under a key with its 32
  random bytes: the signature buffer and the reported length -/
  mldsaSign : List B → Block B 2560 → Block B 32 → Option (Block B 2420 × Nat)
  /-- `PQCLEAN_MLDSA44_CLEAN_crypto_sign_verify`: signature, message, key -/
  mldsaVerify : Block B 2420 → List B → Block B 1312 → Bool
  /-- `crypto_sign_keypair` from its seed: `(vk, sk)` -/
  edKeypair : Block B 32 → Block B 32 × Block B 64
  /-- `crypto_sign_detached` of a message under a key -/
  edSign : List B → Block B 64 → Option (Block B 64)
  /-- `crypto_sign_verify_detached`: signature, message, key -/
  edVerify : Block B 64 → List B → Block B 32 → Bool

namespace Primitives

variable {B : Type}

/-- What an honest run relies on: decryption inverts encryption, X25519 commutes
without an all-zero result, ML-KEM decapsulates what was encapsulated, and
signatures verify under the key pair that made them. -/
structure Correct (P : Primitives B) : Prop where
  aead (k : Block B 32) (n : Block B 12) (ad pt : List B) :
    ∃ ct, P.aeadEncrypt k n ad pt = some ct ∧ P.aeadDecrypt k n ad ct = some pt ∧
      ct.length = pt.length + 16
  x25519 (a b : Block B 32) :
    ∃ ss, P.scalarmult a (P.scalarmultBase b) = some ss ∧
      P.scalarmult b (P.scalarmultBase a) = some ss
  mlkemKeypair (d : Block B 64) : ∃ pk sk, P.mlkemKeypair d = some (pk, sk)
  mlkem {d : Block B 64} {pk : Block B 1184} {sk : Block B 2400}
    (pair : P.mlkemKeypair d = some (pk, sk)) (m : Block B 32) :
    ∃ ct ss, P.mlkemEnc pk m = some (ct, ss) ∧ P.mlkemDec ct sk = some ss
  mldsa {seed : Block B 32} {vk : Block B 1312} {sk : Block B 2560}
    (pair : P.mldsaKeypair seed = some (vk, sk)) (msg : List B) (rnd : Block B 32) :
    ∃ sig, P.mldsaSign msg sk rnd = some (sig, 2420) ∧ P.mldsaVerify sig msg vk = true
  ed25519 (seed : Block B 32) (msg : List B) :
    ∃ sig, P.edSign msg (P.edKeypair seed).2 = some sig ∧
      P.edVerify sig msg (P.edKeypair seed).1 = true

/-- The idealisation used for agreement: SHA-256 and HMAC outputs, also the first
eight octets of an HMAC, collide only on equal inputs, and the AEAD opens exactly
what was sealed, under the key, nonce and associated data it was sealed with. -/
structure Ideal (P : Primitives B) : Prop where
  sha256 : Function.Injective P.sha256
  mac {k k' : Block B 32} {m m' : List B} :
    (P.hmac k m).toList.take 8 = (P.hmac k' m').toList.take 8 → k = k' ∧ m = m'
  opened {k : Block B 32} {n : Block B 12} {ad ct pt : List B} :
    P.aeadDecrypt k n ad ct = some pt → P.aeadEncrypt k n ad pt = some ct
  bound {k k' : Block B 32} {n n' : Block B 12} {ad ad' pt pt' ct : List B} :
    P.aeadEncrypt k n ad pt = some ct → P.aeadDecrypt k' n' ad' ct = some pt' →
      k = k' ∧ n = n' ∧ ad = ad' ∧ pt = pt'

/-- SHA-256 and HMAC outputs collide only on equal inputs, and a ciphertext opens only to
the plaintext it is the encryption of. -/
structure CollisionFree (P : Primitives B) : Prop where
  sha256 : Function.Injective P.sha256
  hmac {k k' : Block B 32} {m m' : List B} : P.hmac k m = P.hmac k' m' → k = k' ∧ m = m'
  opened {k : Block B 32} {n : Block B 12} {ad ct pt : List B} :
    P.aeadDecrypt k n ad ct = some pt → P.aeadEncrypt k n ad pt = some ct

/-- The idealisation includes that there are no collisions. -/
theorem Ideal.collisionFree {P : Primitives B} (ideal : P.Ideal) : P.CollisionFree where
  sha256 := ideal.sha256
  hmac same := ideal.mac (congrArg (fun b : Block B 32 => b.toList.take 8) same)
  opened := ideal.opened

/-! ### The key schedule -/

variable [Octet B] (P : Primitives B)

/-- `hkdf_extract` with a 32-byte salt. -/
def hkdfExtract (salt : Block B 32) (ikm : Block B 32) : Block B 32 := P.hmac salt ikm.toList

/-- The loop of `hkdf_expand`: `t` is the chaining block (empty at first), `ctr` the
8-bit counter and `left` the number of octets still to write. -/
def hkdfExpandLoop (prk : Block B 32) (info t : List B) (ctr : UInt8) (left : Nat) : List B :=
  if left = 0 then []
  else
    let block := P.hmac prk (t ++ info ++ [Octet.ofByte ctr])
    let n := min left 32
    block.toList.take n ++ hkdfExpandLoop prk info block.toList (ctr + 1) (left - n)
termination_by left

theorem hkdfExpandLoop_length (prk : Block B 32) (info t : List B) (ctr : UInt8) (left : Nat) :
    (P.hkdfExpandLoop prk info t ctr left).length = left := by
  induction left using Nat.strong_induction_on generalizing t ctr with
  | _ left ih =>
    rw [hkdfExpandLoop]
    split
    · next h => simp [h]
    · next h =>
      simp only [List.length_append, List.length_take, List.Vector.toList_length]
      rw [ih _ (by omega)]
      omega

/-- `hkdf_expand(prk, info, info_len, okm, n)`. -/
def hkdfExpand (prk : Block B 32) (info : List B) (n : Nat) : Block B n :=
  ⟨P.hkdfExpandLoop prk info [] 1 n, P.hkdfExpandLoop_length prk info [] 1 n⟩

/-- One block or less is the start of the first HMAC. -/
theorem hkdfExpand_toList_short (prk : Block B 32) (info : List B) {n : Nat} (h : n ≤ 32) :
    (P.hkdfExpand prk info n).toList =
      (P.hmac prk (info ++ [Octet.ofByte 1])).toList.take n := by
  show P.hkdfExpandLoop prk info [] 1 n = _
  rw [hkdfExpandLoop]
  split
  · next h0 => simp [h0]
  · next h0 =>
    have done : n - min n 32 = 0 := by omega
    simp only [List.nil_append, done]
    rw [hkdfExpandLoop, if_pos rfl, List.append_nil, Nat.min_eq_left h]

/-- Every output of at least eight octets starts with the first eight of the first HMAC. -/
theorem hkdfExpand_take (prk : Block B 32) (info : List B) {n : Nat} (h : 8 ≤ n) :
    (P.hkdfExpand prk info n).toList.take 8 =
      (P.hmac prk (info ++ [Octet.ofByte 1])).toList.take 8 := by
  show (P.hkdfExpandLoop prk info [] 1 n).take 8 = _
  rw [hkdfExpandLoop, if_neg (by omega), List.nil_append,
    List.take_append_of_le_length (by simp; omega), List.take_take]
  congr 1
  omega

/-- Under the idealisation an expansion determines its key and its info string. -/
theorem Ideal.hkdfExpand {P : Primitives B} (ideal : P.Ideal) {prk prk' : Block B 32}
    {info info' : List B} {n : Nat} (h : 8 ≤ n)
    (same : P.hkdfExpand prk info n = P.hkdfExpand prk' info' n) :
    prk = prk' ∧ info = info' := by
  have front : (P.hmac prk (info ++ [Octet.ofByte 1])).toList.take 8 =
      (P.hmac prk' (info' ++ [Octet.ofByte 1])).toList.take 8 := by
    rw [← P.hkdfExpand_take prk info h, ← P.hkdfExpand_take prk' info' h, same]
  obtain ⟨key, msg⟩ := ideal.mac front
  exact ⟨key, List.append_cancel_right msg⟩

omit [Octet B] in
/-- Under the idealisation an extraction determines its salt and its input. -/
theorem Ideal.hkdfExtract {P : Primitives B} (ideal : P.Ideal) {salt salt' ikm ikm' : Block B 32}
    (same : P.hkdfExtract salt ikm = P.hkdfExtract salt' ikm') : salt = salt' ∧ ikm = ikm' := by
  have parts := ideal.mac (congrArg (fun b : Block B 32 => b.toList.take 8) same)
  exact ⟨parts.1, List.Vector.eq _ _ parts.2⟩

/-! ### AEAD under a key derived from a PRK and a transcript hash -/

/-- `derive_k`: key and nonce from `(prk, th)` under a five-character label. -/
def deriveKey (label : String) (prk th : Block B 32) : Block B 32 × Block B 12 :=
  let okm : Block B (32 + 12) := P.hkdfExpand prk (th.toList ++ ascii label) (32 + 12)
  (okm.fst, okm.snd)

/-- The arguments of one `aead_open` call; `cap` is the size of the plaintext buffer
the caller passes, which `aead_open` itself never sees. -/
structure OpenCall (B : Type) where
  prk : Block B 32
  th : Block B 32
  ct : List B
  cap : Nat

/-- `aead_seal`: the transcript hash is the associated data. -/
def aeadSeal (label : String) (prk th : Block B 32) (pt : List B) : Option (List B) :=
  let k := P.deriveKey label prk th
  P.aeadEncrypt k.1 k.2 th.toList pt

def aeadOpen (label : String) (call : OpenCall B) : Option (List B) :=
  let k := P.deriveKey label call.prk call.th
  P.aeadDecrypt k.1 k.2 call.th.toList call.ct

/-- What is sealed opens, under the same PRK and transcript hash. -/
theorem Correct.aeadOpen_aeadSeal {P : Primitives B} (correct : P.Correct) (label : String)
    (prk th : Block B 32) (pt : List B) (cap : Nat) :
    ∃ ct, P.aeadSeal label prk th pt = some ct ∧ P.aeadOpen label ⟨prk, th, ct, cap⟩ = some pt ∧
      ct.length = pt.length + 16 :=
  correct.aead _ _ _ _

/-- A key belongs to one PRK. -/
theorem Ideal.deriveKey {P : Primitives B} (ideal : P.Ideal) {label : String}
    {prk prk' th th' : Block B 32}
    (same : (P.deriveKey label prk th).1 = (P.deriveKey label prk' th').1) : prk = prk' := by
  have front : (P.hmac prk ((th.toList ++ ascii label) ++ [Octet.ofByte 1])).toList.take 8 =
      (P.hmac prk' ((th'.toList ++ ascii label) ++ [Octet.ofByte 1])).toList.take 8 := by
    have key := congrArg (fun b : Block B 32 => b.toList.take 8) same
    have cut (a : Block B (32 + 12)) : (Block.fst a).toList.take 8 = a.toList.take 8 := by
      show (a.toList.take 32).take 8 = a.toList.take 8
      rw [List.take_take, Nat.min_eq_left (by omega)]
    simp only [Primitives.deriveKey, cut] at key
    rwa [P.hkdfExpand_take _ _ (by omega), P.hkdfExpand_take _ _ (by omega)] at key
  exact (ideal.mac front).1

/-- What opens was sealed under the same PRK and transcript hash. -/
theorem Ideal.aeadOpen_of_aeadSeal {P : Primitives B} (ideal : P.Ideal) {label : String}
    {prk th prk' th' : Block B 32} {pt pt' ct : List B} {cap : Nat}
    (sealed : P.aeadSeal label prk th pt = some ct)
    (opened : P.aeadOpen label ⟨prk', th', ct, cap⟩ = some pt') :
    prk = prk' ∧ th = th' ∧ pt = pt' := by
  obtain ⟨key, -, ad, text⟩ := ideal.bound sealed opened
  exact ⟨ideal.deriveKey key, List.Vector.eq _ _ ad, text⟩

/-- Key and nonce determine the PRK and the transcript hash they were derived from. -/
theorem CollisionFree.deriveKey {P : Primitives B} (free : P.CollisionFree) {label : String}
    {prk prk' th th' : Block B 32}
    (same : P.deriveKey label prk th = P.deriveKey label prk' th') : prk = prk' ∧ th = th' := by
  have key (prk th : Block B 32) : (P.deriveKey label prk th).1 =
      P.hmac prk ((th.toList ++ ascii label) ++ [Octet.ofByte 1]) := by
    apply List.Vector.eq
    show (P.hkdfExpandLoop prk (th.toList ++ ascii label) [] 1 (32 + 12)).take 32 = _
    rw [hkdfExpandLoop, if_neg (by decide), List.nil_append]
    rw [List.take_left' (by simp), List.take_of_length_le (by simp)]
  have keys := congrArg Prod.fst same
  rw [key, key] at keys
  obtain ⟨prk, info⟩ := free.hmac keys
  exact ⟨prk, List.Vector.eq _ _ (List.append_cancel_right (List.append_cancel_right info))⟩

omit [Octet B] in
/-- An extraction belongs to one salt. -/
theorem CollisionFree.hkdfExtract {P : Primitives B} (free : P.CollisionFree)
    {salt salt' ikm ikm' : Block B 32}
    (same : P.hkdfExtract salt ikm = P.hkdfExtract salt' ikm') : salt = salt' :=
  (free.hmac same).1

/-- Under one PRK and transcript hash a plaintext has one ciphertext. -/
theorem CollisionFree.aeadOpen {P : Primitives B} (free : P.CollisionFree) {label : String}
    {prk th : Block B 32} {ct ct' pt : List B} {cap cap' : Nat}
    (first : P.aeadOpen label ⟨prk, th, ct, cap⟩ = some pt)
    (second : P.aeadOpen label ⟨prk, th, ct', cap'⟩ = some pt) : ct = ct' :=
  Option.some.inj ((free.opened first).symm.trans (free.opened second))

end Primitives

end EdhocAuth
