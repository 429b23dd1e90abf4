/-
Perfect cryptography over symbolic octets.

A symbolic octet is a literal byte, an octet of a random string, or one octet of
the output of a primitive applied to strings of symbolic octets. Outputs of
different primitives, or of one primitive at different inputs, never share an
octet, while lengths and offsets are those of the real byte strings: a message is
still a list of octets, it can be cut anywhere, and a truncated MAC is the first
eight octets of the full one.

* X25519 elements are a base point with a multiset of scalars, so that
  Diffie–Hellman commutes for any number of contributions.
* ML-KEM rejects implicitly: a foreign ciphertext decapsulates to a secret that
  depends on the secret key.
* `primitives_correct` and `primitives_ideal`: the instance has everything an
  honest run relies on and everything the agreement results assume.
-/

import EdhocAuth.Crypto.Primitives
import Mathlib.Data.Multiset.Basic
import Mathlib.Data.List.OfFn

namespace EdhocAuth.Symbolic

/-- Which of the two honest parties a long-term key belongs to. -/
inductive Party where
  | initiator | responder
deriving DecidableEq

/-- Where a random string comes from: a key pair of an honest party, the `slot`-th
string drawn at step `time` of a run, or the attacker. -/
inductive Origin where
  | longTerm (party : Party) (key : Nat)
  | session (time slot : Nat)
  | attacker (n : Nat)

inductive Scheme where
  | ed25519 | mldsa

/-- Symbolic octets; the last argument is the position in the output. -/
inductive Sym where
  | lit (b : UInt8)
  | rnd (o : Origin) (i : Nat)
  | hash (m : List Sym) (i : Nat)
  | hmac (k m : List Sym) (i : Nat)
  | aead (k n ad pt : List Sym) (i : Nat)
  | point (base : List Sym) (scalars : List (List Sym)) (i : Nat)
  | kemPk (coins : List Sym) (i : Nat)
  | kemSk (coins : List Sym) (i : Nat)
  | kemCt (pk coins : List Sym) (i : Nat)
  | kemSs (pk coins : List Sym) (i : Nat)
  | kemReject (sk ct : List Sym) (i : Nat)
  | sigVk (scheme : Scheme) (seed : List Sym) (i : Nat)
  | sigSk (scheme : Scheme) (seed : List Sym) (i : Nat)
  | sig (scheme : Scheme) (seed rnd m : List Sym) (i : Nat)

noncomputable instance : DecidableEq Sym := Classical.decEq _

instance : Octet Sym where
  ofByte := .lit
  toByte?
    | .lit b => some b
    | _ => none
  toByte?_eq_some {x b} := by cases x <;> simp

/-! ### Outputs as blocks -/

def out (n : Nat) (f : Nat → Sym) : Block Sym n :=
  ⟨(List.range n).map f, by simp⟩

@[simp] theorem mem_out {n : Nat} {f : Nat → Sym} {x : Sym} :
    x ∈ (out n f).toList ↔ ∃ i, i < n ∧ f i = x := by
  show x ∈ (List.range n).map f ↔ _
  simp

/-- An output is determined by its first octet. -/
theorem out_inj {n : Nat} {f g : Nat → Sym} (pos : 0 < n) (h : out n f = out n g) :
    f 0 = g 0 := by
  have lists : (List.range n).map f = (List.range n).map g := congrArg List.Vector.toList h
  obtain ⟨m, rfl⟩ := Nat.exists_eq_add_one.mpr pos
  simpa [List.range_succ_eq_map] using congrArg List.head? lists

/-! ### The primitives -/

def basePoint : List Sym := .lit 9 :: List.replicate 31 (.lit 0)

/-- A scalar multiple of `base`; the order of the scalars does not matter. -/
noncomputable def point (base : List Sym) (scalars : Multiset (List Sym)) : Block Sym 32 :=
  out 32 (.point base scalars.toList)

open Classical in
/-- `crypto_scalarmult` on a point that is itself a scalar multiple adds a scalar;
any other string is taken as a base point. -/
noncomputable def mulPoint (s p : Block Sym 32) : Block Sym 32 :=
  if h : ∃ q : List Sym × Multiset (List Sym), p = point q.1 q.2 then
    point h.choose.1 (s.toList ::ₘ h.choose.2)
  else point p.toList {s.toList}

open Classical in
/-- ML-KEM decapsulation with implicit rejection. -/
noncomputable def kemDec (ct : Block Sym 1088) (sk : Block Sym 2400) : Block Sym 32 :=
  if h : ∃ q : List Sym × List Sym, sk = out 2400 (.kemSk q.1) ∧
      ct = out 1088 (.kemCt (out 1184 (.kemPk q.1)).toList q.2) then
    out 32 (.kemSs (out 1184 (.kemPk h.choose.1)).toList h.choose.2)
  else out 32 (.kemReject sk.toList ct.toList)

/-- `n` octets of ciphertext and tag. -/
def sealed (k n ad pt : List Sym) : List Sym := (out (pt.length + 16) (.aead k n ad pt)).toList

open Classical in
noncomputable def aeadDec (k n ad ct : List Sym) : Option (List Sym) :=
  if h : ∃ pt, ct = sealed k n ad pt then some h.choose else none

open Classical in
/-- The secret key `sk` of a scheme signs if it is one of the scheme's keys. -/
noncomputable def signWith (scheme : Scheme) (len : Nat) (msg : List Sym) {skLen : Nat}
    (sk : Block Sym skLen) (rnd : List Sym) : Option (Block Sym len) :=
  if h : ∃ seed, sk = out skLen (.sigSk scheme seed) then
    some (out len (.sig scheme h.choose rnd msg))
  else none

/-- A signature verifies if the holder of the key's seed made it on that message. -/
def Verifies (scheme : Scheme) {len vkLen : Nat} (sig : Block Sym len) (msg : List Sym)
    (vk : Block Sym vkLen) : Prop :=
  ∃ seed rnd, vk = out vkLen (.sigVk scheme seed) ∧ sig = out len (.sig scheme seed rnd msg)

noncomputable instance {scheme : Scheme} {len vkLen : Nat} {sig : Block Sym len} {msg : List Sym}
    {vk : Block Sym vkLen} : Decidable (Verifies scheme sig msg vk) := Classical.dec _

/-- Perfect cryptography as an instance of the primitives the handlers call. -/
noncomputable def primitives : Primitives Sym where
  sha256 m := out 32 (.hash m)
  hmac k m := out 32 (.hmac k.toList m)
  aeadEncrypt k n ad pt := some (sealed k.toList n.toList ad pt)
  aeadDecrypt k n ad ct := aeadDec k.toList n.toList ad ct
  scalarmultBase s := point basePoint {s.toList}
  scalarmult s p := some (mulPoint s p)
  mlkemKeypair d := some (out 1184 (.kemPk d.toList), out 2400 (.kemSk d.toList))
  mlkemEnc pk m := some (out 1088 (.kemCt pk.toList m.toList), out 32 (.kemSs pk.toList m.toList))
  mlkemDec ct sk := some (kemDec ct sk)
  mldsaKeypair seed :=
    some (out 1312 (.sigVk .mldsa seed.toList), out 2560 (.sigSk .mldsa seed.toList))
  mldsaSign msg sk rnd := (signWith .mldsa 2420 msg sk rnd.toList).map fun sig => (sig, 2420)
  mldsaVerify sig msg vk := decide (Verifies .mldsa sig msg vk)
  edKeypair seed := (out 32 (.sigVk .ed25519 seed.toList), out 64 (.sigSk .ed25519 seed.toList))
  edSign msg sk := signWith .ed25519 64 msg sk []
  edVerify sig msg vk := decide (Verifies .ed25519 sig msg vk)

/-! ### Each primitive on its own outputs -/

/-- A point is determined by its base and its scalars. -/
theorem point_inj {b b' : List Sym} {s s' : Multiset (List Sym)} (h : point b s = point b' s') :
    b = b' ∧ s = s' := by
  have parts := Sym.point.inj (out_inj (by decide) h)
  refine ⟨parts.1, ?_⟩
  rw [← Multiset.coe_toList s, ← Multiset.coe_toList s', parts.2.1]

/-- Multiplying a point adds a scalar. -/
@[simp] theorem mulPoint_point (s : Block Sym 32) (base : List Sym)
    (scalars : Multiset (List Sym)) :
    mulPoint s (point base scalars) = point base (s.toList ::ₘ scalars) := by
  have h : ∃ q : List Sym × Multiset (List Sym), point base scalars = point q.1 q.2 :=
    ⟨(base, scalars), rfl⟩
  rw [mulPoint, dif_pos h]
  obtain ⟨hb, hs⟩ := point_inj h.choose_spec
  rw [← hb, ← hs]

/-- Decapsulation gives the shared secret of the encapsulation. -/
@[simp] theorem kemDec_kemCt (coins m : List Sym) :
    kemDec (out 1088 (.kemCt (out 1184 (.kemPk coins)).toList m)) (out 2400 (.kemSk coins)) =
      out 32 (.kemSs (out 1184 (.kemPk coins)).toList m) := by
  have h : ∃ q : List Sym × List Sym, out 2400 (.kemSk coins) = out 2400 (.kemSk q.1) ∧
      out 1088 (.kemCt (out 1184 (.kemPk coins)).toList m) =
        out 1088 (.kemCt (out 1184 (.kemPk q.1)).toList q.2) := ⟨(coins, m), rfl, rfl⟩
  rw [kemDec, dif_pos h]
  have hc := (Sym.kemSk.inj (out_inj (by decide) h.choose_spec.1)).1
  have hm := (Sym.kemCt.inj (out_inj (by decide) h.choose_spec.2)).2.1
  rw [← hc, ← hm]

/-- A ciphertext determines all that went into it. -/
theorem sealed_inj {k k' n n' ad ad' pt pt' : List Sym}
    (h : sealed k n ad pt = sealed k' n' ad' pt') : k = k' ∧ n = n' ∧ ad = ad' ∧ pt = pt' := by
  have heads := congrArg List.head? h
  change (List.map _ (List.range (_ + 15 + 1))).head? =
    (List.map _ (List.range (_ + 15 + 1))).head? at heads
  have first : Sym.aead k n ad pt 0 = Sym.aead k' n' ad' pt' 0 := by
    simpa [List.range_succ_eq_map] using heads
  obtain ⟨hk, hn, ha, hp, -⟩ := Sym.aead.inj first
  exact ⟨hk, hn, ha, hp⟩

/-- Only what was sealed under the same key, nonce and data decrypts. -/
theorem aeadDec_eq_some {k n ad ct pt : List Sym} :
    aeadDec k n ad ct = some pt ↔ ct = sealed k n ad pt := by
  unfold aeadDec
  split
  · next h =>
    constructor
    · intro eq
      rw [← Option.some.inj eq]
      exact h.choose_spec
    · intro eq
      exact congrArg some (sealed_inj (h.choose_spec.symm.trans eq)).2.2.2
  · next h =>
    simp only [reduceCtorEq, false_iff]
    exact fun eq => h ⟨pt, eq⟩

/-- The secret key of a seed signs. -/
theorem signWith_sigSk (scheme : Scheme) (len : Nat) {skLen : Nat} (pos : 0 < skLen)
    (msg seed rnd : List Sym) :
    signWith scheme len msg (out skLen (.sigSk scheme seed)) rnd =
      some (out len (.sig scheme seed rnd msg)) := by
  have h : ∃ s, out skLen (.sigSk scheme seed) = out skLen (.sigSk scheme s) := ⟨_, rfl⟩
  rw [signWith, dif_pos h]
  have hs := (Sym.sigSk.inj (out_inj pos h.choose_spec)).2.1
  rw [← hs]

/-! ### The instance is correct and ideal -/

/-- The symbolic library does what an honest run relies on. -/
theorem primitives_correct : primitives.Correct where
  aead k n ad pt := by
    refine ⟨_, rfl, aeadDec_eq_some.mpr rfl, ?_⟩
    simp [sealed]
  x25519 a b := by
    refine ⟨point basePoint (a.toList ::ₘ {b.toList}), congrArg some (mulPoint_point a _ _), ?_⟩
    exact (congrArg some (mulPoint_point b _ _)).trans
      (congrArg (fun scalars => some (point basePoint scalars)) (Multiset.pair_comm _ _))
  mlkemKeypair d := ⟨_, _, rfl⟩
  mlkem {d pk sk} pair m := by
    obtain ⟨rfl, rfl⟩ := Prod.mk.inj (Option.some.inj pair)
    exact ⟨_, _, rfl, congrArg some (kemDec_kemCt _ _)⟩
  mldsa {seed vk sk} pair msg rnd := by
    obtain ⟨rfl, rfl⟩ := Prod.mk.inj (Option.some.inj pair)
    refine ⟨out 2420 (.sig .mldsa seed.toList rnd.toList msg), ?_, decide_eq_true ⟨_, _, rfl, rfl⟩⟩
    exact congrArg (Option.map _) (signWith_sigSk _ _ (by decide) _ _ _)
  ed25519 seed msg := by
    exact ⟨out 64 (.sig .ed25519 seed.toList [] msg), signWith_sigSk _ _ (by decide) _ _ _,
      decide_eq_true ⟨_, _, rfl, rfl⟩⟩

/-- The symbolic library is ideal. -/
theorem primitives_ideal : primitives.Ideal where
  sha256 a b h := (Sym.hash.inj (out_inj (by decide) h)).1
  mac {k k' m m'} h := by
    change ((List.range 32).map _).take 8 = ((List.range 32).map _).take 8 at h
    have head : Sym.hmac k.toList m 0 = Sym.hmac k'.toList m' 0 := by
      simpa [List.range_succ_eq_map] using congrArg List.head? h
    obtain ⟨hk, hm, -⟩ := Sym.hmac.inj head
    exact ⟨List.Vector.eq _ _ hk, hm⟩
  opened h := congrArg some (aeadDec_eq_some.mp h).symm
  bound {k k' n n' ad ad' pt pt' ct} sealing opening := by
    obtain ⟨hk, hn, ha, hp⟩ :=
      sealed_inj ((Option.some.inj sealing).trans (aeadDec_eq_some.mp opening))
    exact ⟨List.Vector.eq _ _ hk, List.Vector.eq _ _ hn, ha, hp⟩

end EdhocAuth.Symbolic
