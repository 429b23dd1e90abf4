/-
What keeps the messages of OSCORE-lite apart.

The nonce, the associated data and the CBOR `info` of a key are written from identifiers of any
size. `nonceOf_inj`, `aadOf_inj` and `infoOf_inj` read the identifiers back; the last from the
prefix code that CBOR is. `oscore_separation`: under one master secret, different pairs of a sender
and a partial IV differ in the `info` of the key or in the nonce.
-/

import EdhocAuth.Bootstrap.OscoreLite
import EdhocAuth.Lib.PrefixCode

namespace EdhocAuth.Bootstrap

open Octets PrefixCode

/-! ### CBOR -/

namespace Py

/-- The head of a data item: the major type in the high bits, and a number. -/
def cborHead (major : UInt8) (n : Nat) : List UInt8 :=
  if n < 24 then [major ||| UInt8.ofNat n] else [major ||| 0x18, UInt8.ofNat n]

/-- The `info` of a key, for parts that fit. -/
def infoOf (id idContext : List UInt8) (alg : Nat) (type : List UInt8) (length : Nat) :
    List UInt8 :=
  [0x85] ++ ((cborHead 0x40 id.length ++ id) ++ ((cborHead 0x40 idContext.length ++ idContext) ++
    (cborHead 0x00 alg ++ ((cborHead 0x60 type.length ++ type) ++ cborHead 0x00 length))))

/-- The major types that occur. -/
def IsMajor (major : UInt8) : Prop := major = 0x00 ∨ major = 0x40 ∨ major = 0x60

/-- The number of a head does not touch its major type. -/
theorem IsMajor.toNat_or {major : UInt8} (known : IsMajor major) {n : Nat} (small : n < 32) :
    (major ||| UInt8.ofNat n).toNat = major.toNat + n := by
  have all : ∀ n < 32, ∀ major ∈ [(0x00 : UInt8), 0x40, 0x60],
      (major ||| UInt8.ofNat n).toNat = major.toNat + n := by decide +kernel
  refine all n small major ?_
  rcases known with rfl | rfl | rfl <;> decide

/-- A head can be told from what follows it. -/
theorem code_cborHead {major : UInt8} (known : IsMajor major) :
    Code (cborHead major) (· < 256) := by
  intro n m s t hn hm same
  have long : (major ||| 0x18).toNat = major.toNat + 24 := known.toNat_or (by decide)
  have octet {k : Nat} (small : k < 256) : (UInt8.ofNat k).toNat = k := by
    rw [UInt8.toNat_ofNat']
    exact Nat.mod_eq_of_lt small
  by_cases shortN : n < 24 <;> by_cases shortM : m < 24
  · rw [cborHead, cborHead, if_pos shortN, if_pos shortM] at same
    obtain ⟨first, rest⟩ := List.cons.inj same
    have equal := congrArg UInt8.toNat first
    rw [known.toNat_or (by omega), known.toNat_or (by omega)] at equal
    exact ⟨by omega, rest⟩
  · rw [cborHead, cborHead, if_pos shortN, if_neg shortM] at same
    have equal := congrArg UInt8.toNat (List.cons.inj same).1
    rw [known.toNat_or (by omega), long] at equal
    omega
  · rw [cborHead, cborHead, if_neg shortN, if_pos shortM] at same
    have equal := congrArg UInt8.toNat (List.cons.inj same).1
    rw [known.toNat_or (by omega), long] at equal
    omega
  · rw [cborHead, cborHead, if_neg shortN, if_neg shortM] at same
    obtain ⟨second, rest⟩ := List.cons.inj (List.cons.inj same).2
    have equal := congrArg UInt8.toNat second
    rw [octet hn, octet hm] at equal
    exact ⟨equal, rest⟩

/-- So the `info` determines its parts. -/
theorem infoOf_inj {id id' context context' type type' : List UInt8} {alg alg' length length' : Nat}
    (idFits : id.length < 256) (idFits' : id'.length < 256) (contextFits : context.length < 256)
    (contextFits' : context'.length < 256) (algFits : alg < 256) (algFits' : alg' < 256)
    (typeFits : type.length < 256) (typeFits' : type'.length < 256) (fits : length < 256)
    (fits' : length' < 256)
    (same : infoOf id context alg type length = infoOf id' context' alg' type' length') :
    id = id' ∧ context = context' ∧ alg = alg' ∧ type = type' ∧ length = length' := by
  have uint := code_cborHead (.inl rfl)
  have bstr := (code_cborHead (.inr (.inl rfl))).counted
  have tstr := (code_cborHead (.inr (.inr rfl))).counted
  have code := bstr.append (bstr.append (uint.append (tstr.append uint)))
  have parts := code.inj (a := (id, context, alg, type, length))
    (b := (id', context', alg', type', length')) ⟨idFits, contextFits, algFits, typeFits, fits⟩
    ⟨idFits', contextFits', algFits', typeFits', fits'⟩ (List.append_cancel_left same)
  simpa only [Prod.mk.injEq] using parts

/-- A byte string is its octets behind the head. -/
theorem cborBstr_eq {b : List UInt8} (fits : b.length < 256) :
    cborBstr b = .ok (cborHead 0x40 b.length ++ b) := by
  by_cases short : b.length < 24
  · rw [cborBstr, if_pos short, cborHead, if_pos short]
  · rw [cborBstr, if_neg short, if_pos fits, cborHead, if_neg short]
    rfl

/-- A text string is its octets behind the head. -/
theorem cborTstr_eq {s : List UInt8} (short : s.length < 24) :
    cborTstr s = .ok (cborHead 0x60 s.length ++ s) := by
  rw [cborTstr, if_pos short, cborHead, if_pos short]

theorem cborUint_eq {n : Nat} (fits : n < 256) : cborUint n = .ok (cborHead 0x00 n) := by
  by_cases short : n < 24
  · rw [cborUint, if_pos short, cborHead, if_pos short, UInt8.zero_or]
  · rw [cborUint, if_neg short, if_pos fits, cborHead, if_neg short]
    rfl

/-- The `info` of parts that fit can be made. -/
theorem oscoreInfo_eq_infoOf {id context type : List UInt8} {alg length : Nat}
    (idFits : id.length < 256) (contextFits : context.length < 256) (algFits : alg < 256)
    (typeFits : type.length < 24) (fits : length < 256) :
    oscoreInfo id context alg type length = .ok (infoOf id context alg type length) := by
  rw [oscoreInfo, cborBstr_eq idFits, cborBstr_eq contextFits, cborUint_eq algFits,
    cborTstr_eq typeFits, cborUint_eq fits]
  show Except.ok _ = Except.ok _
  simp only [infoOf, List.append_assoc]

end Py

/-! ### Nonces and associated data -/

namespace Oscore

variable {commonIv id id' : List UInt8} {partialIv partialIv' : Nat}

/-- A partial IV is determined by its five octets. -/
theorem toBytes5_inj (fits : partialIv < 2 ^ 40) (fits' : partialIv' < 2 ^ 40)
    (same : Octets.ofNat 5 partialIv = Octets.ofNat 5 partialIv') : partialIv = partialIv' :=
  ofNat_inj (by omega) (by omega) same

/-- The length in front of the padding tells where the identifier starts. -/
theorem nonceOf_inj (iv : commonIv.length = 13) (short : id.length ≤ 7) (short' : id'.length ≤ 7)
    (fits : partialIv < 2 ^ 40) (fits' : partialIv' < 2 ^ 40)
    (same : nonceOf commonIv id partialIv = nonceOf commonIv id' partialIv') :
    id = id' ∧ partialIv = partialIv' := by
  have covered {id : List UInt8} (n : Nat) (short : id.length ≤ 7) :
      ([UInt8.ofNat id.length] ++ (List.replicate (7 - id.length) 0x00 ++ id) ++
        Octets.ofNat 5 n).length ≤ commonIv.length := by
    simp only [List.length_append, List.length_replicate, List.length_singleton, length_ofNat, iv]
    omega
  have unmasked := congrArg (List.zipWith (· ^^^ ·) · commonIv) same
  simp only [nonceOf] at unmasked
  rw [zipWith_xor_xor (covered _ short), zipWith_xor_xor (covered _ short')] at unmasked
  obtain ⟨front, pivs⟩ := List.append_inj' unmasked (by rw [length_ofNat, length_ofNat])
  obtain ⟨first, padded⟩ := List.cons.inj front
  have sizes : id.length = id'.length := by
    have octets := congrArg UInt8.toNat first
    rw [UInt8.toNat_ofNat', UInt8.toNat_ofNat'] at octets
    omega
  rw [sizes] at padded
  exact ⟨List.append_cancel_left padded, toBytes5_inj fits fits' pivs⟩

/-- The identifier is what stands between fixed octets, whatever it holds. -/
theorem aad_inj {front : List UInt8} (fits : partialIv < 2 ^ 40) (fits' : partialIv' < 2 ^ 40)
    (same : front ++ id ++ octetsOf "|" ++ Octets.ofNat 5 partialIv =
      front ++ id' ++ octetsOf "|" ++ Octets.ofNat 5 partialIv') :
    id = id' ∧ partialIv = partialIv' := by
  obtain ⟨ids, pivs⟩ := List.append_inj' same (by rw [length_ofNat, length_ofNat])
  exact ⟨List.append_cancel_left (List.append_cancel_right ids), toBytes5_inj fits fits' pivs⟩

end Oscore

/-! ### One master secret -/

open Oscore Py

section Derived

variable {hmac : Hmac} {ms salt senderId recipientId idContext : List UInt8} {ctx : OscoreContext}

def senderInfo (ctx : OscoreContext) : Except Py.Error (List UInt8) :=
  oscoreInfo ctx.senderId ctx.idContext oscoreAeadAlg (octetsOf "Key") oscoreKeyLen

def senderNonce (ctx : OscoreContext) (partialIv : Nat) : Except Oscore.Error (List UInt8) :=
  oscoreNonce ctx.commonIv ctx.senderId partialIv

/-- A key is derived just if its `info` can be made. -/
theorem expandInfo_eq_ok {prk id type out : List UInt8} {length : Nat} (limit : length ≤ 255 * 32) :
    expandInfo hmac prk id idContext type length = .ok out ↔
      ∃ info, oscoreInfo id idContext oscoreAeadAlg type length = .ok info ∧
        okm hmac prk info length = out := by
  rw [expandInfo]
  cases oscoreInfo id idContext oscoreAeadAlg type length with
  | error e =>
    constructor
    · intro ok
      cases ok
    · rintro ⟨_, ok, _⟩
      cases ok
  | ok info =>
    show Py.hkdfExpand hmac prk info length = .ok out ↔ _
    rw [Py.hkdfExpand_eq prk info limit, Except.ok.injEq]
    constructor
    · exact fun same => ⟨info, rfl, same⟩
    · rintro ⟨_, same, out⟩
      rwa [← Except.ok.inj same] at out

/-- What a context that could be derived holds. -/
structure Derived (hmac : Hmac) (ms salt senderId recipientId idContext : List UInt8)
    (ctx : OscoreContext) : Prop where
  ids : ctx.senderId = senderId ∧ ctx.recipientId = recipientId ∧ ctx.idContext = idContext
  senderKey : expandInfo hmac (hkdfExtract hmac (some salt) ms) senderId idContext (octetsOf "Key")
    oscoreKeyLen = .ok ctx.senderKey
  recipientKey : expandInfo hmac (hkdfExtract hmac (some salt) ms) recipientId idContext
    (octetsOf "Key") oscoreKeyLen = .ok ctx.recipientKey
  commonIv : expandInfo hmac (hkdfExtract hmac (some salt) ms) [] idContext (octetsOf "IV")
    oscoreIvLen = .ok ctx.commonIv

/-- A context that could be derived holds what is derived from its `info`. -/
theorem derived_of_ok
    (ok : deriveOscoreContext hmac ms salt senderId recipientId idContext = .ok ctx) :
    Derived hmac ms salt senderId recipientId idContext ctx := by
  rw [deriveOscoreContext] at ok
  cases sender : expandInfo hmac (hkdfExtract hmac (some salt) ms) senderId idContext
      (octetsOf "Key") oscoreKeyLen with
  | error e => rw [sender] at ok; cases ok
  | ok senderKey =>
    cases recipient : expandInfo hmac (hkdfExtract hmac (some salt) ms) recipientId idContext
        (octetsOf "Key") oscoreKeyLen with
    | error e => rw [sender, recipient] at ok; cases ok
    | ok recipientKey =>
      cases iv : expandInfo hmac (hkdfExtract hmac (some salt) ms) [] idContext (octetsOf "IV")
          oscoreIvLen with
      | error e => rw [sender, recipient, iv] at ok; cases ok
      | ok commonIv =>
        rw [sender, recipient, iv] at ok
        obtain rfl := Except.ok.inj ok
        exact ⟨⟨rfl, rfl, rfl⟩, sender, recipient, iv⟩

/-- The common IV has the length of a nonce. -/
theorem Derived.length_commonIv
    (derived : Derived hmac ms salt senderId recipientId idContext ctx) :
    ctx.commonIv.length = 13 := by
  obtain ⟨info, -, iv⟩ := (expandInfo_eq_ok (by decide)).mp derived.commonIv
  rw [← iv, length_okm]

/-- The sender and the partial IV are determined by the `info` of the key and the nonce. -/
theorem Derived.sender_inj {senderId' recipientId' idContext' : List UInt8} {ctx' : OscoreContext}
    {n n' : Nat} (derived : Derived hmac ms salt senderId recipientId idContext ctx)
    (derived' : Derived hmac ms salt senderId' recipientId' idContext' ctx')
    (short : senderId.length ≤ 7) (short' : senderId'.length ≤ 7) (fits : n < 2 ^ 40)
    (fits' : n' < 2 ^ 40) (contextFits : idContext.length < 256)
    (contextFits' : idContext'.length < 256) (infos : senderInfo ctx = senderInfo ctx')
    (nonces : senderNonce ctx n = senderNonce ctx' n') : senderId = senderId' ∧ n = n' := by
  have typeFits : (octetsOf "Key").length < 24 := by decide
  have sizeFits : oscoreKeyLen < 256 := by decide
  have algFits : oscoreAeadAlg < 256 := by decide
  rw [senderInfo, senderInfo, derived.ids.1, derived.ids.2.2, derived'.ids.1, derived'.ids.2.2,
    oscoreInfo_eq_infoOf (by omega) contextFits algFits typeFits sizeFits,
    oscoreInfo_eq_infoOf (by omega) contextFits' algFits typeFits sizeFits] at infos
  obtain ⟨rfl, rfl, -⟩ := infoOf_inj (by omega) (by omega) contextFits contextFits' algFits algFits
    (by omega) (by omega) sizeFits sizeFits (Except.ok.inj infos)
  have iv : ctx.commonIv = ctx'.commonIv :=
    Except.ok.inj (derived.commonIv.symm.trans derived'.commonIv)
  rw [senderNonce, senderNonce, derived.ids.1, derived'.ids.1, ← iv, oscoreNonce_eq fits short,
    oscoreNonce_eq fits' short] at nonces
  exact nonceOf_inj derived.length_commonIv short short fits fits' (Except.ok.inj nonces)

end Derived

/-- Nonces, associated data and the CBOR `info` are injective on identifiers that fit; and so, under
one master secret, two senders or two partial IVs never share both the `info` that the sender key is
expanded from and the nonce, and the `info` of the common IV is that of no key. -/
theorem oscore_separation :
    (∀ (commonIv id id' : List UInt8) (n n' : Nat), commonIv.length = 13 → id.length ≤ 7 →
      id'.length ≤ 7 → n < 2 ^ 40 → n' < 2 ^ 40 →
      oscoreNonce commonIv id n = oscoreNonce commonIv id' n' → id = id' ∧ n = n') ∧
    (∀ (alg : Nat) (kid kid' : List UInt8) (n n' : Nat), n < 2 ^ 40 → n' < 2 ^ 40 →
      externalAad alg kid n = externalAad alg kid' n' → kid = kid' ∧ n = n') ∧
    (∀ (alg : Nat) (id id' context context' type type' : List UInt8) (length length' : Nat),
      alg ≤ 255 → id.length ≤ 255 → id'.length ≤ 255 → context.length ≤ 255 →
      context'.length ≤ 255 → type.length ≤ 23 → type'.length ≤ 23 → length ≤ 255 →
      length' ≤ 255 →
      oscoreInfo id context alg type length = oscoreInfo id' context' alg type' length' →
      id = id' ∧ context = context' ∧ type = type' ∧ length = length') ∧
    (∀ (hmac : Hmac) (ms salt s s' r r' context context' : List UInt8) (ctx ctx' : OscoreContext)
      (n n' : Nat), s.length ≤ 7 → s'.length ≤ 7 → context.length ≤ 255 → context'.length ≤ 255 →
      n < 2 ^ 40 → n' < 2 ^ 40 →
      deriveOscoreContext hmac ms salt s r context = .ok ctx →
      deriveOscoreContext hmac ms salt s' r' context' = .ok ctx' →
      (senderInfo ctx >>= (Py.hkdfExpand hmac (hkdfExtract hmac (some salt) ms) · oscoreKeyLen)) =
        .ok ctx.senderKey ∧
      ((s, n) ≠ (s', n') →
        (senderInfo ctx, senderNonce ctx n) ≠ (senderInfo ctx', senderNonce ctx' n'))) ∧
    (∀ id context context' : List UInt8, id.length ≤ 255 → context.length ≤ 255 →
      context'.length ≤ 255 →
      oscoreInfo [] context oscoreAeadAlg (octetsOf "IV") oscoreIvLen ≠
        oscoreInfo id context' oscoreAeadAlg (octetsOf "Key") oscoreKeyLen) := by
  refine ⟨?_, ?_, ?_, ?_, ?_⟩
  · intro commonIv id id' n n' iv short short' fits fits' same
    rw [oscoreNonce_eq fits short, oscoreNonce_eq fits' short'] at same
    exact nonceOf_inj iv short short' fits fits' (Except.ok.inj same)
  · intro alg kid kid' n n' fits fits' same
    rw [externalAad, externalAad, toBytes5_eq fits, toBytes5_eq fits'] at same
    exact aad_inj fits fits' (Except.ok.inj same)
  · intro alg id id' context context' type type' length length' algFits idFits idFits' contextFits
      contextFits' typeFits typeFits' fits fits' same
    rw [oscoreInfo_eq_infoOf (by omega) (by omega) (by omega) (by omega) (by omega),
      oscoreInfo_eq_infoOf (by omega) (by omega) (by omega) (by omega) (by omega)] at same
    obtain ⟨ids, contexts, -, rest⟩ := infoOf_inj (by omega) (by omega) (by omega) (by omega)
      (by omega) (by omega) (by omega) (by omega) (by omega) (by omega) (Except.ok.inj same)
    exact ⟨ids, contexts, rest⟩
  · intro hmac ms salt s s' r r' context context' ctx ctx' n n' short short' contextFits
      contextFits' fits fits' ok ok'
    have derived := derived_of_ok ok
    refine ⟨?_, fun other shared => other ?_⟩
    · have key := derived.senderKey
      rw [expandInfo, ← derived.ids.1, ← derived.ids.2.2] at key
      exact key
    · obtain ⟨infos, nonces⟩ := Prod.mk.inj shared
      obtain ⟨rfl, rfl⟩ := derived.sender_inj (derived_of_ok ok') short short' fits fits'
        (by omega) (by omega) infos nonces
      rfl
  · intro id context context' idFits contextFits contextFits' same
    rw [oscoreInfo_eq_infoOf (by decide) (by omega) (by decide) (by decide) (by decide),
      oscoreInfo_eq_infoOf (by omega) (by omega) (by decide) (by decide) (by decide)] at same
    obtain ⟨-, -, -, -, sizes⟩ := infoOf_inj (by decide) (by omega) (by omega) (by omega)
      (by decide) (by decide) (by decide) (by decide) (by decide) (by decide) (Except.ok.inj same)
    exact absurd sizes (by decide)

/-- The empty identifier and one of a zero, a separator in an identifier, the two forms of a CBOR
head, and the two ends of the first contact. -/
theorem oscore_separation_first_contact :
    oscoreNonce (List.replicate 13 0x5a) [] 1 ≠ oscoreNonce (List.replicate 13 0x5a) [0] 1 ∧
    externalAad oscoreAeadAlg (octetsOf "|") 1 ≠ externalAad oscoreAeadAlg [] 1 ∧
    oscoreInfo (List.replicate 23 0) [] oscoreAeadAlg (octetsOf "Key") 16 ≠
      oscoreInfo (List.replicate 24 0) [] oscoreAeadAlg (octetsOf "Key") 16 ∧
    (senderInfo (contextFor Sha256.hmac (List.replicate 64 0x0b) 1 0),
        senderNonce (contextFor Sha256.hmac (List.replicate 64 0x0b) 1 0) 1) ≠
      (senderInfo (contextFor Sha256.hmac (List.replicate 64 0x0b) 0 1),
        senderNonce (contextFor Sha256.hmac (List.replicate 64 0x0b) 0 1) 1) ∧
    oscoreInfo [] [] oscoreAeadAlg (octetsOf "IV") oscoreIvLen ≠
      oscoreInfo [] [] oscoreAeadAlg (octetsOf "Key") oscoreKeyLen := by
  obtain ⟨nonces, aads, infos, contexts, iv⟩ := oscore_separation
  refine ⟨fun same => ?_, fun same => ?_, fun same => ?_, ?_, ?_⟩
  · have equal := nonces _ _ _ _ _ (by decide) (by decide) (by decide) (by decide) (by decide) same
    exact absurd equal.1 (by decide)
  · have equal := aads _ _ _ _ _ (by decide) (by decide) same
    exact absurd equal.1 (by decide)
  · have equal := infos _ _ _ _ _ _ _ _ _ (by decide) (by decide) (by decide) (by decide)
      (by decide) (by decide) (by decide) (by decide) (by decide) same
    exact absurd equal.1 (by decide)
  · exact (contexts Sha256.hmac _ _ [1] [0] [0] [1] [] [] _ _ 1 1 (by decide) (by decide)
      (by decide) (by decide) (by decide) (by decide) (deriveOscoreContext_eq _ _ 1 0)
      (deriveOscoreContext_eq _ _ 0 1)).2 (by decide)
  · exact iv [] [] [] (by decide) (by decide) (by decide)

end EdhocAuth.Bootstrap
