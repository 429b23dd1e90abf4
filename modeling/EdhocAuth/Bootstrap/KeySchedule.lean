/-
The key schedule of the bootstrapping, written twice: `bootstrap.c` for the peers of the
handshake and `keyschedule.py` for the Application Server.

HMAC-SHA256 is a parameter, the same for both. The loops of both languages are shown to compute
`Prf.expand`; they differ in their counters, which wrap in C and raise an exception in Python
behind 255. `schedules_agree`: for every output of up to 255 blocks the two chains of
derivations give the same octets.
-/

import EdhocAuth.Lib.Octets
import EdhocAuth.Lib.Prf
import EdhocAuth.Lib.Sha256

namespace EdhocAuth.Bootstrap

open Octets

/-- HMAC-SHA256: key and message. -/
abbrev Hmac : Type := List UInt8 → List UInt8 → Block UInt8 32

def octetsOf (s : String) : List UInt8 := s.toList.map fun c => UInt8.ofNat c.toNat

/-! ### `bootstrap.c` -/

namespace C

/-- `BK_ERR_ARG` -/
inductive Error where
  | arg
deriving DecidableEq

abbrev oscoreMsLen : Nat := 16

abbrev oscoreSaltLen : Nat := 8

abbrev oscoreKeyLen : Nat := 16

abbrev oscoreIvLen : Nat := 13

def oscoreAeadAlg : UInt8 := 10

def usrkKeyLabel : CString := ⟨octetsOf "usrk@example.org,ekeylabel=EAP-EDHOC", by decide⟩

def dsrkDomainLabel : CString := ⟨octetsOf "dsrk@app-domain.example.org", by decide⟩

/-- The variables of the loops: the octets of `t` that count, `ctr`, and what has been written. -/
structure Loop where
  t : List UInt8
  ctr : UInt8
  okm : List UInt8

structure OscoreCtx where
  masterSecret : List UInt8
  masterSalt : List UInt8
  senderKey : List UInt8
  recipientKey : List UInt8
  commonIv : List UInt8
  senderId : UInt8
  recipientId : UInt8
deriving DecidableEq

variable (hmac : Hmac)

/-- The body of the loop in `hkdf_expand` and in `rfc5295_prf_plus`. -/
def Loop.step (key info : List UInt8) (okmLen : Nat) (s : Loop) : Loop :=
  let t := (hmac key (s.t ++ info ++ [s.ctr])).toList
  let take := if okmLen - s.okm.length < 32 then okmLen - s.okm.length else 32
  { t := t, ctr := s.ctr + 1, okm := s.okm ++ t.take take }

/-- `while (done < okm_len)`, for at most `fuel` iterations. -/
def Loop.run (key info : List UInt8) (okmLen : Nat) : Nat → Loop → Loop
  | 0, s => s
  | fuel + 1, s =>
    if s.okm.length < okmLen then run key info okmLen fuel (s.step hmac key info okmLen) else s

/-- `hkdf_expand`. An iteration writes an octet at least. -/
def hkdfExpand (prk info : List UInt8) (okmLen : Nat) : List UInt8 :=
  (Loop.run hmac prk info okmLen okmLen ⟨[], 1, []⟩).okm

def hkdfExtract (salt ikm : List UInt8) : List UInt8 := (hmac salt ikm).toList

/-- `rfc5295_prf_plus`; `s` has 256 octets. -/
def rfc5295PrfPlus (key : List UInt8) (label : CString) (outLen : Nat) :
    Except Error (List UInt8) :=
  if 256 < label.strlen + 1 + 2 ∨ 0xFFFF < outLen then .error .arg
  else
    let s := label.octets ++ [0x00] ++ Octets.ofNat 2 outLen
    .ok (Loop.run hmac key s outLen outLen ⟨[], 1, []⟩).okm

/-- `bk_derive_usrk`; no label is the default one. -/
def bkDeriveUsrk (emsk : List UInt8) (keyLabel : Option CString) (usrkLen : Nat) :
    Except Error (List UInt8) :=
  if emsk.length < 32 then .error .arg
  else rfc5295PrfPlus hmac emsk (keyLabel.getD usrkKeyLabel) usrkLen

def bkDeriveDsrk (parent : List UInt8) (domainLabel : Option CString) (dsrkLen : Nat) :
    Except Error (List UInt8) :=
  if parent.length < 32 then .error .arg
  else rfc5295PrfPlus hmac parent (domainLabel.getD dsrkDomainLabel) dsrkLen

def bkDeriveOscoreMasterSecret (dsrk : List UInt8) : Except Error (List UInt8) :=
  if dsrk.length < 32 then .error .arg
  else .ok (hkdfExpand hmac dsrk (octetsOf "OSCORE Master Secret") oscoreMsLen)

def bkDeriveOscoreMasterSalt (dsrk : List UInt8) : Except Error (List UInt8) :=
  if dsrk.length < 32 then .error .arg
  else .ok (hkdfExpand hmac dsrk (octetsOf "OSCORE Master Salt") oscoreSaltLen)

def oscoreInfo (id : List UInt8) (typeStr : List UInt8) (length : Nat) : List UInt8 :=
  [0x85, 0x40 ||| UInt8.ofNat id.length] ++ id ++
    [0x40, oscoreAeadAlg, 0x60 ||| UInt8.ofNat typeStr.length] ++
    typeStr ++ [UInt8.ofNat length]

def bkDeriveOscoreContext (ms salt : List UInt8) (senderId recipientId : UInt8) : OscoreCtx :=
  let prk := hkdfExtract hmac salt ms
  { masterSecret := ms
    masterSalt := salt
    senderKey :=
      hkdfExpand hmac prk (oscoreInfo [senderId] (octetsOf "Key") oscoreKeyLen) oscoreKeyLen
    recipientKey :=
      hkdfExpand hmac prk (oscoreInfo [recipientId] (octetsOf "Key") oscoreKeyLen) oscoreKeyLen
    commonIv := hkdfExpand hmac prk (oscoreInfo [] (octetsOf "IV") oscoreIvLen) oscoreIvLen
    senderId := senderId
    recipientId := recipientId }

def bkOscoreCtxFromDsrk (dsrk : List UInt8) (senderId recipientId : UInt8) :
    Except Error OscoreCtx := do
  let ms ← bkDeriveOscoreMasterSecret hmac dsrk
  let salt ← bkDeriveOscoreMasterSalt hmac dsrk
  return bkDeriveOscoreContext hmac ms salt senderId recipientId

end C

/-! ### `keyschedule.py` -/

namespace Py

/-- The exceptions that can be raised: those of the module with their texts, and those of `bytes`
and `struct.pack`. -/
inductive Error where
  | valueError (text : String)
  | bytesRange
  | structError
deriving DecidableEq

def usrkKeyLabel : List UInt8 := octetsOf "usrk@example.org,ekeylabel=EAP-EDHOC"

def dsrkDomainLabel : List UInt8 := octetsOf "dsrk@app-domain.example.org"

def oscoreMasterSecretLabel : List UInt8 := octetsOf "OSCORE Master Secret"

def oscoreMasterSaltLabel : List UInt8 := octetsOf "OSCORE Master Salt"

abbrev oscoreAeadAlg : Nat := 10

abbrev oscoreKeyLen : Nat := 16

abbrev oscoreIvLen : Nat := 13

abbrev oscoreMasterSecretLen : Nat := 16

abbrev oscoreMasterSaltLen : Nat := 8

def bytes (n : Nat) : Except Error (List UInt8) :=
  if n < 256 then .ok [UInt8.ofNat n] else .error .bytesRange

def packH (n : Nat) : Except Error (List UInt8) :=
  if n < 65536 then .ok (Octets.ofNat 2 n) else .error .structError

/-- `OscoreContext`; `alg_aead` and `tag_len` have their defaults. -/
structure OscoreContext where
  masterSecret : List UInt8
  masterSalt : List UInt8
  senderId : List UInt8
  recipientId : List UInt8
  idContext : List UInt8
  senderKey : List UInt8
  recipientKey : List UInt8
  commonIv : List UInt8
deriving DecidableEq

variable (hmac : Hmac)

/-- `hkdf_extract`; no salt is a salt of zeros. -/
def hkdfExtract (salt : Option (List UInt8)) (ikm : List UInt8) : List UInt8 :=
  (hmac (salt.getD (List.replicate 32 0)) ikm).toList

/-- `while len(okm) < length`, for at most `fuel` iterations: `okm` from `okm`, `t` and
`counter`. -/
def loop (key info : List UInt8) (length : Nat) :
    Nat → List UInt8 → List UInt8 → Nat → Except Error (List UInt8)
  | 0, okm, _, _ => .ok okm
  | fuel + 1, okm, t, counter =>
    if okm.length < length then do
      let octet ← bytes counter
      let t := (hmac key (t ++ info ++ octet)).toList
      loop key info length fuel (okm ++ t) t (counter + 1)
    else .ok okm

def hkdfExpand (prk info : List UInt8) (length : Nat) : Except Error (List UInt8) := do
  let okm ← loop hmac prk info length length [] [] 1
  return okm.take length

def rfc5295PrfPlus (key label optionalData : List UInt8) (length : Nat) :
    Except Error (List UInt8) := do
  let packed ← packH length
  let s := label ++ [0x00] ++ optionalData ++ packed
  let out ← loop hmac key s length length [] [] 1
  return out.take length

def deriveUsrk (emsk keyLabel : List UInt8) (keyLength : Nat) (optionalData : List UInt8) :
    Except Error (List UInt8) :=
  if emsk = [] ∨ emsk.length < 32 then .error (.valueError "EMSK too short")
  else rfc5295PrfPlus hmac emsk keyLabel optionalData keyLength

def deriveDsrk (parentKey domainLabel : List UInt8) (keyLength : Nat) (optionalData : List UInt8) :
    Except Error (List UInt8) :=
  if parentKey = [] ∨ parentKey.length < 32 then .error (.valueError "parent key too short")
  else rfc5295PrfPlus hmac parentKey domainLabel optionalData keyLength

def deriveOscoreMasterSecret (dsrk : List UInt8) : Except Error (List UInt8) :=
  hkdfExpand hmac dsrk oscoreMasterSecretLabel oscoreMasterSecretLen

def deriveOscoreMasterSalt (dsrk : List UInt8) : Except Error (List UInt8) :=
  hkdfExpand hmac dsrk oscoreMasterSaltLabel oscoreMasterSaltLen

def cborBstr (b : List UInt8) : Except Error (List UInt8) :=
  if b.length < 24 then .ok ([0x40 ||| UInt8.ofNat b.length] ++ b)
  else if b.length < 256 then .ok ([0x58, UInt8.ofNat b.length] ++ b)
  else .error (.valueError "bstr too long for this helper")

def cborTstr (s : List UInt8) : Except Error (List UInt8) :=
  if s.length < 24 then .ok ([0x60 ||| UInt8.ofNat s.length] ++ s)
  else .error (.valueError "tstr too long for this helper")

def cborUint (n : Nat) : Except Error (List UInt8) :=
  if n < 24 then .ok [UInt8.ofNat n]
  else if n < 256 then .ok [0x18, UInt8.ofNat n]
  else .error (.valueError "uint too big for this helper")

def oscoreInfo (idBytes idContext : List UInt8) (alg : Nat) (typeStr : List UInt8) (length : Nat) :
    Except Error (List UInt8) := do
  let id ← cborBstr idBytes
  let context ← cborBstr idContext
  let algorithm ← cborUint alg
  let type ← cborTstr typeStr
  let size ← cborUint length
  return [0x85] ++ id ++ context ++ algorithm ++ type ++ size

/-- A key of the context: the `info` for an identifier, and its expansion. -/
def expandInfo (prk id idContext typeStr : List UInt8) (length : Nat) :
    Except Error (List UInt8) := do
  let info ← oscoreInfo id idContext oscoreAeadAlg typeStr length
  hkdfExpand hmac prk info length

def deriveOscoreContext (masterSecret masterSalt senderId recipientId idContext : List UInt8) :
    Except Error OscoreContext := do
  let prk := hkdfExtract hmac (some masterSalt) masterSecret
  let senderKey ← expandInfo hmac prk senderId idContext (octetsOf "Key") oscoreKeyLen
  let recipientKey ← expandInfo hmac prk recipientId idContext (octetsOf "Key") oscoreKeyLen
  let commonIv ← expandInfo hmac prk [] idContext (octetsOf "IV") oscoreIvLen
  return ⟨masterSecret, masterSalt, senderId, recipientId, idContext, senderKey, recipientKey,
    commonIv⟩

def oscoreContextFromDsrk (dsrk senderId recipientId idContext : List UInt8) :
    Except Error OscoreContext := do
  let ms ← deriveOscoreMasterSecret hmac dsrk
  let salt ← deriveOscoreMasterSalt hmac dsrk
  deriveOscoreContext hmac ms salt senderId recipientId idContext

end Py

/-! ### The loops -/

section Loops

variable (hmac : Hmac) (key info : List UInt8)

def okm (length : Nat) : List UInt8 := (Prf.expand (hmac key) info length).take length

/-- Blocks that are cut off do not matter. -/
theorem okm_eq {length n : Nat} (enough : length ≤ n * 32) :
    (Prf.expand (hmac key) info n).take length = okm hmac key info length :=
  Prf.take_expand_eq (hmac key) info enough (by omega)

theorem length_okm (length : Nat) : (okm hmac key info length).length = length := by
  rw [okm, List.length_take, Prf.length_expand]
  omega

/-- The loop in C after `n` blocks. -/
structure C.Loop.After (length n : Nat) (s : C.Loop) : Prop where
  t : s.t = Prf.block (hmac key) info n
  ctr : s.ctr = UInt8.ofNat (n + 1)
  okm : s.okm = (Prf.expand (hmac key) info n).take length

variable {hmac key info}

/-- One iteration of the loop in C writes one block, the last one cut. -/
theorem C.Loop.After.step {length n : Nat} {s : C.Loop}
    (here : C.Loop.After hmac key info length n s) (more : s.okm.length < length) :
    C.Loop.After hmac key info length (n + 1) (s.step hmac key info length) := by
  have before : n * 32 < length := by
    rw [here.okm, List.length_take, Prf.length_expand] at more
    omega
  have done : s.okm = Prf.expand (hmac key) info n := by
    rw [here.okm]
    exact List.take_of_length_le (by rw [Prf.length_expand]; omega)
  have block : (hmac key (s.t ++ info ++ [s.ctr])).toList = Prf.block (hmac key) info (n + 1) := by
    rw [here.t, here.ctr]
    rfl
  have take :
      (if length - s.okm.length < 32 then length - s.okm.length else 32) =
        min (length - n * 32) 32 := by
    rw [done, Prf.length_expand]
    split <;> omega
  have cut : (Prf.block (hmac key) info (n + 1)).take (min (length - n * 32) 32) =
      (Prf.block (hmac key) info (n + 1)).take (length - n * 32) := by
    rw [List.take_eq_take_iff, Prf.length_block]
    omega
  refine ⟨block, ?_, ?_⟩
  · show s.ctr + 1 = _
    rw [here.ctr, UInt8.ofNat_add (n + 1) 1]
    rfl
  · show s.okm ++ (hmac key (s.t ++ info ++ [s.ctr])).toList.take _ = _
    rw [take, block, cut, done, Prf.take_expand_succ (hmac key) info (by omega)]

/-- The loop in C goes on until there are enough blocks. -/
theorem C.Loop.After.run {length n fuel : Nat} {s : C.Loop}
    (here : C.Loop.After hmac key info length n s) (enough : length ≤ (n + fuel) * 32) :
    (C.Loop.run hmac key info length fuel s).okm = Bootstrap.okm hmac key info length := by
  induction fuel generalizing n s with
  | zero =>
    show s.okm = _
    rw [here.okm, okm_eq hmac key info (by simpa using enough)]
  | succ fuel ih =>
    rw [C.Loop.run]
    split
    · next more =>
      exact ih (here.step more) (by rw [Nat.add_right_comm, Nat.add_assoc]; exact enough)
    · next done =>
      rw [here.okm, List.length_take, Prf.length_expand] at done
      rw [here.okm, okm_eq hmac key info (by omega)]

/-- The loop in C computes the output of both loops. -/
theorem C.run_eq (length : Nat) :
    (C.Loop.run hmac key info length length ⟨[], 1, []⟩).okm = Bootstrap.okm hmac key info length :=
  C.Loop.After.run (n := 0) ⟨rfl, rfl, List.take_nil.symm⟩ (by omega)

/-- The loop in Python after `n` blocks. It makes no block with a counter behind 255. -/
theorem Py.loop_eq {length n fuel : Nat} (limit : length ≤ 255 * 32)
    (enough : length ≤ (n + fuel) * 32) :
    ∃ m, length ≤ m * 32 ∧ Py.loop hmac key info length fuel (Prf.expand (hmac key) info n)
      (Prf.block (hmac key) info n) (n + 1) = .ok (Prf.expand (hmac key) info m) := by
  induction fuel generalizing n with
  | zero => exact ⟨n, by simpa using enough, rfl⟩
  | succ fuel ih =>
    rw [Py.loop, Prf.length_expand]
    split
    · next more =>
      have octet : Py.bytes (n + 1) = .ok [UInt8.ofNat (n + 1)] := if_pos (by omega)
      rw [octet]
      exact ih (by rw [Nat.add_right_comm, Nat.add_assoc]; exact enough)
    · next done => exact ⟨n, by omega, rfl⟩

/-- The loop in Python computes it, up to 255 blocks. -/
theorem Py.take_loop {length : Nat} (limit : length ≤ 255 * 32) :
    (do
      let out ← Py.loop hmac key info length length [] [] 1
      return out.take length : Except Py.Error (List UInt8)) =
        .ok (Bootstrap.okm hmac key info length) := by
  have looped : ∃ m, length ≤ m * 32 ∧
      Py.loop hmac key info length length [] [] 1 = .ok (Prf.expand (hmac key) info m) :=
    Py.loop_eq (n := 0) limit (by omega)
  obtain ⟨m, enough, out⟩ := looped
  rw [out, ← okm_eq hmac key info enough]
  rfl

end Loops

/-! ### The derivations -/

section Derivations

variable (hmac : Hmac)

/-- `S` of RFC 5295 without optional data. -/
def prfSeed (label : List UInt8) (length : Nat) : List UInt8 :=
  label ++ [0x00] ++ Octets.ofNat 2 length

variable {hmac} {key : List UInt8} {label : CString} {length : Nat}

/-- PRF+ in C, for labels and lengths that fit. -/
theorem C.rfc5295PrfPlus_eq (short : label.strlen ≤ 253) (limit : length ≤ 65535) :
    C.rfc5295PrfPlus hmac key label length =
      .ok (okm hmac key (prfSeed label.octets length) length) := by
  rw [C.rfc5295PrfPlus, if_neg (by omega)]
  dsimp only
  rw [C.run_eq]
  rfl

/-- PRF+ in Python, up to 255 blocks. -/
theorem Py.rfc5295PrfPlus_eq (limit : length ≤ 255 * 32) :
    Py.rfc5295PrfPlus hmac key label.octets [] length =
      .ok (okm hmac key (prfSeed label.octets length) length) := by
  have packed : Py.packH length = .ok (Octets.ofNat 2 length) := if_pos (by omega)
  have seed :
      label.octets ++ [0x00] ++ [] ++ Octets.ofNat 2 length = prfSeed label.octets length := by
    rw [List.append_nil]
    rfl
  rw [Py.rfc5295PrfPlus, packed]
  exact (congrArg (fun s => do
    let out ← Py.loop hmac key s length length [] [] 1
    return out.take length) seed).trans (Py.take_loop limit)

/-- HKDF-Expand in C. -/
theorem C.hkdfExpand_eq (prk info : List UInt8) :
    C.hkdfExpand hmac prk info length = okm hmac prk info length :=
  C.run_eq length

/-- HKDF-Expand in Python, up to 255 blocks. -/
theorem Py.hkdfExpand_eq (prk info : List UInt8) (limit : length ≤ 255 * 32) :
    Py.hkdfExpand hmac prk info length = .ok (okm hmac prk info length) :=
  Py.take_loop limit

/-- The two encodings of `info` for an identifier that fits into the initial octet. -/
theorem oscoreInfo_eq {id type : List UInt8} {size : Nat} (idFits : id.length < 24)
    (typeFits : type.length < 24) (sizeFits : size < 24) :
    Py.oscoreInfo id [] Py.oscoreAeadAlg type size = .ok (C.oscoreInfo id type size) := by
  rw [Py.oscoreInfo, Py.cborBstr, if_pos idFits, Py.cborTstr, if_pos typeFits, Py.cborUint,
    Py.cborUint, if_pos sizeFits]
  show Except.ok _ = Except.ok (C.oscoreInfo id type size)
  simp only [C.oscoreInfo, C.oscoreAeadAlg, List.append_assoc, List.cons_append, List.nil_append]
  rfl

/-- A key of the context is the same in Python and in C, for parts that fit. -/
theorem Py.expandInfo_eq {prk id type : List UInt8} (idFits : id.length < 24)
    (typeFits : type.length < 24) (fits : length < 24) :
    Py.expandInfo hmac prk id [] type length =
      .ok (C.hkdfExpand hmac prk (C.oscoreInfo id type length) length) := by
  rw [Py.expandInfo, oscoreInfo_eq idFits typeFits fits, C.hkdfExpand_eq]
  exact Py.hkdfExpand_eq prk _ (by omega)

/-- Both languages take a key of 32 octets. -/
theorem key_accepted (long : 32 ≤ key.length) : ¬ (key = [] ∨ key.length < 32) := by
  rintro (rfl | short)
  · exact absurd long (by decide)
  · omega

/-- The context of the C code in the words of the Python code. -/
def C.OscoreCtx.toPy (ctx : C.OscoreCtx) : Py.OscoreContext where
  masterSecret := ctx.masterSecret
  masterSalt := ctx.masterSalt
  senderId := [ctx.senderId]
  recipientId := [ctx.recipientId]
  idContext := []
  senderKey := ctx.senderKey
  recipientKey := ctx.recipientKey
  commonIv := ctx.commonIv

/-- The context of a master secret is the same in Python and in C. -/
theorem Py.deriveOscoreContext_eq (ms salt : List UInt8) (senderId recipientId : UInt8) :
    Py.deriveOscoreContext hmac ms salt [senderId] [recipientId] [] =
      .ok (C.bkDeriveOscoreContext hmac ms salt senderId recipientId).toPy := by
  have single (id : UInt8) : [id].length < 24 := Nat.lt_of_sub_eq_succ rfl
  rw [Py.deriveOscoreContext, Py.expandInfo_eq (single senderId) (by decide) (by decide),
    Py.expandInfo_eq (single recipientId) (by decide) (by decide),
    Py.expandInfo_eq (by decide) (by decide) (by decide)]
  rfl

/-- The context of a DSRK, in the words of the C code. -/
def contextOf (hmac : Hmac) (dsrk : List UInt8) (senderId recipientId : UInt8) : C.OscoreCtx :=
  C.bkDeriveOscoreContext hmac (okm hmac dsrk Py.oscoreMasterSecretLabel 16)
    (okm hmac dsrk Py.oscoreMasterSaltLabel 8) senderId recipientId

/-- The context of a DSRK in C. -/
theorem C.bkOscoreCtxFromDsrk_eq {dsrk : List UInt8} (long : 32 ≤ dsrk.length)
    (senderId recipientId : UInt8) :
    C.bkOscoreCtxFromDsrk hmac dsrk senderId recipientId =
      .ok (contextOf hmac dsrk senderId recipientId) := by
  have secret :
      C.bkDeriveOscoreMasterSecret hmac dsrk =
        .ok (okm hmac dsrk Py.oscoreMasterSecretLabel 16) := by
    rw [C.bkDeriveOscoreMasterSecret, if_neg (by omega), C.hkdfExpand_eq]
    rfl
  have salt :
      C.bkDeriveOscoreMasterSalt hmac dsrk = .ok (okm hmac dsrk Py.oscoreMasterSaltLabel 8) := by
    rw [C.bkDeriveOscoreMasterSalt, if_neg (by omega), C.hkdfExpand_eq]
    rfl
  rw [C.bkOscoreCtxFromDsrk, secret, salt]
  rfl

/-- The Python code does not look at the length of the DSRK. -/
theorem Py.oscoreContextFromDsrk_eq (hmac : Hmac) (dsrk : List UInt8)
    (senderId recipientId : UInt8) :
    Py.oscoreContextFromDsrk hmac dsrk [senderId] [recipientId] [] =
      .ok (contextOf hmac dsrk senderId recipientId).toPy := by
  have secret :
      Py.deriveOscoreMasterSecret hmac dsrk = .ok (okm hmac dsrk Py.oscoreMasterSecretLabel 16) :=
    Py.hkdfExpand_eq _ _ (by decide)
  have salt :
      Py.deriveOscoreMasterSalt hmac dsrk = .ok (okm hmac dsrk Py.oscoreMasterSaltLabel 8) :=
    Py.hkdfExpand_eq _ _ (by decide)
  rw [Py.oscoreContextFromDsrk, secret, salt]
  exact Py.deriveOscoreContext_eq _ _ senderId recipientId

end Derivations

/-- Both key schedules succeed, with the same USRK, DSRK and OSCORE context. -/
theorem schedules_agree (hmac : Hmac) {emsk : List UInt8} {keyLabel domainLabel : CString}
    {usrkLen dsrkLen : Nat} (senderId recipientId : UInt8) (long : 32 ≤ emsk.length)
    (keyFits : keyLabel.strlen ≤ 253) (domainFits : domainLabel.strlen ≤ 253)
    (usrkSize : 32 ≤ usrkLen ∧ usrkLen ≤ 8160) (dsrkSize : 32 ≤ dsrkLen ∧ dsrkLen ≤ 8160) :
    ∃ usrk dsrk ctx,
      C.bkDeriveUsrk hmac emsk (some keyLabel) usrkLen = .ok usrk ∧
      Py.deriveUsrk hmac emsk keyLabel.octets usrkLen [] = .ok usrk ∧
      C.bkDeriveDsrk hmac usrk (some domainLabel) dsrkLen = .ok dsrk ∧
      Py.deriveDsrk hmac usrk domainLabel.octets dsrkLen [] = .ok dsrk ∧
      C.bkOscoreCtxFromDsrk hmac dsrk senderId recipientId = .ok ctx ∧
      Py.oscoreContextFromDsrk hmac dsrk [senderId] [recipientId] [] = .ok ctx.toPy := by
  let usrk := okm hmac emsk (prfSeed keyLabel.octets usrkLen) usrkLen
  let dsrk := okm hmac usrk (prfSeed domainLabel.octets dsrkLen) dsrkLen
  have usrkLong : 32 ≤ usrk.length := usrkSize.1.trans_eq (length_okm ..).symm
  have dsrkLong : 32 ≤ dsrk.length := dsrkSize.1.trans_eq (length_okm ..).symm
  refine ⟨usrk, dsrk, contextOf hmac dsrk senderId recipientId, ?_, ?_, ?_, ?_,
    C.bkOscoreCtxFromDsrk_eq dsrkLong senderId recipientId,
    Py.oscoreContextFromDsrk_eq hmac dsrk senderId recipientId⟩
  · rw [C.bkDeriveUsrk, if_neg (by omega)]
    exact C.rfc5295PrfPlus_eq keyFits (by omega)
  · rw [Py.deriveUsrk, if_neg (key_accepted long)]
    exact Py.rfc5295PrfPlus_eq usrkSize.2
  · rw [C.bkDeriveDsrk, if_neg (by omega)]
    exact C.rfc5295PrfPlus_eq domainFits (by omega)
  · rw [Py.deriveDsrk, if_neg (key_accepted usrkLong)]
    exact Py.rfc5295PrfPlus_eq dsrkSize.2

/-- The default labels, an EMSK of 64 octets, the largest USRK and a DSRK of 64 octets. -/
theorem schedules_agree_defaults :
    ∃ usrk dsrk ctx,
      C.bkDeriveUsrk Sha256.hmac (List.replicate 64 0x0b) (some C.usrkKeyLabel) 8160 = .ok usrk ∧
      Py.deriveUsrk Sha256.hmac (List.replicate 64 0x0b) Py.usrkKeyLabel 8160 [] = .ok usrk ∧
      C.bkDeriveDsrk Sha256.hmac usrk (some C.dsrkDomainLabel) 64 = .ok dsrk ∧
      Py.deriveDsrk Sha256.hmac usrk Py.dsrkDomainLabel 64 [] = .ok dsrk ∧
      C.bkOscoreCtxFromDsrk Sha256.hmac dsrk 1 0 = .ok ctx ∧
      Py.oscoreContextFromDsrk Sha256.hmac dsrk [1] [0] [] = .ok ctx.toPy :=
  schedules_agree Sha256.hmac 1 0 (by decide) (by decide) (by decide) ⟨by decide, by decide⟩
    ⟨by decide, by decide⟩

end EdhocAuth.Bootstrap
