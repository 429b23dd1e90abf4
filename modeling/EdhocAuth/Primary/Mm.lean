/-
Primary authentication in the UE: `ue/nas/mm/auth.cpp` of UERANSIM, for 5G-AKA and EAP-AKA'.

Both procedures check AUTN with `validateAutn` and share the sequence numbers, the stored RAND and
the counter of consecutive failures. `validateAutn` lets `checkSqn` store the received number before
it looks at the MAC, and takes the AMF of the configuration into the MAC, not the received one.

The state is what the two procedures read and write. What the other procedures of `NasMm` do to it
comes with the input `procedure`: they may leave any security contexts, and may delete RAND and
RES*. The random values of the modes of EAP-AKA' come with the message. The timers are left out:
T3516 deletes RAND and RES*, as `procedure` does, and T3520 releases the connection only.
-/

import EdhocAuth.Aka.Response
import EdhocAuth.Lib.Machine
import EdhocAuth.Primary.Keys
import EdhocAuth.Primary.Sqn

namespace EdhocAuth.Primary

open Octets Aka Eap

/-! ### Configuration and MILENAGE -/

inductive OpType where
  | op
  | opc
deriving DecidableEq

/-- The subscription in `UeConfig`; `supi` is the value of the SUPI. -/
structure UeConfig where
  key : Block UInt8 16
  opC : Block UInt8 16
  opType : OpType
  amf : Block UInt8 2
  supi : CString

structure Milenage where
  macA : Block UInt8 8
  macS : Block UInt8 8
  res : Block UInt8 8
  ck : Block UInt8 16
  ik : Block UInt8 16
  ak : Block UInt8 6
  akR : Block UInt8 6

def calculate (aes : Cipher) (opc key rand : Block UInt8 16) (sqn : Block UInt8 6)
    (amf : Block UInt8 2) : Milenage :=
  let f1 := milenageF1 aes ueRotations opc key rand sqn amf
  let f := milenageF2345 aes ueRotations opc key rand
  { macA := f1.1, macS := f1.2, res := f.res, ck := f.ck, ik := f.ik, ak := f.ak, akR := f.akstar }

def UeConfig.opcOf (aes : Cipher) (cfg : UeConfig) : Block UInt8 16 :=
  match cfg.opType with
  | .opc => cfg.opC
  | .op => milenageOpc aes cfg.key cfg.opC

def calculateMilenage (aes : Cipher) (cfg : UeConfig) (sqn : Block UInt8 6) (rand : Block UInt8 16)
    (dummyAmf : Bool) : Milenage :=
  let amf := if dummyAmf then Block.fill 2 0 else cfg.amf
  calculate aes (cfg.opcOf aes) cfg.key rand sqn amf

/-! ### State and messages -/

structure NasSecurityContext where
  mapped : Bool
  ngKsi : Nat
  kAusf : List UInt8
  kSeaf : List UInt8
  kAmf : List UInt8
  abba : List UInt8

structure NgKsi where
  mapped : Bool
  ksi : Nat

def ksiNotAvailable : Nat := 7

/-- `nas::AuthenticationRequest`; an EAP message IE may hold no packet. -/
structure AuthenticationRequest where
  ngKSI : NgKsi
  abba : List UInt8
  authParamRAND : Option (List UInt8)
  authParamAUTN : Option (List UInt8)
  eapMessage : Option (Option EapPdu)

/-- The members of `NasMm` and of its USIM that authentication reads and writes. `currentSnn` is the
name of the serving network of the current PLMN, if there is one. `nwConsecutiveAuthFailure` is an
`int` that is only counted up from 0, or set to 0. -/
structure NasMm where
  sqnMng : SqnManager
  rand : List UInt8
  resStar : List UInt8
  currentNsCtx : Option NasSecurityContext
  nonCurrentNsCtx : Option NasSecurityContext
  nwConsecutiveAuthFailure : Nat
  valid : Bool
  currentSnn : Option CString
  connected : Bool

inductive EAutnValidationRes where
  | ok
  | macFailure
  | amfSeparationBitFailure
  | synchronisationFailure
deriving DecidableEq

/-- The causes of `EMmCause` that authentication sends. -/
inductive EMmCause where
  | macFailure
  | synchFailure
  | non5gAuthenticationUnacceptable
  | ngksiAlreadyInUse
  | semanticallyIncorrectMessage
  | unspecifiedProtocolError
deriving DecidableEq

/-- What the UE does. `release` is `localReleaseConnection`. -/
inductive MmOutput where
  | authenticationResponse (resStar : List UInt8)
  | authenticationFailure (cause : EMmCause) (auts : Option (List UInt8))
  | eapResponse (eap : EapPdu)
  | mmStatus (cause : EMmCause)
  | release

/-! ### EAP packets -/

def akaChallenge : UInt8 := 1

def akaAuthenticationReject : UInt8 := 2

def akaSynchronizationFailure : UInt8 := 4

def akaClientError : UInt8 := 14

def atKdfFs : UInt8 := 153

/-- `getRand` and `getAutn`: the attribute without its first two octets. -/
def behindTwo (as : EapAttributes) (key : UInt8) : List UInt8 :=
  match as.attributes key with
  | some val => if val.length < 2 then [] else val.drop 2
  | none => []

def getRand (as : EapAttributes) : List UInt8 := behindTwo as 1

def getAutn (as : EapAttributes) : List UInt8 := behindTwo as 2

def getKdf (as : EapAttributes) : Nat :=
  match as.attributes atKdf with
  | some val => if val.length ≠ 2 then 0 else Octets.toNat val
  | none => 0

def getKdfInput (as : EapAttributes) : List UInt8 :=
  match as.attributes 23 with
  | some val =>
    if val.length < 2 then []
    else
      let len := Octets.toNat (val.take 2)
      if val.length < len + 2 then [] else field val 2 len
  | none => []

/-- What the libraries return to the modes of EAP-AKA': a public key and a shared secret for each,
and the ciphertext of ML-KEM. -/
structure Ephemeral where
  pubEcdhe : Block UInt8 32
  sharedSecret : List UInt8
  pubEcdheHpqc : Block UInt8 32
  mlkemCiphertext : Block UInt8 1088
  hybridSharedSecret : List UInt8

/-- The modes that a challenge asks for. Nothing keeps it from asking for both. -/
structure Modes where
  isFs : Bool
  isHpqc : Bool

/-- `isFs` and `isHPQC` -/
def modesOf (as : EapAttributes) : Modes :=
  let kdfFs : Bool := ((as.attributes atKdfFs).getD []).head? = some 1
  { isFs := (as.attributes atPubEcdhe).getD [] ≠ [] && kdfFs
    isHpqc := (as.attributes Aka.atPubHybrid).getD [] ≠ [] && kdfFs }

/-- `akaPrimeResponse->attributes` before the MAC is calculated. `m_eccPubKey` is the key of the
mode that comes last; AT_PUB_ECDHE takes it away, and nothing is left of it for AT_PUB_HYBRID. -/
def challengeAttributes (res : Block UInt8 8) (modes : Modes) (eph : Ephemeral) : EapAttributes :=
  let as := ((EapAttributes.empty.putRes res.toList).putMac (List.replicate 16 0)).putKdf 1
  let eccPubKey := if modes.isHpqc then eph.pubEcdheHpqc.toList else eph.pubEcdhe.toList
  let (as, eccPubKey) :=
    if modes.isFs then (as.putRawAttribute atPubEcdhe (List.replicate 4 0 ++ eccPubKey), [])
    else (as, eccPubKey)
  if modes.isHpqc then
    as.putRawAttributeWith2ByteLength Aka.atPubHybrid (eph.mlkemCiphertext.toList ++ eccPubKey)
  else as

/-- `akaPrimeResponse` as it is sent: `RESPONSE`, `AKA_CHALLENGE`. -/
def challengeResponse (hmac : Hmac) (kaut : List UInt8) (id : UInt8) (res : Block UInt8 8)
    (modes : Modes) (eph : Ephemeral) : EapPdu :=
  let as := challengeAttributes res modes eph
  ⟨2, id, .akaPrime akaChallenge
    (as.replaceMac (ueCalculateMac hmac kaut 2 id akaChallenge as).toList)⟩

/-- The public value of a challenge that asks for one mode at most. -/
def publicValue (modes : Modes) (eph : Ephemeral) : PublicValue :=
  if modes.isFs then .ecdhe ((Block.fill 4 0).cat eph.pubEcdhe)
  else if modes.isHpqc then .hybrid (eph.mlkemCiphertext.cat eph.pubEcdheHpqc)
  else .absent

/-- Where a challenge does not ask for both modes, its response has the public value of the mode. -/
theorem challengeResponse_eq (hmac : Hmac) (kaut : List UInt8) (id : UInt8) (res : Block UInt8 8)
    {modes : Modes} (single : (modes.isFs && modes.isHpqc) = false) (eph : Ephemeral) :
    challengeResponse hmac kaut id res modes eph =
      sentResponse hmac kaut id res (publicValue modes eph) := by
  have same : challengeAttributes res modes eph =
      responseAttributes res (publicValue modes eph) := by
    obtain ⟨isFs, isHpqc⟩ := modes
    cases isFs with
    | false => cases isHpqc <;> rfl
    | true =>
      cases isHpqc with
      | false => rfl
      | true => cases single
  rw [challengeResponse, same]
  rfl

/-! ### Checks -/

/-- `networkFailingTheAuthCheck(true)` -/
def networkFailingTheAuthCheck (u : NasMm) : Bool × NasMm × List MmOutput :=
  let failures := u.nwConsecutiveAuthFailure
  let u := { u with nwConsecutiveAuthFailure := failures + 1 }
  if failures < 3 then (false, u, []) else (true, u, if u.connected then [.release] else [])

def separationBit (autn : Block UInt8 16) : Bool := (Octets.octet autn.toList 6).toNat.testBit 7

def sqnXorAkOf (autn : Block UInt8 16) : Block UInt8 6 := Block.read 0 6 autn.toList

def macOf (autn : Block UInt8 16) : Block UInt8 8 := Block.read 0 8 (autn.toList.drop 8)

def validateAutn (aes : Cipher) (cfg : UeConfig) (m : SqnManager) (rand autn : Block UInt8 16) :
    SqnManager × EAutnValidationRes :=
  if separationBit autn = false then (m, .amfSeparationBitFailure)
  else
    let milenage := calculateMilenage aes cfg m.getSqn rand false
    let receivedSQN := Bits.xor (sqnXorAkOf autn) milenage.ak
    let (m, sqnOk) := m.checkSqn receivedSQN
    let milenage := calculateMilenage aes cfg receivedSQN rand false
    if macOf autn ≠ milenage.macA then (m, .macFailure)
    else if sqnOk = false then (m, .synchronisationFailure)
    else (m, .ok)

def NasMm.clear (u : NasMm) : NasMm := { u with rand := [], resStar := [] }

def sendFailure (u : NasMm) (cause : EMmCause) (auts : Option (List UInt8)) :
    NasMm × List MmOutput :=
  (u.clear, [.authenticationFailure cause auts])

def sendEapFailure (u : NasMm) (id subType : UInt8) (attributes : EapAttributes) :
    NasMm × List MmOutput :=
  (u.clear, [.eapResponse ⟨2, id, .akaPrime subType attributes⟩])

/-- `if (networkFailingTheAuthCheck(true)) return;` before a failure is sent. -/
def failing (u : NasMm) (fail : NasMm → NasMm × List MmOutput) : NasMm × List MmOutput :=
  match networkFailingTheAuthCheck u with
  | (true, u, out) => (u, out)
  | (false, u, out) =>
    let (u, sent) := fail u
    (u, out ++ sent)

/-- Whether a key set identifier is that of a context the UE has. -/
def NasMm.ksiInUse (u : NasMm) (ksi : Nat) : Bool :=
  (u.currentNsCtx.any fun ctx => ctx.ngKsi = ksi) ||
    (u.nonCurrentNsCtx.any fun ctx => ctx.ngKsi = ksi)

/-! ### The checks before AUTN -/

/-- A challenge that has passed the checks of its message. -/
structure Challenge where
  snn : CString
  rand : Block UInt8 16
  autn : Block UInt8 16

/-- What a handler that returns early has done, or what it goes on with. -/
abbrev Checked (α : Type) : Type := Except (NasMm × List MmOutput) α

/-- A parameter of 16 octets. -/
def sixteen (octets : List UInt8) : Option (Block UInt8 16) :=
  if size : octets.length = 16 then some ⟨octets, size⟩ else none

def checkNgKsi (u : NasMm) (ngKSI : NgKsi) : Checked Unit :=
  if ngKSI.mapped then .error (sendFailure u .unspecifiedProtocolError none)
  else if ngKSI.ksi = ksiNotAvailable then .error (sendFailure u .unspecifiedProtocolError none)
  else if u.ksiInUse ngKSI.ksi then
    .error (failing u fun u => sendFailure u .ngksiAlreadyInUse none)
  else .ok ()

/-- `receiveAuthenticationRequest5gAka` up to the checks of ngKSI. -/
def check5gAka (u : NasMm) (msg : AuthenticationRequest) : Checked Challenge :=
  match u.currentSnn with
  | none => .error (u, [])
  | some snn =>
    match msg.authParamRAND.bind sixteen, msg.authParamAUTN.bind sixteen with
    | some rand, some autn => do
      checkNgKsi u msg.ngKSI
      return ⟨snn, rand, autn⟩
    | _, _ => .error (sendFailure u .semanticallyIncorrectMessage none)

/-- `receiveAuthenticationRequestEap` up to the checks of ngKSI. -/
def checkEap (u : NasMm) (msg : AuthenticationRequest) (eap : Option EapPdu) :
    Checked (Challenge × UInt8 × UInt8 × EapAttributes) :=
  match u.currentSnn with
  | none => .error (u, [])
  | some snn =>
    match eap with
    | some ⟨code, id, .akaPrime subType as⟩ =>
      if subType ≠ akaChallenge then .error (u, [.mmStatus .semanticallyIncorrectMessage])
      else
        match sixteen (getRand as), sixteen (getAutn as), sixteen as.getMac with
        | some rand, some autn, some _ =>
          if getKdf as ≠ 1 then
            .error (failing u fun u => sendEapFailure u id akaAuthenticationReject .empty)
          else if getKdfInput as ≠ snn.octets then
            .error (sendEapFailure u id akaAuthenticationReject .empty)
          else do
            checkNgKsi u msg.ngKSI
            return (⟨snn, rand, autn⟩, code, id, as)
        | _, _, _ => .error (u, [.mmStatus .semanticallyIncorrectMessage])
    | _ => .error (u, [.mmStatus .semanticallyIncorrectMessage])

section Handlers

variable (aes : Cipher) (hmac : Hmac) (cfg : UeConfig)

/-- The answer to SYNCHRONISATION_FAILURE: `calculateMilenage` with a dummy AMF, and
`CalculateAuts`. -/
def autsFor (m : SqnManager) (rand : Block UInt8 16) : Block UInt8 14 :=
  let milenage := calculateMilenage aes cfg m.getSqn rand true
  calculateAuts m.getSqn milenage.akR milenage.macS

/-! ### 5G-AKA -/

/-- The context that an accepted challenge leaves. -/
def partialContext (u : NasMm) (msg : AuthenticationRequest) (snn : CString)
    (kAusf : List UInt8) : NasMm :=
  let (kSeaf, kAmf) := deriveKeysSeafAmf hmac snn.octets cfg.supi.octets kAusf msg.abba
  { u with
    nonCurrentNsCtx := some
      { mapped := msg.ngKSI.mapped
        ngKsi := msg.ngKSI.ksi
        kAusf := kAusf
        kSeaf := kSeaf
        kAmf := kAmf
        abba := msg.abba } }

/-- What `receiveAuthenticationRequest5gAka` does if the AUTN check is OK, or bypassed. -/
def accept5gAka (u : NasMm) (msg : AuthenticationRequest) (snn : CString) (rand : Block UInt8 16) :
    NasMm × List MmOutput :=
  let sqn := u.sqnMng.getSqn
  let milenage := calculateMilenage aes cfg sqn rand false
  let ckIk := milenage.ck.toList ++ milenage.ik.toList
  let sqnXorAk := Bits.xor sqn milenage.ak
  let resStar := calculateResStar hmac ckIk snn.octets rand.toList milenage.res.toList
  let kAusf := calculateKAusfFor5gAka hmac milenage.ck.toList milenage.ik.toList snn.octets
    sqnXorAk.toList
  let u := { u with rand := rand.toList, resStar := resStar }
  let u := partialContext hmac cfg u msg snn kAusf
  ({ u with nwConsecutiveAuthFailure := 0 }, [.authenticationResponse u.resStar])

/-- What `receiveAuthenticationRequest5gAka` does with the result of the AUTN check. -/
def answer5gAka (u : NasMm) (msg : AuthenticationRequest) (snn : CString) (rand : Block UInt8 16) :
    EAutnValidationRes → NasMm × List MmOutput
  | .ok => accept5gAka aes hmac cfg u msg snn rand
  | .macFailure => failing u fun u => sendFailure u .macFailure none
  | .synchronisationFailure =>
    failing u fun u => sendFailure u .synchFailure (some (autsFor aes cfg u.sqnMng rand).toList)
  | .amfSeparationBitFailure =>
    failing u fun u => sendFailure u .non5gAuthenticationUnacceptable none

def receiveAuthenticationRequest5gAka (u : NasMm) (msg : AuthenticationRequest) :
    NasMm × List MmOutput :=
  match check5gAka u msg with
  | .error early => early
  | .ok ⟨snn, rand, autn⟩ =>
    if u.rand ≠ rand.toList then
      let (m, autnCheck) := validateAutn aes cfg u.sqnMng rand autn
      answer5gAka aes hmac cfg { u with sqnMng := m } msg snn rand autnCheck
    else answer5gAka aes hmac cfg u msg snn rand .ok

/-! ### EAP-AKA' -/

/-- K_aut and K_AUSF of an accepted EAP-AKA' challenge: FS mode goes before HPQC mode. -/
def eapKeys (u : NasMm) (modes : Modes) (snn : CString) (rand : Block UInt8 16) (eph : Ephemeral) :
    List UInt8 × List UInt8 :=
  let sqn := u.sqnMng.getSqn
  let milenage := calculateMilenage aes cfg sqn rand false
  let sqnXorAk := Bits.xor sqn milenage.ak
  let (ckPrime, ikPrime) := calculateCkPrimeIkPrime hmac milenage.ck.toList milenage.ik.toList
    snn.octets sqnXorAk.toList
  let mk := (calculateMk hmac ckPrime ikPrime cfg.supi.octets).getD []
  let kaut := field mk 16 32
  if modes.isFs then
    let mkEcdhe := (calculateMkFs hmac ikPrime ckPrime eph.sharedSecret cfg.supi.octets).getD []
    (kaut, (calculateKAusfForEapAkaPrimeFs mkEcdhe).getD [])
  else if modes.isHpqc then
    let mkHybrid :=
      (calculateMkFs hmac ikPrime ckPrime eph.hybridSharedSecret cfg.supi.octets).getD []
    (kaut, (calculateKAusfForEapAkaPrimeFsHPQC mkHybrid).getD [])
  else (kaut, calculateKAusfForEapAkaPrime mk)

/-- What `receiveAuthenticationRequestEap` does if the AUTN check is OK. -/
def acceptEap (u : NasMm) (msg : AuthenticationRequest) (code id : UInt8) (as : EapAttributes)
    (snn : CString) (rand : Block UInt8 16) (eph : Ephemeral) : NasMm × List MmOutput :=
  let modes := modesOf as
  let (kaut, kAusf) := eapKeys aes hmac cfg u modes snn rand eph
  let milenage := calculateMilenage aes cfg u.sqnMng.getSqn rand false
  if (ueCalculateMac hmac kaut code id akaChallenge as).toList ≠ as.getMac then
    failing u fun u => sendEapFailure u id akaClientError (EapAttributes.empty.putClientErrorCode 0)
  else
    let u := { u with rand := rand.toList, resStar := [] }
    let u := partialContext hmac cfg u msg snn kAusf
    ({ u with nwConsecutiveAuthFailure := 0 },
      [.eapResponse (challengeResponse hmac kaut id milenage.res modes eph)])

/-- What `receiveAuthenticationRequestEap` does with the result of the AUTN check. -/
def answerEap (u : NasMm) (msg : AuthenticationRequest) (code id : UInt8) (as : EapAttributes)
    (snn : CString) (rand : Block UInt8 16) (eph : Ephemeral) :
    EAutnValidationRes → NasMm × List MmOutput
  | .ok => acceptEap aes hmac cfg u msg code id as snn rand eph
  | .macFailure => failing u fun u => sendEapFailure u id akaAuthenticationReject .empty
  | .synchronisationFailure =>
    failing u fun u => sendEapFailure u id akaSynchronizationFailure
      (EapAttributes.empty.putAuts (autsFor aes cfg u.sqnMng rand).toList)
  | .amfSeparationBitFailure =>
    failing u fun u => sendEapFailure u id akaClientError (EapAttributes.empty.putClientErrorCode 0)

def receiveAuthenticationRequestEap (u : NasMm) (msg : AuthenticationRequest)
    (eap : Option EapPdu) (eph : Ephemeral) : NasMm × List MmOutput :=
  match checkEap u msg eap with
  | .error early => early
  | .ok (⟨snn, rand, autn⟩, code, id, as) =>
    let (m, autnCheck) := validateAutn aes cfg u.sqnMng rand autn
    answerEap aes hmac cfg { u with sqnMng := m } msg code id as snn rand eph autnCheck

/-! ### Inputs -/

def receiveAuthenticationRequest (u : NasMm) (msg : AuthenticationRequest) (eph : Ephemeral) :
    NasMm × List MmOutput :=
  if u.valid = false then (u, [])
  else
    match msg.eapMessage with
    | some eap => receiveAuthenticationRequestEap aes hmac cfg u msg eap eph
    | none => receiveAuthenticationRequest5gAka aes hmac cfg u msg

end Handlers

/-- What another procedure leaves behind. -/
structure Aftermath where
  deletesRand : Bool
  currentNsCtx : Option NasSecurityContext
  nonCurrentNsCtx : Option NasSecurityContext
  valid : Bool
  currentSnn : Option CString
  connected : Bool

/-- The members after another procedure. -/
def Aftermath.apply (a : Aftermath) (u : NasMm) : NasMm :=
  { (if a.deletesRand then u.clear else u) with
    currentNsCtx := a.currentNsCtx
    nonCurrentNsCtx := a.nonCurrentNsCtx
    valid := a.valid
    currentSnn := a.currentSnn
    connected := a.connected }

inductive MmInput where
  | request (msg : AuthenticationRequest) (eph : Ephemeral)
  | procedure (a : Aftermath)

def mmStep (aes : Cipher) (hmac : Hmac) (cfg : UeConfig) (u : NasMm) :
    MmInput → NasMm × List MmOutput
  | .request msg eph => receiveAuthenticationRequest aes hmac cfg u msg eph
  | .procedure a => (a.apply u, [])

/-- The members after `Usim::initialize`. -/
def mmInit (hasSupi : Bool) : NasMm where
  sqnMng := usimSqnManager
  rand := []
  resStar := []
  currentNsCtx := none
  nonCurrentNsCtx := none
  nwConsecutiveAuthFailure := 0
  valid := hasSupi
  currentSnn := none
  connected := false

end EdhocAuth.Primary
