/-
What the core network hands out to a subscriber it has the keys of.

`Requested` says what a request for a vector leaves, with or without an AUTS; `Waiting` is the state
in which the answer of the UE is awaited, and `confirmed` what the right answer leads to.
-/

import EdhocAuth.Primary.Tokens

namespace EdhocAuth.Primary

open Octets Aka

variable {aes : Cipher} {hmac : Hmac} {cfg : UeConfig}

/-! ### The core network with its subscriber -/

/-- The core has the subscription of this UE, and names that can be used for keys. -/
structure Serves (aes : Cipher) (cfg : UeConfig) (core : CoreNetwork) : Prop where
  k : core.doc.k = cfg.key
  opc : (if core.doc.useOpc then core.doc.opc else milenageOpc aes core.doc.k core.doc.op) =
    cfg.opcOf aes
  field : core.doc.amf = cfg.amf
  sqn : core.doc.sqn < 2 ^ 48
  supi : core.amf.supi = cfg.supi
  subscriber : Usable cfg.supi.octets
  named : Usable core.amf.snn.octets
  abba : Usable core.amf.abba

def kausfFor (aes : Cipher) (hmac : Hmac) (cfg : UeConfig) (snn : CString) (rand : Block UInt8 16)
    (sqn : Block UInt8 6) : Block UInt8 32 :=
  let f := f2345Of aes cfg rand
  ogsKdfKausf hmac f.ck f.ik snn (autnFor aes cfg rand sqn)

def xresStarFor (aes : Cipher) (hmac : Hmac) (cfg : UeConfig) (snn : CString)
    (rand : Block UInt8 16) : Block UInt8 16 :=
  let f := f2345Of aes cfg rand
  ogsKdfXresStar hmac f.ck f.ik snn rand f.res

/-- The vector of a RAND and a sequence number. -/
def vectorFor (aes : Cipher) (hmac : Hmac) (cfg : UeConfig) (snn : CString)
    (rand : Block UInt8 16) (sqn : Block UInt8 6) : AuthenticationVector where
  rand := rand
  autn := autnFor aes cfg rand sqn
  xresStar := xresStarFor aes hmac cfg snn rand
  kausf := kausfFor aes hmac cfg snn rand sqn

/-- The UDM has the keys of this UE. -/
structure Keyed (aes : Cipher) (cfg : UeConfig) (udm : UdmUe) : Prop where
  k : udm.k = cfg.key
  opc : udm.opc = cfg.opcOf aes
  field : udm.amf = cfg.amf

/-- The core has sent a vector, and waits for the answer. -/
structure Waiting (aes : Cipher) (hmac : Hmac) (sha256 : List UInt8 → Block UInt8 32)
    (cfg : UeConfig) (rand : Block UInt8 16) (sqn : Block UInt8 6) (core : CoreNetwork) : Prop where
  serves : Serves aes cfg core
  keyed : Keyed aes cfg core.udm
  authenticating : core.amf.authenticating = true
  udmRand : core.udm.rand = rand
  amfRand : core.amf.rand = rand
  amfAutn : core.amf.autn = autnFor aes cfg rand sqn
  amfHxresStar : core.amf.hxresStar =
    ogsKdfHxresStar sha256 rand (xresStarFor aes hmac cfg core.amf.snn rand)
  ksi : core.amf.ksi < ksiNotAvailable
  ausfSnn : core.ausf.servingNetworkName = core.amf.snn
  ausfXresStar : core.ausf.xresStar = xresStarFor aes hmac cfg core.amf.snn rand
  ausfKausf : core.ausf.kausf = kausfFor aes hmac cfg core.amf.snn rand sqn
  pkbuf : core.amf.t3560.pkbuf = some (gmmBuildAuthenticationRequest core.amf)

variable {sha256 : List UInt8 → Block UInt8 32} {core : CoreNetwork}

/-- The request that is awaited carries the AUTN of its vector. -/
theorem Waiting.carries {rand : Block UInt8 16} {sqn : Block UInt8 6}
    (waiting : Waiting aes hmac sha256 cfg rand sqn core) :
    Carries (gmmBuildAuthenticationRequest core.amf) rand (autnFor aes cfg rand sqn) where
  plain := rfl
  rand := congrArg (fun b : Block UInt8 16 => some b.toList) waiting.amfRand
  autn := congrArg (fun b : Block UInt8 16 => some b.toList) waiting.amfAutn
  native := rfl
  ksi := Nat.ne_of_lt waiting.ksi

def nextKsi (ksi : Nat) : Nat := if ksi < ksiNotAvailable - 1 then ksi + 1 else 0

/-- The AMF does not hand out the value for no key. -/
theorem nextKsi_lt (ksi : Nat) : nextKsi ksi < ksiNotAvailable := by
  unfold nextKsi ksiNotAvailable
  split <;> omega

/-- What a request for a vector leaves. -/
structure Requested (aes : Cipher) (hmac : Hmac) (sha256 : List UInt8 → Block UInt8 32)
    (cfg : UeConfig) (core : CoreNetwork) (rand : Block UInt8 16) (sqn docSqn : Nat)
    (r : CoreNetwork × List CoreOutput) : Prop where
  waiting : Waiting aes hmac sha256 cfg rand (sqnBuffer sqn) r.1
  ksi : r.1.amf.ksi = nextKsi core.amf.ksi
  snn : r.1.amf.snn = core.amf.snn
  docSqn : r.1.doc.sqn = docSqn
  sent : r.2 = [.authenticationRequest (gmmBuildAuthenticationRequest r.1.amf)]

theorem Requested.of_cleared {rand : Block UInt8 16} {sqn docSqn : Nat}
    {r : CoreNetwork × List CoreOutput}
    (requested : Requested aes hmac sha256 cfg core.clearT3560 rand sqn docSqn r) :
    Requested aes hmac sha256 cfg core rand sqn docSqn r :=
  ⟨requested.waiting, requested.ksi, requested.snn, requested.docSqn, requested.sent⟩

/-- A core that serves this UE goes on to do so as long as the document and the names stay. -/
theorem Serves.of_same (serves : Serves aes cfg core) {core' : CoreNetwork}
    (doc : core'.doc = core.doc) (supi : core'.amf.supi = core.amf.supi)
    (snn : core'.amf.snn = core.amf.snn) (abba : core'.amf.abba = core.amf.abba) :
    Serves aes cfg core' where
  k := by rw [doc, serves.k]
  opc := by rw [doc, serves.opc]
  field := by rw [doc, serves.field]
  sqn := by rw [doc]; exact serves.sqn
  supi := supi.trans serves.supi
  subscriber := serves.subscriber
  named := by rw [snn]; exact serves.named
  abba := by rw [abba]; exact serves.abba

theorem Serves.cleared (serves : Serves aes cfg core) : Serves aes cfg core.clearT3560 :=
  serves.of_same rfl rfl rfl rfl

/-- The UDM makes the vector for the number it has. -/
theorem udmHandleSubscription_eq {udm : UdmUe} (keyed : Keyed aes cfg udm)
    (rand : Block UInt8 16) :
    udmHandleSubscription aes hmac udm rand .noContent =
      ({ udm with rand := rand }, vectorFor aes hmac cfg udm.servingNetworkName rand udm.sqn) := by
  obtain ⟨k, opc, field⟩ := keyed
  simp only [udmHandleSubscription, k, opc, field, f2345_core]
  rfl

/-- What the AUSF and the AMF do with a vector. -/
theorem requested (hmac : Hmac) (sha256 : List UInt8 → Block UInt8 32) (doc : Subscription)
    {udm : UdmUe} (serves : Serves aes cfg core)
    (same : doc.k = core.doc.k ∧ doc.useOpc = core.doc.useOpc ∧ doc.opc = core.doc.opc ∧
      doc.op = core.doc.op ∧ doc.amf = core.doc.amf)
    (small : doc.sqn < 2 ^ 48) (keyed : Keyed aes cfg udm) {sqn : Nat}
    (udmSqn : udm.sqn = sqnBuffer sqn) (udmSnn : udm.servingNetworkName = core.amf.snn)
    (authenticating : core.amf.authenticating = true) (cleared : core.amf.t3560.pkbuf = none)
    (rand : Block UInt8 16) :
    Requested aes hmac sha256 cfg core rand sqn doc.sqn
      (let r := udmHandleSubscription aes hmac udm rand .noContent
        let ausf := ausfHandleVector sha256
          { core.ausf with servingNetworkName := core.amf.snn } r.2
        let sent := nas5gsSendAuthenticationRequest
          (amfHandleAuthenticate core.amf r.2.rand r.2.autn ausf.hxresStar)
        ({ doc := doc, udm := r.1, ausf := ausf, amf := sent.1 },
          [.authenticationRequest sent.2])) := by
  rw [udmHandleSubscription_eq keyed, udmSqn, udmSnn]
  simp only [nas5gsSendAuthenticationRequest, amfHandleAuthenticate, cleared, Option.getD_none]
  obtain ⟨k, useOpc, opc, op, field⟩ := same
  constructor
  · constructor
    · constructor
      · exact k.trans serves.k
      · show (if doc.useOpc then doc.opc else milenageOpc aes doc.k doc.op) = _
        rw [useOpc, opc, k, op, serves.opc]
      · exact field.trans serves.field
      · exact small
      · exact serves.supi
      · exact serves.subscriber
      · exact serves.named
      · exact serves.abba
    · exact ⟨keyed.k, keyed.opc, keyed.field⟩
    · exact authenticating
    · rfl
    · rfl
    · rfl
    · rfl
    · exact nextKsi_lt core.amf.ksi
    · rfl
    · rfl
    · rfl
    · rfl
  · rfl
  · rfl
  · rfl
  · rfl

/-- A vector without resynchronisation has the number of the document. -/
theorem authenticate_none (hmac : Hmac) (sha256 : List UInt8 → Block UInt8 32)
    (serves : Serves aes cfg core)
    (authenticating : core.amf.authenticating = true) (cleared : core.amf.t3560.pkbuf = none)
    (rand : Block UInt8 16) :
    Requested aes hmac sha256 cfg core rand core.doc.sqn core.doc.sqn
      (authenticate aes hmac sha256 core none rand) := by
  have keyed : Keyed aes cfg
      { core.udm with
        servingNetworkName := core.amf.snn
        k := core.doc.k
        opc := if core.doc.useOpc then core.doc.opc else milenageOpc aes core.doc.k core.doc.op
        amf := core.doc.amf
        sqn := sqnBuffer core.doc.sqn } :=
    ⟨serves.k, serves.opc, serves.field⟩
  exact requested hmac sha256 core.doc serves
    ⟨rfl, rfl, rfl, rfl, rfl⟩ serves.sqn keyed rfl rfl authenticating cleared rand

/-- The UE registers: the AMF starts an authentication. -/
theorem started (hmac : Hmac) (sha256 : List UInt8 → Block UInt8 32) (serves : Serves aes cfg core)
    (ksi : Nat) (rand : Block UInt8 16) :
    Requested aes hmac sha256 cfg (core.registering ksi) rand core.doc.sqn core.doc.sqn
      (coreStep aes hmac sha256 core (.start ksi rand)) := by
  apply authenticate_none
  · exact serves.of_same rfl rfl rfl rfl
  · rfl
  · rfl

/-- The UE reports that the key set identifier is in use. -/
theorem refusedKsi {rand : Block UInt8 16} {sqn : Block UInt8 6}
    (waiting : Waiting aes hmac sha256 cfg rand sqn core) (auts : List UInt8)
    (rand' : Block UInt8 16) :
    Requested aes hmac sha256 cfg core rand' core.doc.sqn core.doc.sqn
      (coreStep aes hmac sha256 core (.authenticationFailure .ngksiAlreadyInUse auts rand')) := by
  have step : coreStep aes hmac sha256 core (.authenticationFailure .ngksiAlreadyInUse auts rand') =
      authenticate aes hmac sha256 core.clearT3560 none rand' := by
    rw [coreStep, if_pos waiting.authenticating, gmmHandleAuthenticationFailure]
  rw [step]
  exact (authenticate_none hmac sha256 waiting.serves.cleared waiting.authenticating rfl
    rand').of_cleared

/-- The number of the vector after a resynchronisation. -/
def resynchronised (sqnMs : Nat) : Nat := (sqnMs + 33) % 2 ^ 48

/-- The UE reports a synchronisation failure: the UDM takes the AUTS that answers its vector. The
next number is 33 above SQN_MS, and that in the document 32 more. -/
theorem resynchronises {m : SqnManager} (reached : m.Reached) {rand : Block UInt8 16}
    {sqn : Block UInt8 6} (waiting : Waiting aes hmac sha256 cfg rand sqn core)
    (rand' : Block UInt8 16) :
    Requested aes hmac sha256 cfg core rand' (resynchronised m.top)
      ((resynchronised m.top + 32) % 2 ^ 48)
      (coreStep aes hmac sha256 core
        (.authenticationFailure .synchFailure (autsFor aes cfg m rand).toList rand')) := by
  have step : coreStep aes hmac sha256 core
      (.authenticationFailure .synchFailure (autsFor aes cfg m rand).toList rand') =
      authenticate aes hmac sha256 core.clearT3560 (some (autsFor aes cfg m rand)) rand' := by
    rw [coreStep, if_pos waiting.authenticating, gmmHandleAuthenticationFailure,
      dif_pos (autsFor aes cfg m rand).toList_length]
    rfl
  have small : resynchronised m.top < 2 ^ 48 := Nat.mod_lt _ (Nat.two_pow_pos 48)
  have number : (Octets.toNat m.getSqn.toList + 32 + 1) &&& maxSqn = resynchronised m.top := by
    have most := reached.number_getSqn
    rw [SqnManager.number] at most
    rw [and_maxSqn, most, Nat.add_assoc, resynchronised]
  have written : Octets.toNat (sqnBuffer (resynchronised m.top)).toList = resynchronised m.top :=
    number_sqnBuffer small
  have taken : udmHandleGet aes core.clearT3560.udm core.clearT3560.amf.snn
      (some (core.clearT3560.amf.rand, autsFor aes cfg m rand)) =
      ({ core.udm with
          servingNetworkName := core.amf.snn
          sqn := sqnBuffer (resynchronised m.top) },
        .ok (.patchSubscription (sqnBuffer (resynchronised m.top)))) := by
    show udmHandleGet aes core.udm core.amf.snn (some (core.amf.rand, autsFor aes cfg m rand)) = _
    simp only [udmHandleGet, waiting.keyed.k, waiting.keyed.opc, waiting.udmRand, waiting.amfRand,
      ogsAucSqn_autsFor, ne_eq, not_true_eq_false, if_false, number]
  have keyed : Keyed aes cfg
      { core.udm with
        servingNetworkName := core.amf.snn
        sqn := sqnBuffer (resynchronised m.top) } :=
    ⟨waiting.keyed.k, waiting.keyed.opc, waiting.keyed.field⟩
  have left : (ogsDbiIncrementSqn (ogsDbiUpdateSqn core.doc
      (Octets.toNat (sqnBuffer (resynchronised m.top)).toList))).sqn =
      (resynchronised m.top + 32) % 2 ^ 48 := by
    rw [written]
    exact and_maxSqn _
  have reply := requested hmac sha256 (ogsDbiIncrementSqn
    (ogsDbiUpdateSqn core.doc (Octets.toNat (sqnBuffer (resynchronised m.top)).toList)))
    waiting.serves.cleared ⟨rfl, rfl, rfl, rfl, rfl⟩
    (by rw [left]; exact Nat.mod_lt _ (Nat.two_pow_pos 48)) keyed rfl rfl waiting.authenticating
    rfl rand'
  rw [left] at reply
  rw [step]
  apply Requested.of_cleared
  simp only [authenticate, Option.map_some, taken]
  exact reply

/-- The keys and the number after a vector has been confirmed. -/
theorem confirmed {rand : Block UInt8 16} {sqn : Block UInt8 6}
    (waiting : Waiting aes hmac sha256 cfg rand sqn core) :
    let kamf := ogsKdfKamf hmac core.amf.supi core.amf.abba
      (ogsKdfKseaf hmac core.amf.snn (kausfFor aes hmac cfg core.amf.snn rand sqn))
    coreStep aes hmac sha256 core
        (.authenticationResponse (resStarOf aes hmac cfg core.amf.snn rand)) =
      ({ core with
          doc := ogsDbiIncrementSqn core.doc
          amf := { core.amf.clearT3560 with kamf := some kamf, authenticating := false } },
        [.authenticated kamf]) := by
  have agreed : resStarOf aes hmac cfg core.amf.snn rand =
      (xresStarFor aes hmac cfg core.amf.snn rand).toList :=
    (resStar_agree hmac _ _ waiting.serves.named rand _).symm
  have right : ¬ ogsKdfHxresStar sha256 core.amf.rand
      (xresStarFor aes hmac cfg core.amf.snn rand) ≠ core.amf.hxresStar := by
    rw [waiting.amfRand, waiting.amfHxresStar]
    exact fun apart => apart rfl
  have success : ausfConfirm core.ausf (xresStarFor aes hmac cfg core.amf.snn rand) = true := by
    rw [ausfConfirm, waiting.ausfXresStar]
    exact decide_eq_true rfl
  have compared : gmmHandleAuthenticationResponse aes hmac sha256 core
      (xresStarFor aes hmac cfg core.amf.snn rand).toList =
      confirm aes hmac core.clearT3560 (xresStarFor aes hmac cfg core.amf.snn rand) := by
    simp only [gmmHandleAuthenticationResponse, sixteen_toList]
    exact if_neg right
  have found : udmHandleResultConfirmationInform
      (ausfConfirm core.clearT3560.ausf (xresStarFor aes hmac cfg core.amf.snn rand)) =
      .ok .putStatus := by
    rw [show core.clearT3560.ausf = core.ausf from rfl, success]
    rfl
  intro kamf
  rw [coreStep, if_pos waiting.authenticating, agreed, compared, confirm, found]
  show ({ core with
      doc := ogsDbiIncrementSqn core.doc
      amf := { core.amf.clearT3560 with
        kamf := some (ogsKdfKamf hmac core.amf.supi core.amf.abba
          (ogsKdfKseaf hmac core.ausf.servingNetworkName core.ausf.kausf))
        authenticating := false } },
    [CoreOutput.authenticated (ogsKdfKamf hmac core.amf.supi core.amf.abba
      (ogsKdfKseaf hmac core.ausf.servingNetworkName core.ausf.kausf))]) = _
  rw [waiting.ausfSnn, waiting.ausfKausf]

/-- T3560 expires: the same request is sent again, or there have been four of them. -/
theorem expired {rand : Block UInt8 16} {sqn : Block UInt8 6}
    (waiting : Waiting aes hmac sha256 cfg rand sqn core) :
    let r := coreStep aes hmac sha256 core .t3560
    (t3560MaxCount ≤ core.amf.t3560.retryCount ∧ r = reject core) ∨
      (core.amf.t3560.retryCount < t3560MaxCount ∧ Waiting aes hmac sha256 cfg rand sqn r.1 ∧
        r.2 = [.authenticationRequest (gmmBuildAuthenticationRequest core.amf)]) := by
  intro r
  have step : r = t3560Expired core := by
    show coreStep aes hmac sha256 core .t3560 = _
    rw [coreStep, if_pos waiting.authenticating]
  rw [step, t3560Expired]
  by_cases last : core.amf.t3560.retryCount ≥ t3560MaxCount
  · left
    rw [if_pos last]
    exact ⟨last, rfl⟩
  · right
    have serves := waiting.serves
    rw [if_neg last]
    simp only [nas5gsSendAuthenticationRequest, waiting.pkbuf, Option.getD_some]
    refine ⟨Nat.lt_of_not_le last, ?_, trivial⟩
    exact ⟨serves.of_same rfl rfl rfl rfl, waiting.keyed, waiting.authenticating, waiting.udmRand,
      waiting.amfRand, waiting.amfAutn, waiting.amfHxresStar, waiting.ksi, waiting.ausfSnn,
      waiting.ausfXresStar, waiting.ausfKausf, rfl⟩

end EdhocAuth.Primary
