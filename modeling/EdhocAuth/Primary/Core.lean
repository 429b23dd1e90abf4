/-
Primary authentication with 5G-AKA in the core network: the AMF (`src/amf`), the AUSF (`src/ausf`),
the UDM (`src/udm`), the UDR (`src/udr`) and the subscriber's document (`lib/dbi/subscription.c`).

Each handler is a function of its own on the context it keeps of the UE. `coreStep` is what the AMF
starts when a UE registers, sends it a message, or keeps it waiting until T3560 expires. The
contexts are those of one subscriber; `useOpc` and the AMF of the subscription are read from the
document every time.

The requests that the AMF makes of the AUSF, the UDM and the UDR are answered before the next input.
In the source an answer is an event of its own. A message of the UE that comes before it is handled
in the old state: a response that comes twice is confirmed twice, and the number in the document
moves twice.

Left out: EAP-AKA', which the UDM does not choose (`auth_type` is `5G_AKA`), and the checks that an
IE of the service-based interfaces is there, which the peers above always put in.
-/

import EdhocAuth.Primary.Mm

namespace EdhocAuth.Primary

open Octets Aka

def maxSqn : Nat := 0xffffffffffff

/-! ### The database -/

/-- The member `security` of a subscriber's document. -/
structure Subscription where
  k : Block UInt8 16
  useOpc : Bool
  opc : Block UInt8 16
  op : Block UInt8 16
  amf : Block UInt8 2
  sqn : Nat

def ogsDbiUpdateSqn (doc : Subscription) (sqn : Nat) : Subscription := { doc with sqn := sqn }

/-- `ogs_dbi_increment_sqn`: `$inc`, then `$bit` with `and`. -/
def ogsDbiIncrementSqn (doc : Subscription) : Subscription :=
  { doc with sqn := (doc.sqn + 32) &&& maxSqn }

/-- `ogs_uint64_to_buffer` for a sequence number. -/
def sqnBuffer (sqn : Nat) : Block UInt8 6 := ⟨Octets.ofNat 6 sqn, Octets.length_ofNat 6 sqn⟩

/-- The requests that `udr_nudr_dr_handle_subscription_authentication` answers. -/
inductive UdrRequest where
  | getSubscription
  | patchSubscription (sqn : Block UInt8 6)
  | putStatus
  | deleteStatus

inductive UdrResponse where
  | subscription (k opc : Block UInt8 16) (amf : Block UInt8 2) (sqn : Block UInt8 6)
  | noContent

def udrHandle (aes : Cipher) (doc : Subscription) : UdrRequest → Subscription × UdrResponse
  | .getSubscription =>
    let opc := if doc.useOpc then doc.opc else milenageOpc aes doc.k doc.op
    (doc, .subscription doc.k opc doc.amf (sqnBuffer doc.sqn))
  | .patchSubscription sqn =>
    (ogsDbiIncrementSqn (ogsDbiUpdateSqn doc (Octets.toNat sqn.toList)), .noContent)
  | .putStatus => (ogsDbiIncrementSqn doc, .noContent)
  | .deleteStatus => (ogsDbiIncrementSqn doc, .noContent)

/-! ### The UDM -/

/-- The members of `udm_ue_t` for authentication. -/
structure UdmUe where
  k : Block UInt8 16
  opc : Block UInt8 16
  amf : Block UInt8 2
  sqn : Block UInt8 6
  rand : Block UInt8 16
  servingNetworkName : CString

structure AuthenticationVector where
  rand : Block UInt8 16
  autn : Block UInt8 16
  xresStar : Block UInt8 16
  kausf : Block UInt8 32

inductive UdmError where
  | invalidRand
  | resyncMacFailed
  | noSuccess
deriving DecidableEq

/-- `(SQN ^ AK) || AMF || MAC` in `milenage_generate`. -/
def milenageAutn (aes : Cipher) (opc k rand : Block UInt8 16) (sqn : Block UInt8 6)
    (amf : Block UInt8 2) : Block UInt8 16 :=
  let macA := (milenageF1 aes coreRotations opc k rand sqn amf).1
  let f := milenageF2345 aes coreRotations opc k rand
  ((Bits.xor sqn f.ak).cat amf).cat macA

/-- `ogs_auc_sqn`: SQN_MS and MAC-S. -/
def ogsAucSqn (aes : Cipher) (opc k rand : Block UInt8 16) (auts : Block UInt8 14) :
    Block UInt8 6 × Block UInt8 8 :=
  let ak := (milenageF2345 aes coreRotations opc k rand).akstar
  let concSqnMs : Block UInt8 6 := Block.fst (n := 6) (m := 8) auts
  let sqnMs := Bits.xor ak concSqnMs
  (sqnMs, (milenageF1 aes coreRotations opc k rand sqnMs (Block.fill 2 0)).2)

/-- `udm_nudm_ueau_handle_get`: the request it makes of the UDR. -/
def udmHandleGet (aes : Cipher) (udm : UdmUe) (snn : CString)
    (resynchronizationInfo : Option (Block UInt8 16 × Block UInt8 14)) :
    UdmUe × Except UdmError UdrRequest :=
  let udm := { udm with servingNetworkName := snn }
  match resynchronizationInfo with
  | none => (udm, .ok .getSubscription)
  | some (rand, auts) =>
    if udm.rand ≠ rand then (udm, .error .invalidRand)
    else
      let (sqnMs, macS) := ogsAucSqn aes udm.opc udm.k rand auts
      if Block.snd (n := 6) (m := 8) auts ≠ macS then (udm, .error .resyncMacFailed)
      else
        let sqn := (Octets.toNat sqnMs.toList + 32 + 1) &&& maxSqn
        let udm := { udm with sqn := sqnBuffer sqn }
        (udm, .ok (.patchSubscription udm.sqn))

/-- `udm_nudr_dr_handle_subscription_authentication` for the subscription: `rand` is random. -/
def udmHandleSubscription (aes : Cipher) (hmac : Hmac) (udm : UdmUe) (rand : Block UInt8 16)
    (response : UdrResponse) : UdmUe × AuthenticationVector :=
  let udm :=
    match response with
    | .subscription k opc amf sqn => { udm with k := k, opc := opc, amf := amf, sqn := sqn }
    | .noContent => udm
  let udm := { udm with rand := rand }
  let autn := milenageAutn aes udm.opc udm.k udm.rand udm.sqn udm.amf
  let f := milenageF2345 aes coreRotations udm.opc udm.k udm.rand
  (udm,
    { rand := udm.rand
      autn := autn
      xresStar := ogsKdfXresStar hmac f.ck f.ik udm.servingNetworkName udm.rand f.res
      kausf := ogsKdfKausf hmac f.ck f.ik udm.servingNetworkName autn })

def udmHandleResultConfirmationInform (success : Bool) : Except UdmError UdrRequest :=
  if success = false then .error .noSuccess else .ok .putStatus

/-! ### The AUSF -/

/-- The members of `ausf_ue_t` for authentication. -/
structure AusfUe5g where
  servingNetworkName : CString
  rand : Block UInt8 16
  xresStar : Block UInt8 16
  hxresStar : Block UInt8 16
  kausf : Block UInt8 32

/-- `ausf_nudm_ueau_handle_get` for 5G-AKA. -/
def ausfHandleVector (sha256 : List UInt8 → Block UInt8 32) (ausf : AusfUe5g)
    (av : AuthenticationVector) : AusfUe5g :=
  { ausf with
    rand := av.rand
    xresStar := av.xresStar
    kausf := av.kausf
    hxresStar := ogsKdfHxresStar sha256 av.rand av.xresStar }

/-- `ausf_nausf_auth_handle_authenticate_confirmation` for 5G-AKA: `auth_result`. -/
def ausfConfirm (ausf : AusfUe5g) (resStar : Block UInt8 16) : Bool := resStar = ausf.xresStar

/-! ### The AMF -/

/-- The members of T3560 beside the timer itself: the request for another transmission, and how many
there have been. -/
structure T3560 where
  pkbuf : Option AuthenticationRequest
  retryCount : Nat

/-- `max_count` of T3560 in `g_amf_timer_cfg` -/
def t3560MaxCount : Nat := 4

/-- The members of `amf_ue_t` for authentication; `supi` is the value of the SUPI, and
`authenticating` says that the UE is in `gmm_state_authentication`. -/
structure AmfUe where
  authenticating : Bool
  supi : CString
  snn : CString
  rand : Block UInt8 16
  autn : Block UInt8 16
  hxresStar : Block UInt8 16
  ksi : Nat
  abba : List UInt8
  kamf : Option (Block UInt8 32)
  t3560 : T3560

def AmfUe.clearT3560 (amf : AmfUe) : AmfUe := { amf with t3560 := ⟨none, 0⟩ }

/-- `gmm_handle_registration_request`: a key set identifier of the UE takes the place of that of the
AMF. -/
def gmmHandleRegistrationRequest (amf : AmfUe) (ksi : Nat) : AmfUe :=
  { amf.clearT3560 with
    ksi := if ksi < ksiNotAvailable then ksi else amf.ksi }

/-- `amf_nausf_auth_handle_authenticate` up to the request. -/
def amfHandleAuthenticate (amf : AmfUe) (rand autn hxresStar : Block UInt8 16) : AmfUe :=
  { amf with
    rand := rand
    autn := autn
    hxresStar := hxresStar
    ksi := if amf.ksi < ksiNotAvailable - 1 then amf.ksi + 1 else 0 }

def gmmBuildAuthenticationRequest (amf : AmfUe) : AuthenticationRequest where
  ngKSI := ⟨false, amf.ksi⟩
  abba := amf.abba
  authParamRAND := some amf.rand.toList
  authParamAUTN := some amf.autn.toList
  eapMessage := none

/-- `nas_5gs_send_authentication_request`: the request that T3560 keeps, if there is one. -/
def nas5gsSendAuthenticationRequest (amf : AmfUe) : AmfUe × AuthenticationRequest :=
  let gmmbuf := amf.t3560.pkbuf.getD (gmmBuildAuthenticationRequest amf)
  ({ amf with t3560 := { amf.t3560 with pkbuf := some gmmbuf } }, gmmbuf)

/-! ### Together -/

/-- What the core network keeps of one subscriber. -/
structure CoreNetwork where
  doc : Subscription
  udm : UdmUe
  ausf : AusfUe5g
  amf : AmfUe

/-- What makes the AMF act; `rand` is what the UDM draws for the next vector. -/
inductive CoreInput where
  /-- A registration that needs authentication, with the key set identifier of the UE. -/
  | start (ksi : Nat) (rand : Block UInt8 16)
  | authenticationResponse (resStar : List UInt8)
  | authenticationFailure (cause : EMmCause) (auts : List UInt8) (rand : Block UInt8 16)
  /-- T3560 expires. -/
  | t3560

/-- What the AMF sends to the UE, or the K_AMF it goes on with. -/
inductive CoreOutput where
  | authenticationRequest (msg : AuthenticationRequest)
  | reject
  | authenticated (kamf : Block UInt8 32)

section Step

variable (aes : Cipher) (hmac : Hmac) (sha256 : List UInt8 → Block UInt8 32)

/-- `nas_5gs_send_authentication_reject` and the like, on the way to `gmm_state_exception`, which
clears all timers. -/
def reject (core : CoreNetwork) : CoreNetwork × List CoreOutput :=
  ({ core with amf := { core.amf.clearT3560 with authenticating := false } }, [.reject])

/-- `amf_nausf_auth_build_authenticate`, and what it leads to. -/
def authenticate (core : CoreNetwork) (auts : Option (Block UInt8 14)) (rand : Block UInt8 16) :
    CoreNetwork × List CoreOutput :=
  let ausf := { core.ausf with servingNetworkName := core.amf.snn }
  let (udm, result) := udmHandleGet aes core.udm ausf.servingNetworkName
    (auts.map fun auts => (core.amf.rand, auts))
  match result with
  | .error _ => reject { core with udm := udm, ausf := ausf }
  | .ok request =>
    let (doc, response) := udrHandle aes core.doc request
    let (udm, av) := udmHandleSubscription aes hmac udm rand response
    let ausf := ausfHandleVector sha256 ausf av
    let (amf, msg) := nas5gsSendAuthenticationRequest
      (amfHandleAuthenticate core.amf av.rand av.autn ausf.hxresStar)
    ({ doc := doc, udm := udm, ausf := ausf, amf := amf }, [.authenticationRequest msg])

/-- `amf_nausf_auth_build_authenticate_confirmation`, and what it leads to. -/
def confirm (core : CoreNetwork) (resStar : Block UInt8 16) : CoreNetwork × List CoreOutput :=
  match udmHandleResultConfirmationInform (ausfConfirm core.ausf resStar) with
  | .error _ => reject core
  | .ok request =>
    let (doc, _) := udrHandle aes core.doc request
    let kseaf := ogsKdfKseaf hmac core.ausf.servingNetworkName core.ausf.kausf
    let kamf := ogsKdfKamf hmac core.amf.supi core.amf.abba kseaf
    let amf := { core.amf with kamf := some kamf, authenticating := false }
    ({ core with doc := doc, amf := amf }, [.authenticated kamf])

def CoreNetwork.clearT3560 (core : CoreNetwork) : CoreNetwork :=
  { core with amf := core.amf.clearT3560 }

def gmmHandleAuthenticationResponse (core : CoreNetwork) (resStar : List UInt8) :
    CoreNetwork × List CoreOutput :=
  let core := core.clearT3560
  match sixteen resStar with
  | none => reject core
  | some resStar =>
    if ogsKdfHxresStar sha256 core.amf.rand resStar ≠ core.amf.hxresStar then reject core
    else confirm aes hmac core resStar

/-- `OGS_NAS_5GS_AUTHENTICATION_FAILURE` in `gmm_state_authentication`. -/
def gmmHandleAuthenticationFailure (core : CoreNetwork) (cause : EMmCause) (auts : List UInt8)
    (rand : Block UInt8 16) : CoreNetwork × List CoreOutput :=
  let core := core.clearT3560
  match cause with
  | .ngksiAlreadyInUse => authenticate aes hmac sha256 core none rand
  | .synchFailure =>
    if size : auts.length = 14 then authenticate aes hmac sha256 core (some ⟨auts, size⟩) rand
    else reject core
  | _ => reject core

/-- `AMF_TIMER_T3560` in `gmm_state_authentication`. -/
def t3560Expired (core : CoreNetwork) : CoreNetwork × List CoreOutput :=
  if core.amf.t3560.retryCount ≥ t3560MaxCount then reject core
  else
    let t3560 := { core.amf.t3560 with retryCount := core.amf.t3560.retryCount + 1 }
    let (amf, msg) := nas5gsSendAuthenticationRequest { core.amf with t3560 := t3560 }
    ({ core with amf := amf }, [.authenticationRequest msg])

/-- The core as a registration finds it. -/
def CoreNetwork.registering (core : CoreNetwork) (ksi : Nat) : CoreNetwork :=
  { core with amf := { gmmHandleRegistrationRequest core.amf ksi with authenticating := true } }

/-- One input. Outside `gmm_state_authentication` the messages of the UE are not expected, and T3560
is that of another procedure. -/
def coreStep (core : CoreNetwork) : CoreInput → CoreNetwork × List CoreOutput
  | .start ksi rand => authenticate aes hmac sha256 (core.registering ksi) none rand
  | .authenticationResponse resStar =>
    if core.amf.authenticating then gmmHandleAuthenticationResponse aes hmac sha256 core resStar
    else (core, [])
  | .authenticationFailure cause auts rand =>
    if core.amf.authenticating then
      gmmHandleAuthenticationFailure aes hmac sha256 core cause auts rand
    else (core, [])
  | .t3560 => if core.amf.authenticating then t3560Expired core else (core, [])

end Step

end EdhocAuth.Primary
