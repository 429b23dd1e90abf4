/-
The SMF side of the relay (`src/smf/radius-client.c`): the datagram that
`smf_eap_relay_exchange` sends to the UPF and how it reads the answer.

What the network does between the two is a function from the datagram sent to the one
received; `none` stands for a socket error or for the two seconds running out.
-/

import EdhocAuth.Lib.Octets

namespace EdhocAuth.Smf

open Octets

def relayMagicReq : Nat := 0xE5E5DEAD

def relayMagicResp : Nat := 0xE5E5BEEF

def relayVersion : UInt8 := 1

abbrev relayMaxUserLen : Nat := 255

abbrev relayMaxStateLen : Nat := 2048

abbrev relayMaxEapLen : Nat := 8192

abbrev relayRespCap : Nat := 16384

def resultAccept : UInt8 := 0

def resultReject : UInt8 := 1

def resultChallenge : UInt8 := 2

def resultError : UInt8 := 3

/-- What an exchange that returned `OGS_OK` wrote to its output arguments. -/
structure RelayAnswer where
  result : UInt8
  state : List UInt8
  eap : List UInt8
deriving DecidableEq

/-! ### The request -/

/-- The size checks before the request is assembled. -/
def Admitted (username : CString) (state eap : List UInt8) : Prop :=
  username.strlen ≤ relayMaxUserLen ∧ state.length ≤ relayMaxStateLen ∧ eap.length ≤ relayMaxEapLen

instance (username : CString) (state eap : List UInt8) :
    Decidable (Admitted username state eap) := by
  unfold Admitted
  infer_instance

def requestHeader (userLen stateLen eapLen : Nat) : List UInt8 :=
  Octets.ofNat 4 relayMagicReq ++ [relayVersion, 0, UInt8.ofNat userLen] ++
    Octets.ofNat 2 stateLen ++ Octets.ofNat 2 eapLen

def relayRequest (username : CString) (state eap : List UInt8) : Option (List UInt8) :=
  if Admitted username state eap then
    some (requestHeader username.strlen state.length eap.length ++
      (username.octets ++ (state ++ eap)))
  else none

@[simp] theorem length_requestHeader (userLen stateLen eapLen : Nat) :
    (requestHeader userLen stateLen eapLen).length = 11 := by
  simp [requestHeader]

/-- What a request to the relay consists of, if all lengths are admitted. -/
theorem relayRequest_eq_some {username : CString} {state eap datagram : List UInt8} :
    relayRequest username state eap = some datagram ↔
      Admitted username state eap ∧
        datagram = requestHeader username.strlen state.length eap.length ++
          (username.octets ++ (state ++ eap)) := by
  unfold relayRequest
  split
  · next admitted => simp [admitted, eq_comm]
  · next refused => simp [refused]

/-! ### The answer -/

/-- From `rcv_len` on: the answer that a received datagram carries. -/
def relayResponse (stateCap eapCap : Nat) (resp : List UInt8) : Option RelayAnswer :=
  if resp.length < 10 then none
  else if Octets.toNat (field resp 0 4) ≠ relayMagicResp then none
  else if Octets.octet resp 4 ≠ relayVersion then none
  else
    let stateLen := Octets.toNat (field resp 6 2)
    let eapLen := Octets.toNat (field resp 8 2)
    if resp.length < 10 + stateLen + eapLen then none
    else if stateCap < stateLen ∨ eapCap < eapLen then none
    else some ⟨Octets.octet resp 5, field resp 10 stateLen, field resp (10 + stateLen) eapLen⟩

def smfEapRelayExchange (username : CString) (state eap : List UInt8) (stateCap eapCap : Nat)
    (network : List UInt8 → Option (List UInt8)) : Option RelayAnswer := do
  let req ← relayRequest username state eap
  let resp ← network req
  relayResponse stateCap eapCap (resp.take relayRespCap)

/-- What an accepted answer looks like, and how it is read. -/
theorem relayResponse_eq_some {stateCap eapCap : Nat} {resp : List UInt8} {answer : RelayAnswer} :
    relayResponse stateCap eapCap resp = some answer ↔
      10 ≤ resp.length ∧ Octets.toNat (field resp 0 4) = relayMagicResp ∧
      Octets.octet resp 4 = relayVersion ∧
      10 + Octets.toNat (field resp 6 2) + Octets.toNat (field resp 8 2) ≤ resp.length ∧
      Octets.toNat (field resp 6 2) ≤ stateCap ∧ Octets.toNat (field resp 8 2) ≤ eapCap ∧
      answer = ⟨Octets.octet resp 5, field resp 10 (Octets.toNat (field resp 6 2)),
        field resp (10 + Octets.toNat (field resp 6 2)) (Octets.toNat (field resp 8 2))⟩ := by
  unfold relayResponse
  dsimp only
  split_ifs with short magic version body caps
  · simp; omega
  · simp [magic]
  · simp [version]
  · simp; omega
  · simp; omega
  · simp only [not_or, not_lt, ne_eq, not_not] at short magic version body caps
    simp [short, magic, version, body, caps, eq_comm]

/-- The caller's buffers hold what an accepted answer carries. -/
theorem relayResponse_fits {stateCap eapCap : Nat} {resp : List UInt8} {answer : RelayAnswer}
    (read : relayResponse stateCap eapCap resp = some answer) :
    answer.state.length ≤ stateCap ∧ answer.eap.length ≤ eapCap := by
  obtain ⟨-, -, -, -, stateFits, eapFits, rfl⟩ := relayResponse_eq_some.mp read
  simp only [length_field]
  omega

def someSupi : CString where
  octets :=
    [0x69, 0x6d, 0x73, 0x69, 0x2d, 0x39, 0x39, 0x39, 0x37, 0x30, 0x30, 0x30, 0x30, 0x30, 0x30,
    0x30, 0x30, 0x30, 0x30, 0x31]
  nulFree := by decide

end EdhocAuth.Smf
