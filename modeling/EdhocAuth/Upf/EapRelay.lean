/-
The relay between the SMF and the DN-AAA server (`src/upf/eap-relay.c`).

`relay_main` receives a datagram from the SMF into a buffer of 8192 octets, `process_req`
takes it apart, `radius_exchange` talks to the server and `write_response` frames the
answer for the SMF. `transport_iff`: a request of the SMF reaches `radius_exchange`
unchanged exactly when its datagram fits the buffer.
-/

import EdhocAuth.Upf.Radius

namespace EdhocAuth.Upf

open Octets Eap Smf

/-! ### The relay -/

abbrev relayBufCap : Nat := 8192

def writeResponse (answer : RelayAnswer) : List UInt8 :=
  Octets.ofNat 4 relayMagicResp ++ [relayVersion, answer.result] ++
    Octets.ofNat 2 answer.state.length ++ Octets.ofNat 2 answer.eap.length ++
      (answer.state ++ answer.eap)

def errorResponse : List UInt8 := writeResponse ⟨resultError, [], []⟩

/-- `process_req` up to the call of `radius_exchange`: the call's arguments. The username
is copied to a zeroed buffer of 256 octets. -/
def processReqArgs (buf : List UInt8) : Option (CString × List UInt8 × List UInt8) :=
  if buf.length < 10 then none
  else if Octets.toNat (field buf 0 4) ≠ relayMagicReq then none
  else
    let unameLen := (Octets.octet buf 6).toNat
    let stateLen := Octets.toNat (field buf 7 2)
    let eapLen := Octets.toNat (field buf 9 2)
    if Octets.octet buf 4 ≠ relayVersion then none
    else if buf.length < 11 + unameLen + stateLen + eapLen then none
    else
      some (.ofBuffer (memcpyAt (List.replicate 256 0) 0 (field buf 11 unameLen)),
        field buf (11 + unameLen) stateLen, field buf (11 + unameLen + stateLen) eapLen)

/-- `radius_exchange`; `server` is what the network does with the request, `none` a socket
error or a timeout. -/
def radiusExchange (p : RadiusParams) (server : List UInt8 → Option (List UInt8))
    (username : CString) (state eap : List UInt8) : Option RelayAnswer := do
  let req ← radiusBuildRequest p 8192 username state eap
  let resp ← server req
  if radiusVerifyResponse req (resp.take 8192) p.secret = false then none
  else radiusParseResponse 2048 8192 (resp.take 8192)

def processReq (p : RadiusParams) (server : List UInt8 → Option (List UInt8)) (buf : List UInt8) :
    List UInt8 :=
  match processReqArgs buf with
  | none => errorResponse
  | some (username, state, eap) =>
    match radiusExchange p server username state eap with
    | none => errorResponse
    | some answer => writeResponse answer

/-- One iteration of `relay_main`: `recvfrom` cuts a datagram to the size of the buffer. -/
def relayMain (p : RadiusParams) (server : List UInt8 → Option (List UInt8))
    (datagram : List UInt8) :
    List UInt8 :=
  processReq p server (datagram.take relayBufCap)

/-! ### Requests of the SMF -/

section Requests

variable {username : CString} {state eap : List UInt8}

/-- The fields of a request as `process_req` reads them. -/
structure HeaderRead (buf : List UInt8) (userLen stateLen eapLen : Nat) : Prop where
  magic : Octets.toNat (field buf 0 4) = relayMagicReq
  version : Octets.octet buf 4 = relayVersion
  userLen : (Octets.octet buf 6).toNat = userLen
  stateLen : Octets.toNat (field buf 7 2) = stateLen
  eapLen : Octets.toNat (field buf 9 2) = eapLen

/-- The relay reads the lengths that the SMF has written. -/
theorem headerRead_request {userLen stateLen eapLen : Nat} (rest : List UInt8)
    (user : userLen < 256) (state : stateLen < 65536) (eap : eapLen < 65536) :
    HeaderRead (requestHeader userLen stateLen eapLen ++ rest) userLen stateLen eapLen := by
  have magic :
      field (requestHeader userLen stateLen eapLen ++ rest) 0 4 = Octets.ofNat 4 relayMagicReq :=
    field_eq [] _ ([relayVersion, 0, UInt8.ofNat userLen] ++ Octets.ofNat 2 stateLen ++
      Octets.ofNat 2 eapLen ++ rest) (by simp [requestHeader]) rfl (by simp)
  have version : Octets.octet (requestHeader userLen stateLen eapLen ++ rest) 4 = relayVersion :=
    octet_eq (Octets.ofNat 4 relayMagicReq) ([0, UInt8.ofNat userLen] ++ Octets.ofNat 2 stateLen ++
      Octets.ofNat 2 eapLen ++ rest) (by simp [requestHeader]) (by simp)
  have users :
      Octets.octet (requestHeader userLen stateLen eapLen ++ rest) 6 = UInt8.ofNat userLen :=
    octet_eq (Octets.ofNat 4 relayMagicReq ++ [relayVersion, 0])
      (Octets.ofNat 2 stateLen ++ Octets.ofNat 2 eapLen ++ rest) (by simp [requestHeader]) (by simp)
  have states :
      field (requestHeader userLen stateLen eapLen ++ rest) 7 2 = Octets.ofNat 2 stateLen :=
    field_eq (Octets.ofNat 4 relayMagicReq ++ [relayVersion, 0, UInt8.ofNat userLen]) _
      (Octets.ofNat 2 eapLen ++ rest) (by simp [requestHeader]) (by simp) (by simp)
  have eaps : field (requestHeader userLen stateLen eapLen ++ rest) 9 2 = Octets.ofNat 2 eapLen :=
    field_eq (Octets.ofNat 4 relayMagicReq ++ [relayVersion, 0, UInt8.ofNat userLen] ++
      Octets.ofNat 2 stateLen) _ rest (by simp [requestHeader]) (by simp) (by simp)
  refine ⟨?_, version, ?_, ?_, ?_⟩
  · rw [magic]
    exact toNat_ofNat (by decide)
  · rw [users, UInt8.toNat_ofNat']
    omega
  · rw [states]
    exact toNat_ofNat (by omega)
  · rw [eaps]
    exact toNat_ofNat (by omega)

/-- The header survives if the datagram is cut behind it. -/
theorem HeaderRead.take {buf : List UInt8} {userLen stateLen eapLen n : Nat}
    (read : HeaderRead buf userLen stateLen eapLen) (behind : 11 ≤ n) :
    HeaderRead (buf.take n) userLen stateLen eapLen where
  magic := by rw [field_take (by omega), read.magic]
  version := by rw [octet_take (by omega), read.version]
  userLen := by rw [octet_take (by omega), read.userLen]
  stateLen := by rw [field_take (by omega), read.stateLen]
  eapLen := by rw [field_take (by omega), read.eapLen]

/-- What the relay takes from a datagram whose header it has read. -/
theorem processReqArgs_eq {buf : List UInt8} {userLen stateLen eapLen : Nat}
    (read : HeaderRead buf userLen stateLen eapLen) (long : 10 ≤ buf.length) :
    processReqArgs buf =
      if buf.length < 11 + userLen + stateLen + eapLen then none
      else some (.ofBuffer (memcpyAt (List.replicate 256 0) 0 (field buf 11 userLen)),
        field buf (11 + userLen) stateLen, field buf (11 + userLen + stateLen) eapLen) := by
  unfold processReqArgs
  rw [if_neg (by omega), if_neg (not_not.mpr read.magic)]
  dsimp only
  rw [if_neg (not_not.mpr read.version), read.userLen, read.stateLen, read.eapLen]

/-- The username in its buffer. -/
theorem ofBuffer_username (short : username.strlen ≤ 255) :
    CString.ofBuffer (memcpyAt (List.replicate 256 0) 0 username.octets) = username := by
  have behind : List.replicate 256 (0 : UInt8) = List.replicate username.octets.length 0 ++
      0 :: List.replicate (255 - username.octets.length) 0 := by
    rw [← List.replicate_succ, ← List.replicate_add]
    congr 1
    simp only [CString.strlen] at short
    omega
  rw [memcpyAt, List.take_zero, List.nil_append, Nat.zero_add, behind,
    List.drop_left' (List.length_replicate), CString.ofBuffer_append]

/-- What `process_req` makes of a request of the SMF that `relay_main` has received. -/
theorem processReqArgs_request (admitted : Admitted username state eap) :
    processReqArgs ((requestHeader username.strlen state.length eap.length ++
        (username.octets ++ (state ++ eap))).take relayBufCap) =
      if 11 + username.strlen + state.length + eap.length ≤ relayBufCap then
        some (username, state, eap)
      else none := by
  obtain ⟨user, stateLen, eapLen⟩ := admitted
  simp only [relayMaxUserLen, relayMaxStateLen, relayMaxEapLen] at user stateLen eapLen
  have size : (requestHeader username.strlen state.length eap.length ++
      (username.octets ++ (state ++ eap))).length =
        11 + username.strlen + state.length + eap.length := by
    simp [CString.strlen]
    omega
  have read : HeaderRead ((requestHeader username.strlen state.length eap.length ++
      (username.octets ++ (state ++ eap))).take relayBufCap) username.strlen state.length
      eap.length :=
    (headerRead_request _ (by omega) (by omega) (by omega)).take (by decide)
  rw [processReqArgs_eq read (by rw [List.length_take, size]; simp only [relayBufCap]; omega)]
  by_cases fits : 11 + username.strlen + state.length + eap.length ≤ relayBufCap
  · rw [List.take_of_length_le (by omega), if_neg (by omega), if_pos fits]
    have users : field (requestHeader username.strlen state.length eap.length ++
        (username.octets ++ (state ++ eap))) 11 username.strlen = username.octets :=
      field_eq _ _ _ rfl (by simp) rfl
    have states : field (requestHeader username.strlen state.length eap.length ++
        (username.octets ++ (state ++ eap))) (11 + username.strlen) state.length = state :=
      field_eq (requestHeader username.strlen state.length eap.length ++ username.octets) _ eap
        (by simp)
        (by simp [CString.strlen]) rfl
    have eaps : field (requestHeader username.strlen state.length eap.length ++
        (username.octets ++ (state ++ eap))) (11 + username.strlen + state.length) eap.length =
        eap :=
      field_eq (requestHeader username.strlen state.length eap.length ++
        (username.octets ++ state)) _ []
        (by simp) (by simp [CString.strlen, Nat.add_assoc]) rfl
    rw [users, states, eaps, ofBuffer_username user]
  · rw [if_neg fits, if_pos]
    rw [List.length_take, size]
    omega

end Requests

/-- A request that the SMF sends reaches `radius_exchange` with its username, state and EAP
payload exactly when its datagram fits the receive buffer of the relay. -/
theorem transport_iff {username : CString} {state eap : List UInt8}
    (admitted : Admitted username state eap) :
    (relayRequest username state eap).bind
      (fun datagram => processReqArgs (datagram.take relayBufCap)) =
        some (username, state, eap) ↔
      11 + username.strlen + state.length + eap.length ≤ relayBufCap := by
  rw [relayRequest, if_pos admitted, Option.bind_some, processReqArgs_request admitted]
  split
  · next fits => simp [fits]
  · next long => simp [long]

/-- The first request of a conversation. -/
theorem transport_someSupi :
    (relayRequest someSupi [] [2, 1, 0, 6, 56, 0]).bind
        (fun datagram => processReqArgs (datagram.take relayBufCap)) =
      some (someSupi, [], [2, 1, 0, 6, 56, 0]) :=
  (transport_iff (by decide)).mpr (by decide)

/-- The longest EAP payload that the SMF sends does not arrive. -/
theorem transport_longest_lost :
    ¬ ∀ username state eap, Admitted username state eap →
      (relayRequest username state eap).bind
        (fun datagram => processReqArgs (datagram.take relayBufCap)) =
        some (username, state, eap) := by
  intro arrives
  have admitted : Admitted someSupi [] (List.replicate 8192 0) :=
    ⟨by decide, Nat.zero_le _, by rw [List.length_replicate]⟩
  have lost := arrives someSupi [] (List.replicate 8192 0) admitted
  rw [relayRequest, if_pos admitted, Option.bind_some, processReqArgs_request admitted,
    List.length_replicate, if_neg (by decide)] at lost
  cases lost

end EdhocAuth.Upf
