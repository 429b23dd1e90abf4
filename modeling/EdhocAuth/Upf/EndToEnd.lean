/-
Frames on their way between the SMF and the DN-AAA server.

The SMF frames an EAP payload for the relay (`smf/radius-client.c`), the relay splits it
over attributes of an Access-Request, and on the way back puts the attributes of the answer
together and frames them for the SMF (`upf/eap-relay.c`). `relay_transparent`: the hops
compose to the identity in both directions.
-/

import EdhocAuth.Eap.Pdu
import EdhocAuth.Eap.Requests
import EdhocAuth.Eap.RoundTrip
import EdhocAuth.Upf.EapRelay

namespace EdhocAuth.Upf

open Octets Eap Smf

/-! ### Splitting a value over attributes -/

/-- The octets of a value of `n` octets in attributes. -/
def splitLen (n : Nat) : Nat := n + 2 * ((n + 252) / 253)

/-- The attributes that a value has been split over. -/
structure SplitAs (type : UInt8) (data : List UInt8) (as : List Tlv.Attr) : Prop where
  types : ∀ a ∈ as, a.type = type
  values : as.flatMap Tlv.Attr.value = data
  size : (Tlv.encodeAll as).length = splitLen data.length

theorem radiusAppendAttr_nil (cap : Nat) (type : UInt8) (fuel : Nat) (buf : List UInt8) :
    radiusAppendAttr cap type fuel buf [] = some buf := by
  cases fuel <;> simp [radiusAppendAttr]

/-- One round appends the attribute that carries the first 253 octets of what is left. -/
theorem radiusAppendAttr_step {cap : Nat} {data : List UInt8} (fuel : Nat) (type : UInt8)
    (buf : List UInt8) (some : data ≠ []) (room : buf.length + 2 + min 253 data.length ≤ cap) :
    ∃ first : Tlv.Attr, first.type = type ∧ first.value = data.take (min 253 data.length) ∧
      radiusAppendAttr cap type (fuel + 1) buf data =
        radiusAppendAttr cap type fuel (buf ++ first.encode) (data.drop (min 253 data.length)) := by
  have chunk : (data.take (min 253 data.length)).length = min 253 data.length := by
    rw [List.length_take]
    omega
  let first : Tlv.Attr := ⟨type, data.take (min 253 data.length), by rw [chunk]; omega⟩
  have encoded : first.encode =
      [type, UInt8.ofNat (2 + min 253 data.length)] ++ data.take (min 253 data.length) := by
    simp only [first, Tlv.Attr.encode, chunk]
    rfl
  refine ⟨first, rfl, rfl, ?_⟩
  rw [radiusAppendAttr, if_neg some]
  dsimp only
  rw [if_neg (by omega), ← encoded]

/-- Data is split over attributes of at most 253 octets. -/
theorem radiusAppendAttr_split {cap fuel : Nat} {data : List UInt8} (type : UInt8)
    (buf : List UInt8) (enough : data.length ≤ fuel)
    (room : buf.length + splitLen data.length ≤ cap) :
    ∃ as, radiusAppendAttr cap type fuel buf data = some (buf ++ Tlv.encodeAll as) ∧
      SplitAs type data as := by
  induction fuel generalizing buf data with
  | zero =>
    have empty : data = [] := List.length_eq_zero_iff.mp (by omega)
    subst empty
    exact ⟨[], by simp [radiusAppendAttr_nil], by simp, rfl, rfl⟩
  | succ fuel ih =>
    by_cases empty : data = []
    · subst empty
      exact ⟨[], by simp [radiusAppendAttr_nil], by simp, rfl, rfl⟩
    · have pos : 0 < data.length := List.length_pos_iff.mpr empty
      have left : splitLen data.length =
          2 + min 253 data.length + splitLen (data.drop (min 253 data.length)).length := by
        rw [List.length_drop]
        unfold splitLen
        omega
      have shorter : (data.drop (min 253 data.length)).length ≤ fuel := by
        rw [List.length_drop]
        omega
      have fits : buf.length + 2 + min 253 data.length ≤ cap := by omega
      obtain ⟨first, rfl, value, step⟩ := radiusAppendAttr_step fuel type buf empty fits
      have firstLen : first.encode.length = 2 + min 253 data.length := by
        rw [Tlv.length_encode, value, List.length_take]
        omega
      obtain ⟨as, appended, split⟩ := ih (buf ++ first.encode) shorter
        (by rw [List.length_append, firstLen]; omega)
      refine ⟨first :: as, ?_, List.forall_mem_cons.mpr ⟨rfl, split.types⟩, ?_, ?_⟩
      · rw [step, appended, Tlv.encodeAll_cons, List.append_assoc]
      · rw [List.flatMap_cons, split.values, value, List.take_append_drop]
      · rw [Tlv.encodeAll_cons, List.length_append, split.size, firstLen, left]

/-- The attributes of a split make up the data. -/
theorem SplitAs.collect {type : UInt8} {data : List UInt8} {as : List Tlv.Attr}
    (split : SplitAs type data as) :
    Tlv.collect type as = data := by
  rw [Tlv.collect_of_all split.types, split.values]

/-- A split has attributes of its type only. -/
theorem SplitAs.collect_other {type other : UInt8} {data : List UInt8} {as : List Tlv.Attr}
    (split : SplitAs type data as) (ne : type ≠ other) : Tlv.collect other as = [] :=
  Tlv.collect_of_none fun a mem same => ne ((split.types a mem).symm.trans same)

def appendParts (cap : Nat) (buf : List UInt8) (parts : List (UInt8 × List UInt8)) :
    Option (List UInt8) :=
  parts.foldlM (fun buf part => radiusAppendAttr cap part.1 part.2.length buf part.2) buf

def partsLen (parts : List (UInt8 × List UInt8)) : Nat :=
  (parts.map fun part => splitLen part.2.length).sum

/-- The values of one type among others. -/
def partsOf (type : UInt8) (parts : List (UInt8 × List UInt8)) : List UInt8 :=
  (parts.filter (·.1 = type)).flatMap (·.2)

/-- Values that have room end up in attributes from which they can be collected. -/
theorem appendParts_eq {cap : Nat} {parts : List (UInt8 × List UInt8)} {buf : List UInt8}
    (room : buf.length + partsLen parts ≤ cap) :
    ∃ as, appendParts cap buf parts = some (buf ++ Tlv.encodeAll as) ∧
      (Tlv.encodeAll as).length = partsLen parts ∧
      (∀ type, Tlv.collect type as = partsOf type parts) ∧
      ∀ a ∈ as, ∃ part ∈ parts, a.type = part.1 := by
  induction parts generalizing buf with
  | nil => exact ⟨[], by simp [appendParts], rfl, fun _ => rfl, by simp⟩
  | cons part parts ih =>
    have more : partsLen (part :: parts) = splitLen part.2.length + partsLen parts := by
      simp [partsLen]
    have here : buf.length + splitLen part.2.length ≤ cap := by omega
    obtain ⟨first, appended, split⟩ :=
      radiusAppendAttr_split part.1 buf (Nat.le_refl part.2.length) here
    have there : (buf ++ Tlv.encodeAll first).length + partsLen parts ≤ cap := by
      rw [List.length_append, split.size]
      omega
    obtain ⟨as, rest, size, collected, types⟩ := ih there
    refine ⟨first ++ as, ?_, ?_, fun type => ?_, fun a mem => ?_⟩
    · rw [appendParts, List.foldlM_cons, appended]
      rw [Tlv.encodeAll_append, ← List.append_assoc]
      exact rest
    · rw [Tlv.encodeAll_append, List.length_append, split.size, size, more]
    · rw [Tlv.collect_append, collected]
      by_cases same : part.1 = type
      · rw [← same, split.collect]
        simp [partsOf]
      · rw [split.collect_other same]
        simp [partsOf, same]
    · rcases List.mem_append.mp mem with here | there
      · exact ⟨part, List.mem_cons_self, split.types a here⟩
      · obtain ⟨other, mem, type⟩ := types a there
        exact ⟨other, List.mem_cons_of_mem part mem, type⟩

/-! ### Access-Requests -/

def requestParts (username : CString) (state eap : List UInt8) : List (UInt8 × List UInt8) :=
  [(attrUserName, username.octets), (attrServiceType, Octets.ofNat 2 serviceFramedUser),
    (attrNasPortType, Octets.ofNat 2 nasPortVirtual), (attrState, state), (attrEapMessage, eap)]

/-- The end of `radius_build_request`: the Message-Authenticator and the length. -/
def signRequest (p : RadiusParams) (cap : Nat) (req : List UInt8) : Option (List UInt8) :=
  if cap < req.length + 18 then none
  else
    let full := req ++ [attrMessageAuthenticator, 18] ++ List.replicate 16 0
    if 4096 < full.length then none
    else
      let full' := memcpyAt full 2 (Octets.ofNat 2 full.length)
      some (memcpyAt full' (req.length + 2) (hmacMd5 p.secret full'))

/-- A request is its header, the attributes and the signature. -/
theorem radiusBuildRequest_eq (p : RadiusParams) {cap : Nat} {username : CString}
    {state eap : List UInt8} (user : username.strlen ≤ 253)
    (room : 44 + username.strlen + eap.length ≤ cap) :
    radiusBuildRequest p cap username state eap =
      (appendParts cap ([codeAccessRequest, p.identifier, 0, 0] ++ p.auth.toList)
        (requestParts username state eap)).bind (signRequest p cap) := by
  rw [radiusBuildRequest, if_neg (by omega), if_neg (by omega)]
  simp only [appendParts, requestParts, List.foldlM_cons, List.foldlM_nil, radiusAppendU16Attr,
    length_ofNat, Option.bind_eq_bind, Option.bind_assoc]
  by_cases empty : state = []
  · simp only [empty, ne_eq, not_true, if_false, radiusAppendAttr_nil]
    rfl
  · simp only [empty, ne_eq, not_false_iff, if_true]
    rfl

/-- What stands in front of the value of the Message-Authenticator, which is the last one. -/
def signedFront (p : RadiusParams) (body : List UInt8) : List UInt8 :=
  [codeAccessRequest, p.identifier] ++ Octets.ofNat 2 (20 + body.length + 18) ++ p.auth.toList ++
    body ++
    [attrMessageAuthenticator, 18]

theorem length_signedFront (p : RadiusParams) (body : List UInt8) :
    (signedFront p body).length = 20 + body.length + 2 := by
  simp only [signedFront, List.length_append, List.length_cons, List.length_nil, length_ofNat,
    List.Vector.toList_length]

/-- The Message-Authenticator is appended as an attribute of its own. -/
theorem signRequest_eq (p : RadiusParams) {cap : Nat} {body : List UInt8}
    (room : 20 + body.length + 18 ≤ cap) (max : 20 + body.length + 18 ≤ 4096) :
    signRequest p cap ([codeAccessRequest, p.identifier, 0, 0] ++ p.auth.toList ++ body) =
      some (signedFront p body ++
        hmacMd5 p.secret (signedFront p body ++ List.replicate 16 0)) := by
  have size :
      ([codeAccessRequest, p.identifier, 0, 0] ++ p.auth.toList ++ body).length =
        20 + body.length := by
    simp only [List.length_append, List.length_cons, List.length_nil, List.Vector.toList_length]
  have fullLen : ([codeAccessRequest, p.identifier, 0, 0] ++ p.auth.toList ++ body ++
      [attrMessageAuthenticator, 18] ++ List.replicate 16 0).length = 20 + body.length + 18 := by
    rw [List.length_append, List.length_append, size]
    rfl
  have lengthSet : memcpyAt ([codeAccessRequest, p.identifier, 0, 0] ++ p.auth.toList ++ body ++
      [attrMessageAuthenticator, 18] ++ List.replicate 16 0) 2
      (Octets.ofNat 2 (20 + body.length + 18)) =
      signedFront p body ++ List.replicate 16 0 := by
    have parts : [codeAccessRequest, p.identifier, 0, 0] ++ p.auth.toList ++ body ++
        [attrMessageAuthenticator, 18] ++ List.replicate 16 0 = [codeAccessRequest, p.identifier] ++
        ([0, 0] ++ (p.auth.toList ++
            (body ++ ([attrMessageAuthenticator, 18] ++ List.replicate 16 0)))) := by
      simp
    have two : [codeAccessRequest, p.identifier].length = 2 := rfl
    have zeros : [(0 : UInt8), 0].length = 2 := rfl
    rw [parts, memcpyAt_append two, length_ofNat, List.drop_left' zeros, signedFront]
    simp only [List.append_assoc]
  rw [signRequest, size, if_neg (by omega)]
  dsimp only
  rw [fullLen, if_neg (by omega), lengthSet, memcpyAt_append (length_signedFront p body),
    length_hmacMd5, List.drop_of_length_le (by simp), List.append_nil]

def frontParts (username : CString) (state : List UInt8) : List (UInt8 × List UInt8) :=
  [(attrUserName, username.octets), (attrServiceType, Octets.ofNat 2 serviceFramedUser),
    (attrNasPortType, Octets.ofNat 2 nasPortVirtual), (attrState, state)]

/-- The attributes of a request: the EAP payload is the last part in front of the
Message-Authenticator. -/
structure RequestAttrs (username : CString) (state eap : List UInt8) (front eaps : List Tlv.Attr) :
    Prop where
  split : SplitAs attrEapMessage eap eaps
  types : ∀ a ∈ front, ∃ part ∈ frontParts username state, a.type = part.1
  name : Tlv.collect attrUserName front = username.octets
  collected : Tlv.collect attrState front = state
  size : (Tlv.encodeAll (front ++ eaps)).length = partsLen (requestParts username state eap)

/-- What stands in front of the EAP message is of other types. -/
theorem RequestAttrs.ne {username : CString} {state eap : List UInt8} {front eaps : List Tlv.Attr}
    (attrs : RequestAttrs username state eap front eaps) {a : Tlv.Attr} (mem : a ∈ front) :
    a.type ≠ attrEapMessage ∧ a.type ≠ attrMessageAuthenticator := by
  have others :
      ∀ part ∈ frontParts username state, part.1 ≠ attrEapMessage ∧
      part.1 ≠ attrMessageAuthenticator := by
    simp [frontParts, attrUserName, attrServiceType, attrNasPortType, attrState, attrEapMessage,
      attrMessageAuthenticator]
  obtain ⟨part, mem, type⟩ := attrs.types a mem
  rw [type]
  exact others part mem

theorem partsLen_concat (parts : List (UInt8 × List UInt8)) (part : UInt8 × List UInt8) :
    partsLen (parts ++ [part]) = partsLen parts + splitLen part.2.length := by
  simp [partsLen]

theorem appendParts_concat (cap : Nat) (buf : List UInt8) (parts : List (UInt8 × List UInt8))
    (part : UInt8 × List UInt8) :
    appendParts cap buf (parts ++ [part]) =
      (appendParts cap buf parts).bind fun buf =>
        radiusAppendAttr cap part.1 part.2.length buf part.2 := by
  rw [appendParts, List.foldlM_append]
  congr 1
  funext buf
  rw [List.foldlM_cons]
  exact Option.bind_fun_some _

/-- With room for all its parts, a request is put together. -/
theorem radiusBuildRequest_attrs (p : RadiusParams) {cap : Nat} {username : CString}
    {state eap : List UInt8} (user : username.strlen ≤ 253)
    (room : 20 + partsLen (requestParts username state eap) + 18 ≤ cap)
    (max : 20 + partsLen (requestParts username state eap) + 18 ≤ 4096) :
    ∃ front eaps digest, RequestAttrs username state eap front eaps ∧
      digest = hmacMd5 p.secret
        (signedFront p (Tlv.encodeAll (front ++ eaps)) ++ List.replicate 16 0) ∧
      radiusBuildRequest p cap username state eap =
        some (signedFront p (Tlv.encodeAll (front ++ eaps)) ++ digest) := by
  have split :
    requestParts username state eap = frontParts username state ++ [(attrEapMessage, eap)] := rfl
  have total : partsLen (requestParts username state eap) =
      partsLen (frontParts username state) + splitLen eap.length := by
    rw [split, partsLen_concat]
  have sizes : username.strlen + eap.length + 8 ≤ partsLen (requestParts username state eap) := by
    simp only [partsLen, requestParts, List.map_cons, List.map_nil, List.sum_cons, List.sum_nil,
      length_ofNat, splitLen, CString.strlen]
    omega
  have startLen : ([codeAccessRequest, p.identifier, 0, 0] ++ p.auth.toList).length = 20 := by simp
  obtain ⟨front, appended, size, collected, types⟩ :=
    appendParts_eq (show ([codeAccessRequest, p.identifier, 0, 0] ++ p.auth.toList).length +
      partsLen (frontParts username state) ≤ cap by omega)
  have frontLen :
      ([codeAccessRequest, p.identifier, 0, 0] ++ p.auth.toList ++ Tlv.encodeAll front).length +
      splitLen eap.length ≤ cap := by
    rw [List.length_append, startLen, size]
    omega
  obtain ⟨eaps, last, eapSplit⟩ :=
    radiusAppendAttr_split attrEapMessage _ (Nat.le_refl eap.length) frontLen
  have whole :
      (Tlv.encodeAll (front ++ eaps)).length = partsLen (requestParts username state eap) := by
    rw [Tlv.encodeAll_append, List.length_append, size, eapSplit.size, total]
  refine ⟨front, eaps, _, ⟨eapSplit, types, ?_, ?_, whole⟩, rfl, ?_⟩
  · rw [collected]
    simp [frontParts, partsOf, attrUserName, attrServiceType, attrNasPortType, attrState]
  · rw [collected]
    simp [frontParts, partsOf, attrUserName, attrServiceType, attrNasPortType, attrState]
  · rw [radiusBuildRequest_eq p user (by omega), split, appendParts_concat, appended,
      Option.bind_some, last, Option.bind_some, List.append_assoc, ← Tlv.encodeAll_append,
      signRequest_eq p (by omega) (by omega)]

/-- A Message-Authenticator. -/
def authenticatorOf (digest : List UInt8) (sixteen : digest.length = 16) : Tlv.Attr :=
  ⟨attrMessageAuthenticator, digest, by omega⟩

/-- The attributes of a signed request. -/
theorem drop_signed (p : RadiusParams) (as : List Tlv.Attr) {digest : List UInt8}
    (sixteen : digest.length = 16) :
    (signedFront p (Tlv.encodeAll as) ++ digest).drop 20 =
      Tlv.encodeAll (as ++ [authenticatorOf digest sixteen]) := by
  have parts : signedFront p (Tlv.encodeAll as) ++ digest = ([codeAccessRequest, p.identifier] ++
      Octets.ofNat 2 (20 + (Tlv.encodeAll as).length + 18) ++ p.auth.toList) ++
      (Tlv.encodeAll as ++ ([attrMessageAuthenticator, 18] ++ digest)) := by
    simp only [signedFront, List.append_assoc]
  rw [parts, List.drop_left' (by simp), Tlv.encodeAll_append, Tlv.encodeAll_cons, Tlv.encodeAll_nil,
    List.append_nil]
  simp only [authenticatorOf, Tlv.Attr.encode, sixteen]
  rfl

/-- A frame with room for all its parts is put into a packet of at most 4096 octets from which
its values can be collected. -/
theorem radiusBuildRequest_collect (p : RadiusParams) {cap : Nat} {username : CString}
    {state eap : List UInt8} (user : username.strlen ≤ 253)
    (room : 20 + partsLen (requestParts username state eap) + 18 ≤ cap)
    (max : 20 + partsLen (requestParts username state eap) + 18 ≤ 4096) :
    ∃ packet as, radiusBuildRequest p cap username state eap = some packet ∧ packet.length ≤ 4096 ∧
      Tlv.attributes (packet.drop 20) = some as ∧ Tlv.collect attrEapMessage as = eap ∧
      Tlv.collect attrState as = state := by
  obtain ⟨front, eaps, digest, attrs, hmac, built⟩ := radiusBuildRequest_attrs p user room max
  have sixteen : digest.length = 16 := by
    rw [hmac]
    exact length_hmacMd5 _ _
  have noEap : Tlv.collect attrEapMessage front = [] :=
    Tlv.collect_of_none fun a mem => (attrs.ne mem).1
  refine ⟨_, front ++ eaps ++ [authenticatorOf digest sixteen], built, ?_, ?_, ?_, ?_⟩
  · rw [List.length_append, length_signedFront, sixteen, attrs.size]
    omega
  · rw [drop_signed p _ sixteen]
    exact Tlv.attributes_eq_some_iff.mpr ⟨[], (List.append_nil _).symm, Nat.zero_le 1⟩
  · rw [Tlv.collect_append, Tlv.collect_append, noEap, attrs.split.collect]
    simp [Tlv.collect_cons, authenticatorOf, attrEapMessage, attrMessageAuthenticator]
  · rw [Tlv.collect_append, Tlv.collect_append, attrs.collected,
      attrs.split.collect_other (by decide)]
    simp [Tlv.collect_cons, authenticatorOf, attrState, attrMessageAuthenticator]

/-! ### Answers -/

/-- The SMF reads the answer that the relay has framed. -/
theorem relayResponse_writeResponse {answer : RelayAnswer} {stateCap eapCap : Nat}
    (state : answer.state.length ≤ stateCap) (eap : answer.eap.length ≤ eapCap)
    (state16 : answer.state.length < 65536) (eap16 : answer.eap.length < 65536) :
    relayResponse stateCap eapCap (writeResponse answer) = some answer := by
  obtain ⟨result, st, ep⟩ := answer
  simp only at state eap state16 eap16
  have magic : field (writeResponse ⟨result, st, ep⟩) 0 4 = Octets.ofNat 4 relayMagicResp :=
    field_eq [] _ ([relayVersion, result] ++ Octets.ofNat 2 st.length ++ Octets.ofNat 2 ep.length ++
      (st ++ ep))
      (by simp [writeResponse]) rfl (by simp)
  have version : Octets.octet (writeResponse ⟨result, st, ep⟩) 4 = relayVersion :=
    Octets.octet_eq (Octets.ofNat 4 relayMagicResp)
      (result :: (Octets.ofNat 2 st.length ++ Octets.ofNat 2 ep.length ++ (st ++ ep)))
      (by simp [writeResponse]) (by simp)
  have code : Octets.octet (writeResponse ⟨result, st, ep⟩) 5 = result :=
    Octets.octet_eq (Octets.ofNat 4 relayMagicResp ++ [relayVersion])
      (Octets.ofNat 2 st.length ++ Octets.ofNat 2 ep.length ++ (st ++ ep)) (by simp [writeResponse])
        (by simp)
  have stateLen : field (writeResponse ⟨result, st, ep⟩) 6 2 = Octets.ofNat 2 st.length :=
    field_eq (Octets.ofNat 4 relayMagicResp ++ [relayVersion, result]) _
      (Octets.ofNat 2 ep.length ++ (st ++ ep))
      (by simp [writeResponse]) (by simp) (by simp)
  have eapLen : field (writeResponse ⟨result, st, ep⟩) 8 2 = Octets.ofNat 2 ep.length :=
    field_eq (Octets.ofNat 4 relayMagicResp ++ [relayVersion, result] ++ Octets.ofNat 2 st.length) _
      (st ++ ep)
      (by simp [writeResponse]) (by simp) (by simp)
  have states : field (writeResponse ⟨result, st, ep⟩) 10 st.length = st :=
    field_eq (Octets.ofNat 4 relayMagicResp ++ [relayVersion, result] ++ Octets.ofNat 2 st.length ++
      Octets.ofNat 2 ep.length) _ ep (by simp [writeResponse]) (by simp) rfl
  have eaps : field (writeResponse ⟨result, st, ep⟩) (10 + st.length) ep.length = ep :=
    field_eq (Octets.ofNat 4 relayMagicResp ++ [relayVersion, result] ++ Octets.ofNat 2 st.length ++
      Octets.ofNat 2 ep.length ++ st) _ [] (by simp [writeResponse]) (by simp; omega) rfl
  have total : (writeResponse ⟨result, st, ep⟩).length = 10 + st.length + ep.length := by
    simp [writeResponse]
    omega
  have s16 : Octets.toNat (Octets.ofNat 2 st.length) = st.length := toNat_ofNat (by omega)
  have e16 : Octets.toNat (Octets.ofNat 2 ep.length) = ep.length := toNat_ofNat (by omega)
  rw [relayResponse_eq_some, magic, version, code, stateLen, eapLen, s16, e16, states, eaps, total]
  exact ⟨by omega, toNat_ofNat (by decide), rfl, by omega, state, eap, rfl⟩

/-- The values of a type are shorter than their attributes. -/
theorem length_collect_le (type : UInt8) (as : List Tlv.Attr) :
    (Tlv.collect type as).length ≤ (Tlv.encodeAll as).length := by
  induction as with
  | nil => exact Nat.le_refl 0
  | cons a as ih =>
    rw [Tlv.collect_cons, Tlv.encodeAll_cons, List.length_append, List.length_append,
      Tlv.length_encode]
    split
    · omega
    · rw [List.length_nil]
      omega

/-- A verified answer whose State fits the relay's buffer is parsed, framed in the buffer for
responses, and read by the SMF. -/
theorem answer_delivered {req resp secret : List UInt8} {as : List Tlv.Attr} {result : UInt8}
    (verified : radiusVerifyResponse req resp secret = true)
    (is : Tlv.attributes (packetBody resp) = some as)
    (code : resultOfCode (Octets.octet resp 0) = some result)
    (stateFits : (Tlv.collect attrState as).length ≤ 2048) :
    radiusParseResponse 2048 8192 resp =
        some ⟨result, Tlv.collect attrState as, Tlv.collect attrEapMessage as⟩ ∧
      (writeResponse ⟨result, Tlv.collect attrState as, Tlv.collect attrEapMessage as⟩).length ≤
        relayBufCap ∧
      relayResponse 4096 8192
          ((writeResponse ⟨result, Tlv.collect attrState as, Tlv.collect attrEapMessage as⟩).take
            relayRespCap) =
        some ⟨result, Tlv.collect attrState as, Tlv.collect attrEapMessage as⟩ := by
  obtain ⟨-, -, header, inside, max, -, -⟩ := radiusVerifyResponse_eq_true.mp verified
  have eapFits : (Tlv.collect attrEapMessage as).length ≤ 4096 := by
    obtain ⟨rest, body, -⟩ := Tlv.attributes_eq_some_iff.mp is
    have size := congrArg List.length body
    rw [packetBody, List.length_drop, List.length_take_of_le inside, List.length_append] at size
    have := length_collect_le attrEapMessage as
    omega
  have total : (writeResponse
      ⟨result, Tlv.collect attrState as, Tlv.collect attrEapMessage as⟩).length ≤ relayBufCap := by
    simp only [writeResponse, List.length_append, length_ofNat, List.length_cons, List.length_nil,
      relayBufCap]
    omega
  refine ⟨?_, total, ?_⟩
  · exact radiusParseResponse_eq_some.mpr
      ⟨header, inside, as, result, is, stateFits, by omega, code, rfl⟩
  · simp only [relayBufCap] at total
    rw [List.take_of_length_le (by simp only [relayRespCap]; omega)]
    exact relayResponse_writeResponse (by simp only; omega) (by simp only; omega)
      (by simp only; omega)
      (by simp only; omega)

/-! ### The whole way -/

theorem length_encodeEdhocFragment_le (payload : List UInt8) (payloadLen payloadPos : Nat) :
    (encodeEdhocFragment payload payloadLen payloadPos).1.length ≤ fragWireMax := by
  rw [encodeEdhocFragment]
  split
  · exact Nat.zero_le _
  · have cap := fragLen_le_cap payloadPos (payloadLen - payloadPos)
    have piece :
        ((payload.drop payloadPos).take (fragLen payloadPos (payloadLen - payloadPos))).length ≤
        fragLen payloadPos (payloadLen - payloadPos) := List.length_take_le _ _
    simp only [fragWire, List.length_cons, List.length_append, fragWireMax]
    by_cases first : payloadPos = 0
    · rw [if_pos first] at cap
      simp only [firstCap, fragWireMax, fragHdrLen, fragLenLen] at cap
      split
      · simp only [htons, List.length_cons, List.length_nil]
        omega
      · rw [List.length_nil]
        omega
    · rw [if_neg first] at cap
      simp only [nextCap, fragWireMax, fragHdrLen] at cap
      rw [if_neg (by simp [first]), List.length_nil]
      omega

/-- What the UE answers is no longer than a wire. -/
theorem receiveEdhoc_length {P : Primitives UInt8} {files : UeFiles} {coins : UeCoins}
    {data typeData : List UInt8} {u v : Ue}
    (answered : receiveEdhoc P files coins data u = (.ok typeData, v)) :
    typeData.length ≤ fragWireMax := by
  rcases receiveEdhoc_cases P files coins data u with ⟨w, -, failed⟩ | ⟨w, -, step⟩
  · rw [failed] at answered
    cases answered
  · rw [answered] at step
    cases step with
    | sends _ => exact length_encodeEdhocFragment_le _ _ _
    | started _ _ _ _ => exact (frag_length _ 0).2
    | part _ _ _ => exact Nat.le_of_ble_eq_true rfl
    | answered _ _ _ _ => exact (frag_length _ 0).2
    | completed _ _ _ _ => exact Nat.le_of_ble_eq_true rfl
    | acknowledged _ _ _ => exact Nat.le_of_ble_eq_true rfl

/-- What the relay sends for a frame: a packet of the maximal size or less whose attributes
carry the frame and the State. -/
structure Carried (p : RadiusParams) (supi : CString) (state eap : List UInt8) : Prop where
  request : ∃ datagram, relayRequest supi state eap = some datagram ∧
    processReqArgs (datagram.take relayBufCap) = some (supi, state, eap)
  packet :
    ∃ packet as, radiusBuildRequest p 8192 supi state eap = some packet ∧ packet.length ≤ 4096 ∧
    Tlv.attributes (packet.drop 20) = some as ∧ Tlv.collect attrEapMessage as = eap ∧
    Tlv.collect attrState as = state

/-- A frame of the UE is carried to the server. -/
theorem frame_carried (p : RadiusParams) {supi : CString} {state eap : List UInt8}
    (user : supi.strlen ≤ 253) (stateLen : state.length ≤ 253) (eapLen : eap.length ≤ 1005) :
    Carried p supi state eap := by
  have admitted : Admitted supi state eap := by
    refine ⟨?_, ?_, ?_⟩
    · exact user.trans (by decide)
    · exact stateLen.trans (by decide)
    · exact eapLen.trans (by decide)
  have parts : partsLen (requestParts supi state eap) ≤ 1600 := by
    simp only [partsLen, requestParts, List.map_cons, List.map_nil, List.sum_cons, List.sum_nil,
      length_ofNat, splitLen]
    simp only [CString.strlen] at user
    omega
  refine ⟨⟨_, relayRequest_eq_some.mpr ⟨admitted, rfl⟩, ?_⟩, ?_⟩
  · rw [processReqArgs_request admitted, if_pos]
    simp only [relayBufCap]
    omega
  · exact radiusBuildRequest_collect p user (by omega) (by omega)

/-- One exchange of the SMF, over the relay, with a server that answers: what the SMF gets is what
the attributes of the answer carry. -/
theorem exchange_through_relay {p : RadiusParams} {server : List UInt8 → Option (List UInt8)}
    {supi : CString} {state eap packet resp : List UInt8} {as : List Tlv.Attr} {result : UInt8}
    (user : supi.strlen ≤ 253) (stateLen : state.length ≤ 253) (eapLen : eap.length ≤ 1005)
    (built : radiusBuildRequest p 8192 supi state eap = some packet)
    (answered : server packet = some resp) (received : resp.length ≤ 8192)
    (verified : radiusVerifyResponse packet resp p.secret = true)
    (is : Tlv.attributes (packetBody resp) = some as)
    (code : resultOfCode (Octets.octet resp 0) = some result)
    (stateFits : (Tlv.collect attrState as).length ≤ 2048) :
    smfEapRelayExchange supi state eap 4096 8192
      (fun datagram => some (relayMain p server datagram)) =
      some ⟨result, Tlv.collect attrState as, Tlv.collect attrEapMessage as⟩ := by
  obtain ⟨datagram, sent, args⟩ := (frame_carried p user stateLen eapLen).request
  obtain ⟨parsed, -, read⟩ := answer_delivered verified is code stateFits
  have exchanged : radiusExchange p server supi state eap =
      some ⟨result, Tlv.collect attrState as, Tlv.collect attrEapMessage as⟩ := by
    simp only [radiusExchange, built, answered, Option.bind_eq_bind, Option.bind_some,
      List.take_of_length_le received, verified]
    exact parsed
  have relayed : relayMain p server datagram =
      writeResponse ⟨result, Tlv.collect attrState as, Tlv.collect attrEapMessage as⟩ := by
    simp only [relayMain, processReq, args, exchanged]
  simp only [smfEapRelayExchange, sent, Option.bind_eq_bind, Option.bind_some, relayed]
  exact read

/-- Frames pass unchanged. Upwards: the type data of every EAP-EDHOC response has at most 1000
octets, and every such response arrives in the attributes of an Access-Request, with the State
of the previous answer. Downwards: the SMF gets what the attributes of a verified answer carry. -/
theorem relay_transparent :
    (∀ (P : Primitives UInt8) (files : UeFiles) (coins : UeCoins) (data typeData : List UInt8)
        (u v : Ue),
      receiveEdhoc P files coins data u = (.ok typeData, v) → typeData.length ≤ 1000) ∧
    (∀ (p : RadiusParams) (supi : CString) (state typeData : List UInt8) (id : UInt8),
      supi.strlen ≤ 253 → state.length ≤ 253 → typeData.length ≤ 1000 →
      Carried p supi state (encodeEapPdu ⟨2, id, .edhoc typeData⟩)) ∧
    ∀ (req resp secret : List UInt8) (result : UInt8), radiusVerifyResponse req resp secret = true →
      resultOfCode (Octets.octet resp 0) = some result →
      ∃ as, Tlv.attributes (packetBody resp) = some as ∧
        ((Tlv.collect attrState as).length ≤ 2048 →
          radiusParseResponse 2048 8192 resp =
              some ⟨result, Tlv.collect attrState as, Tlv.collect attrEapMessage as⟩ ∧
            (writeResponse
              ⟨result, Tlv.collect attrState as, Tlv.collect attrEapMessage as⟩).length ≤
                relayBufCap ∧
            relayResponse 4096 8192 ((writeResponse
                ⟨result, Tlv.collect attrState as, Tlv.collect attrEapMessage as⟩).take
                  relayRespCap) =
              some ⟨result, Tlv.collect attrState as, Tlv.collect attrEapMessage as⟩) := by
  refine ⟨?_, ?_, ?_⟩
  · intro P files coins data typeData u v answered
    exact receiveEdhoc_length answered
  · intro p supi state typeData id user stateLen dataLen
    refine frame_carried p user stateLen ?_
    rw [length_encodeEapPdu_edhoc]
    omega
  · intro req resp secret result verified code
    obtain ⟨-, -, -, -, -, ⟨as, -, -, is, -, -, -⟩, -⟩ := radiusVerifyResponse_eq_true.mp verified
    exact ⟨as, is, answer_delivered verified is code⟩

/-- A frame of 300 octets, and a challenge that has it in two EAP-Message attributes. -/
def splitFrame : List UInt8 := [1, 2, 1, 44, 56, 0x40] ++ List.replicate 294 0xAB

def splitChallenge : List UInt8 :=
  [11, 1, 1, 89, 136, 117, 137, 181, 3, 245, 81, 136, 232, 24, 227, 19, 6, 163, 115, 113] ++
    (79 :: 255 :: splitFrame.take 253) ++ (79 :: 49 :: splitFrame.drop 253) ++ [24, 3, 0x5A] ++
    [80, 18, 162, 36, 126, 105, 179, 23, 99, 135, 199, 60, 61, 72, 215, 158, 252, 15]

/-- Frames of several attributes in both directions. -/
theorem relay_transparent_someChallenge :
    Carried someParams someSupi [0x5A]
        (encodeEapPdu ⟨2, 2, .edhoc (0x40 :: List.replicate 600 0xAB)⟩) ∧
      radiusParseResponse 2048 8192 splitChallenge =
        some ⟨resultChallenge, [0x5A], splitFrame⟩ ∧
      relayResponse 4096 8192
          ((writeResponse ⟨resultChallenge, [0x5A], splitFrame⟩).take relayRespCap) =
        some ⟨resultChallenge, [0x5A], splitFrame⟩ := by
  obtain ⟨-, up, down⟩ := relay_transparent
  have verified : radiusVerifyResponse someRequest splitChallenge someParams.secret = true := by
    decide +kernel
  obtain ⟨as, is, delivered⟩ :=
    down someRequest splitChallenge someParams.secret resultChallenge verified rfl
  have known : (Tlv.attributes (packetBody splitChallenge)).map (fun as =>
      (Tlv.collect attrState as, Tlv.collect attrEapMessage as)) = some ([0x5A], splitFrame) := by
    decide +kernel
  rw [is, Option.map_some, Option.some.injEq, Prod.mk.injEq] at known
  obtain ⟨state, frame⟩ := known
  rw [state, frame] at delivered
  obtain ⟨parsed, -, read⟩ := delivered (by decide)
  have long : (0x40 :: List.replicate 600 0xAB : List UInt8).length ≤ 1000 := by
    rw [List.length_cons, List.length_replicate]
    decide
  exact ⟨up someParams someSupi [0x5A] _ 2 (by decide) (by decide) long, parsed, read⟩

end EdhocAuth.Upf
