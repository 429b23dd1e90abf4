/-
EAP packets of the UE (UERANSIM, `lib/nas/eap.hpp` and `eap.cpp`).

The attributes of EAP-AKA' live in an array indexed by type; `order_received` remembers in
which order they were put, and an attribute of the set `twoByteLengthAttributes` is encoded
with a length of two octets.
-/

import EdhocAuth.Lib.Octets
import Mathlib.Logic.Function.Basic

namespace EdhocAuth.Eap

structure EapAttributes where
  attributes : UInt8 → Option (List UInt8)
  orderReceived : List UInt8
  twoByteLengthAttributes : List UInt8

def EapAttributes.empty : EapAttributes := ⟨fun _ => none, [], []⟩

def EapAttributes.putRawAttribute (as : EapAttributes) (key : UInt8) (value : List UInt8) :
    EapAttributes :=
  { as with
    attributes := Function.update as.attributes key (some value)
    orderReceived := as.orderReceived ++ [key] }

def EapAttributes.putRawAttributeWith2ByteLength (as : EapAttributes) (key : UInt8)
    (value : List UInt8) :
    EapAttributes :=
  { as.putRawAttribute key value with
    twoByteLengthAttributes := key :: as.twoByteLengthAttributes }

def atRes : UInt8 := 3

def atMac : UInt8 := 11

def atKdf : UInt8 := 24

def atPubEcdhe : UInt8 := 152

def EapAttributes.putRes (as : EapAttributes) (value : List UInt8) : EapAttributes :=
  as.putRawAttribute atRes (Octets.ofNat 2 (value.length * 8) ++ value)

def EapAttributes.putMac (as : EapAttributes) (value : List UInt8) : EapAttributes :=
  as.putRawAttribute atMac (Octets.ofNat 2 0 ++ value)

def EapAttributes.replaceMac (as : EapAttributes) (value : List UInt8) : EapAttributes :=
  { as with attributes := Function.update as.attributes atMac (some (Octets.ofNat 2 0 ++ value)) }

def EapAttributes.putKdf (as : EapAttributes) (value : Nat) : EapAttributes :=
  as.putRawAttribute atKdf (Octets.ofNat 2 value)

def atAuts : UInt8 := 4

def atClientErrorCode : UInt8 := 22

def EapAttributes.putClientErrorCode (as : EapAttributes) (code : Nat) : EapAttributes :=
  as.putRawAttribute atClientErrorCode (Octets.ofNat 2 code)

def EapAttributes.putAuts (as : EapAttributes) (auts : List UInt8) : EapAttributes :=
  as.putRawAttribute atAuts auts

def EapAttributes.getMac (as : EapAttributes) : List UInt8 :=
  match as.attributes atMac with
  | some val => if val.length < 2 then [] else val.drop 2
  | none => []

def EapAttributes.encodeEntry (as : EapAttributes) (key : UInt8) (value : List UInt8) :
    List UInt8 :=
  let lenUnit := (value.length + 2 + 3) / 4
  key :: (if key ∈ as.twoByteLengthAttributes then Octets.ofNat 2 lenUnit
    else [UInt8.ofNat lenUnit]) ++ value

/-- `forEachEntryOrdered` with the body of the loop. -/
def EapAttributes.encode (as : EapAttributes) : List UInt8 :=
  as.orderReceived.flatMap fun key => ((as.attributes key).map (as.encodeEntry key)).getD []

inductive PduBody where
  | noType
  | akaPrime (subType : UInt8) (attributes : EapAttributes)
  | notification (rawData : List UInt8)
  | identity (rawData : List UInt8)
  | edhoc (rawData : List UInt8)

def PduBody.eapType : PduBody → UInt8
  | .noType => 0
  | .akaPrime _ _ => 50
  | .notification _ => 2
  | .identity _ => 1
  | .edhoc _ => 56

def PduBody.encode : PduBody → List UInt8
  | .noType => []
  | .akaPrime subType attributes => subType :: (Octets.ofNat 2 0 ++ attributes.encode)
  | .notification rawData => rawData
  | .identity rawData => rawData
  | .edhoc rawData => rawData

structure EapPdu where
  code : UInt8
  id : UInt8
  body : PduBody

def encodeEapPdu (pdu : EapPdu) : List UInt8 :=
  match pdu.body with
  | .noType => [pdu.code, pdu.id] ++ Octets.ofNat 2 4
  | body => [pdu.code, pdu.id] ++
      (Octets.ofNat 2 (5 + body.encode.length) ++ body.eapType :: body.encode)

theorem length_encodeEapPdu_edhoc (code id : UInt8) (rawData : List UInt8) :
    (encodeEapPdu ⟨code, id, .edhoc rawData⟩).length = 5 + rawData.length := by
  simp only [encodeEapPdu, PduBody.encode, List.length_append, List.length_cons,
    Octets.length_ofNat, List.length_nil]
  omega

end EdhocAuth.Eap
