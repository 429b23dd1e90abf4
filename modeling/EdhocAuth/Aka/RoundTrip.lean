/-
Packets of the UE, encoded and decoded again.

The encoder rounds the length of an attribute up to units of four octets and writes the value
as it is; the decoder takes whole units. The public values of the two modes do not fill
theirs, and the decoder does not remember that the length of AT_PUB_HYBRID has two octets.
`roundTrip_iff`: a packet comes back exactly if each of its attributes fills its units and none of
them is AT_PUB_HYBRID.
-/

import EdhocAuth.Aka.Decode

namespace EdhocAuth.Aka

open Octets Eap Proc

/-! ### Packets of the UE -/

/-- The calls that put an attribute into a packet. -/
inductive Put where
  | res (value : List UInt8)
  | mac (value : List UInt8)
  | kdf (value : Nat)
  | auts (value : List UInt8)
  | clientErrorCode (code : Nat)
  | pubEcdhe (value : List UInt8)
  | pubHybrid (value : List UInt8)

def Put.apply (as : EapAttributes) : Put → EapAttributes
  | .res value => as.putRes value
  | .mac value => as.putMac value
  | .kdf value => as.putKdf value
  | .auts value => as.putAuts value
  | .clientErrorCode code => as.putClientErrorCode code
  | .pubEcdhe value => as.putRawAttribute atPubEcdhe value
  | .pubHybrid value => as.putRawAttributeWith2ByteLength atPubHybrid value

/-- The attributes of a new packet after some calls. -/
def build (puts : List Put) : EapAttributes := puts.foldl Put.apply EapAttributes.empty

def subTypes : List UInt8 := [1, 2, 4, 5, 12, 13, 14]

def codes : List UInt8 := [1, 2, 3, 4, 5, 6]

def BuiltBody : PduBody → Prop
  | .akaPrime subType as => subType ∈ subTypes ∧ ∃ puts, as = build puts
  | _ => True

def Built (p : EapPdu) : Prop := p.code ∈ codes ∧ BuiltBody p.body

/-- The same attributes: order, values and length encodings. -/
structure SameAttributes (as bs : EapAttributes) : Prop where
  order : as.orderReceived = bs.orderReceived
  values : as.attributes = bs.attributes
  lengths : ∀ key, key ∈ as.twoByteLengthAttributes ↔ key ∈ bs.twoByteLengthAttributes

def SameBody : PduBody → PduBody → Prop
  | .akaPrime subType as, .akaPrime subType' bs => subType = subType' ∧ SameAttributes as bs
  | body, body' => body = body'

/-- Equality of packets, up to how the sets of attributes are represented. -/
def SamePdu (p q : EapPdu) : Prop := p.code = q.code ∧ p.id = q.id ∧ SameBody p.body q.body

/-- The attributes fill their units, and none of them has a length of two octets. -/
def Aligned (as : EapAttributes) : Prop :=
  ∀ key v, as.attributes key = some v → key ≠ atPubHybrid ∧ v.length % 4 = 2 ∧ v.length ≤ 1018

def AlignedBody : PduBody → Prop
  | .akaPrime _ as => Aligned as
  | _ => True

/-! ### How attributes are kept -/

/-- An attribute is in the list exactly if it has a value, and AT_PUB_HYBRID is the one with a
length of two octets. -/
structure Consistent (as : EapAttributes) : Prop where
  listed : ∀ key, key ∈ as.orderReceived ↔ ∃ v, as.attributes key = some v
  long : ∀ key, key ∈ as.twoByteLengthAttributes ↔ key = atPubHybrid ∧ key ∈ as.orderReceived

theorem consistent_empty : Consistent EapAttributes.empty := by
  refine ⟨?_, ?_⟩
  · intro key
    simp [EapAttributes.empty]
  · intro key
    simp [EapAttributes.empty]

section Consistent

variable {as : EapAttributes}

/-- A new attribute is listed with those before. -/
theorem listed_put (as : EapAttributes) (value : List UInt8) {key : UInt8}
    (listed : ∀ key, key ∈ as.orderReceived ↔ ∃ v, as.attributes key = some v) (other : UInt8) :
    other ∈ as.orderReceived ++ [key] ↔
      ∃ v, Function.update as.attributes key (some value) other = some v := by
  by_cases same : other = key
  · subst same
    simp
  · simp [same, listed]

/-- Putting an attribute keeps list and values consistent. -/
theorem Consistent.putRawAttribute (c : Consistent as) {key : UInt8} (short : key ≠ atPubHybrid)
    (value : List UInt8) : Consistent (as.putRawAttribute key value) := by
  refine ⟨listed_put as value c.listed, ?_⟩
  intro other
  show other ∈ as.twoByteLengthAttributes ↔ _ ∧ other ∈ as.orderReceived ++ [key]
  rw [c.long, List.mem_append, List.mem_singleton]
  constructor
  · rintro ⟨hybrid, listed⟩
    exact ⟨hybrid, .inl listed⟩
  · rintro ⟨hybrid, listed | rfl⟩
    · exact ⟨hybrid, listed⟩
    · exact absurd hybrid short

/-- Putting the attribute with the long length keeps them consistent as well. -/
theorem Consistent.putLong (c : Consistent as) (value : List UInt8) :
    Consistent (as.putRawAttributeWith2ByteLength atPubHybrid value) := by
  refine ⟨listed_put as value c.listed, ?_⟩
  intro other
  show other ∈ atPubHybrid :: as.twoByteLengthAttributes ↔
    _ ∧ other ∈ as.orderReceived ++ [atPubHybrid]
  rw [List.mem_cons, c.long, List.mem_append, List.mem_singleton]
  constructor
  · rintro (rfl | ⟨hybrid, listed⟩)
    · exact ⟨rfl, .inr rfl⟩
    · exact ⟨hybrid, .inl listed⟩
  · rintro ⟨hybrid, -⟩
    exact .inl hybrid

theorem Consistent.apply (c : Consistent as) (put : Put) : Consistent (put.apply as) := by
  cases put with
  | pubHybrid value => exact c.putLong value
  | res value => exact c.putRawAttribute (by decide) _
  | mac value => exact c.putRawAttribute (by decide) _
  | kdf value => exact c.putRawAttribute (by decide) _
  | auts value => exact c.putRawAttribute (by decide) _
  | clientErrorCode code => exact c.putRawAttribute (by decide) _
  | pubEcdhe value => exact c.putRawAttribute (by decide) _

/-- Every packet that can be built is consistent. -/
theorem consistent_build (puts : List Put) : Consistent (build puts) := by
  have run (puts : List Put) (as : EapAttributes) (c : Consistent as) :
      Consistent (puts.foldl Put.apply as) := by
    induction puts generalizing as with
    | nil => exact c
    | cons put puts ih => exact ih _ (c.apply put)
  exact run puts _ consistent_empty

/-- The attributes in their order, with their values. -/
def entriesOf (as : EapAttributes) : List Entry :=
  as.orderReceived.map fun key => ⟨key, (as.attributes key).getD []⟩

/-- What the encoder writes. -/
theorem Consistent.encode (c : Consistent as) : as.encode = wire (entriesOf as) := by
  rw [EapAttributes.encode, wire, entriesOf, List.flatMap_map]
  refine List.flatMap_congr ?_
  intro key listed
  obtain ⟨v, found⟩ := (c.listed key).mp listed
  have long : key ∈ as.twoByteLengthAttributes ↔ key = atPubHybrid := by
    rw [c.long]
    exact ⟨fun both => both.1, fun hybrid => ⟨hybrid, listed⟩⟩
  simp only [found, Option.map_some, Option.getD_some, EapAttributes.encodeEntry, Entry.octets,
    Entry.units, long, lenLen]
  split <;> rfl

/-- A consistent packet is the wire of its attributes. -/
theorem Consistent.encodeEapPdu (c : Consistent as) (code id subType : UInt8) :
    encodeEapPdu ⟨code, id, .akaPrime subType as⟩ = akaPacket code id subType 0 (entriesOf as) := by
  have total :
      5 + (PduBody.akaPrime subType as).encode.length = 8 + (wire (entriesOf as)).length := by
    simp only [PduBody.encode, c.encode, List.length_cons, List.length_append, Octets.length_ofNat]
    omega
  rw [Eap.encodeEapPdu]
  dsimp only
  rw [total, PduBody.encode, c.encode, akaPacket]
  simp [PduBody.eapType]

end Consistent

/-! ### What comes back -/

section PutAll

variable {as : EapAttributes}

@[simp] theorem putAll_cons (as : EapAttributes) (e : Entry) (es : List Entry) :
    putAll as (e :: es) = putAll (as.putRawAttribute e.key e.value) es := rfl

/-- The attributes are listed in the order of the packet. -/
theorem putAll_orderReceived (as : EapAttributes) (es : List Entry) :
    (putAll as es).orderReceived = as.orderReceived ++ es.map Entry.key := by
  induction es generalizing as with
  | nil => simp [putAll]
  | cons e es ih =>
    rw [putAll_cons, ih, List.map_cons, ← List.singleton_append, ← List.append_assoc]
    rfl

/-- The decoder never asks for a length of two octets. -/
theorem putAll_twoByteLengthAttributes (as : EapAttributes) (es : List Entry) :
    (putAll as es).twoByteLengthAttributes = as.twoByteLengthAttributes := by
  induction es generalizing as with
  | nil => rfl
  | cons e es ih =>
    rw [putAll_cons, ih]
    rfl

/-- A value is that of the last attribute with its type, or it was there before. -/
theorem last_of_putAll {es : List Entry} {key : UInt8} {v : List UInt8}
    (found : (putAll as es).attributes key = some v) :
    (∃ front behind, es = front ++ ⟨key, v⟩ :: behind ∧ ∀ e ∈ behind, e.key ≠ key) ∨
      (∀ e ∈ es, e.key ≠ key) ∧ as.attributes key = some v := by
  induction es generalizing as with
  | nil => exact .inr ⟨by simp, found⟩
  | cons e es ih =>
    rw [putAll_cons] at found
    rcases ih found with ⟨front, behind, rfl, none⟩ | ⟨none, put⟩
    · exact .inl ⟨e :: front, behind, rfl, none⟩
    · by_cases same : key = e.key
      · subst same
        simp only [EapAttributes.putRawAttribute, Function.update_self, Option.some.injEq] at put
        subst put
        exact .inl ⟨[], es, rfl, none⟩
      · simp only [EapAttributes.putRawAttribute, Function.update_of_ne same] at put
        exact .inr ⟨List.forall_mem_cons.mpr ⟨Ne.symm same, none⟩, put⟩

/-- Where the attributes of one type agree, each type has the value of its attributes. -/
theorem putAll_attributes {f : UInt8 → Option (List UInt8)} {es : List Entry}
    (agree : ∀ e ∈ es, f e.key = some e.value) (key : UInt8) :
    (putAll as es).attributes key =
      if key ∈ es.map Entry.key then f key else as.attributes key := by
  induction es generalizing as with
  | nil => rfl
  | cons e es ih =>
    obtain ⟨here, agree⟩ := List.forall_mem_cons.mp agree
    rw [putAll_cons, ih agree]
    by_cases same : key = e.key
    · subst same
      simp [EapAttributes.putRawAttribute, here]
    · simp [EapAttributes.putRawAttribute, same]

end PutAll

/-- With a length of one octet: an attribute fits if its value leaves two octets for the type and
the length. -/
theorem fits_iff {key : UInt8} (short : key ≠ atPubHybrid) (v : List UInt8) :
    Entry.Fits ⟨key, v⟩ ↔ v.length % 4 = 2 ∧ v.length ≤ 1018 := by
  have one : lenLen key = 1 := if_neg short
  have two : substracts key = 2 := if_neg short
  constructor
  · rintro ⟨whole, units⟩
    simp only [Entry.units, one, two] at whole units
    omega
  · rintro ⟨filled, small⟩
    refine ⟨?_, ?_⟩
    · simp only [Entry.units, two]
      omega
    · simp only [Entry.units, one]
      omega

section Entries

variable {as : EapAttributes}

/-- The listed attributes have the values that are stored. -/
theorem Consistent.agree (c : Consistent as) :
    ∀ e ∈ entriesOf as, as.attributes e.key = some e.value := by
  intro e mem
  obtain ⟨key, listed, rfl⟩ := List.mem_map.mp mem
  obtain ⟨v, found⟩ := (c.listed key).mp listed
  simp only [found, Option.getD_some]

theorem map_key_entriesOf (as : EapAttributes) :
    (entriesOf as).map Entry.key = as.orderReceived := by
  rw [entriesOf, List.map_map]
  exact List.map_id _

/-- Putting the attributes again gives the values and the order. -/
theorem Consistent.putAll_entriesOf (c : Consistent as) :
    (putAll EapAttributes.empty (entriesOf as)).orderReceived = as.orderReceived ∧
      (putAll EapAttributes.empty (entriesOf as)).attributes = as.attributes := by
  refine ⟨?_, ?_⟩
  · rw [putAll_orderReceived, map_key_entriesOf]
    rfl
  · funext key
    rw [putAll_attributes c.agree, map_key_entriesOf]
    split
    · rfl
    · next missing =>
      rw [c.listed] at missing
      cases found : as.attributes key with
      | none => rfl
      | some v => exact absurd ⟨v, found⟩ missing

/-- Attributes that fill their units are decoded to themselves. -/
theorem Aligned.same (aligned : Aligned as) (c : Consistent as) :
    SameAttributes (putAll EapAttributes.empty (entriesOf as)) as := by
  obtain ⟨order, values⟩ := c.putAll_entriesOf
  refine ⟨order, values, ?_⟩
  intro key
  rw [putAll_twoByteLengthAttributes]
  constructor
  · intro none
    cases none
  · intro long
    obtain ⟨hybrid, listed⟩ := (c.long key).mp long
    obtain ⟨v, found⟩ := (c.listed key).mp listed
    exact absurd hybrid (aligned key v found).1

/-- Attributes that fill their units fit. -/
theorem Aligned.fits (aligned : Aligned as) (c : Consistent as) : ∀ e ∈ entriesOf as, e.Fits := by
  intro e mem
  obtain ⟨short, filled, small⟩ := aligned e.key e.value (c.agree e mem)
  exact (fits_iff short e.value).mpr ⟨filled, small⟩

/-- What is decoded to the attributes had them in whole units, without AT_PUB_HYBRID. -/
theorem SameAttributes.aligned {es : List Entry}
    (same : SameAttributes (putAll EapAttributes.empty es) as)
    (c : Consistent as) (fits : ∀ e ∈ es, e.Fits) : Aligned as := by
  intro key v found
  have short : key ≠ atPubHybrid := by
    intro hybrid
    have long : key ∈ as.twoByteLengthAttributes :=
      (c.long key).mpr ⟨hybrid, (c.listed key).mpr ⟨v, found⟩⟩
    rw [← same.lengths, putAll_twoByteLengthAttributes] at long
    cases long
  have entry : ⟨key, v⟩ ∈ es := by
    rw [← same.values] at found
    rcases last_of_putAll found with ⟨front, behind, rfl, -⟩ | ⟨-, before⟩
    · simp
    · cases before
  exact ⟨short, (fits_iff short v).mp (fits _ entry)⟩

end Entries

theorem length_akaPacket (code id subType : UInt8) (reserved : Nat) (es : List Entry) :
    (akaPacket code id subType reserved es).length = 8 + (wire es).length := by
  simp only [akaPacket, List.length_append, List.length_cons, List.length_nil, Octets.length_ofNat]

theorem code_range {code : UInt8} (known : code ∈ codes) : 1 ≤ code ∧ code ≤ 6 := by
  simp only [codes, List.mem_cons, List.not_mem_nil, or_false] at known
  rcases known with rfl | rfl | rfl | rfl | rfl | rfl <;> decide

theorem subType_range {subType : UInt8} (known : subType ∈ subTypes) :
    1 ≤ subType ∧ subType ≤ 14 := by
  simp only [subTypes, List.mem_cons, List.not_mem_nil, or_false] at known
  rcases known with rfl | rfl | rfl | rfl | rfl | rfl | rfl <;> decide

/-- A packet whose type is followed by data comes back as it is. -/
theorem decode_encode_raw {code id type : UInt8} {body : PduBody} {data : List UInt8}
    (known : code ∈ codes) (written : encodeEapPdu ⟨code, id, body⟩ =
      [code, id] ++ (Octets.ofNat 2 (5 + data.length) ++ type :: data))
    (read : ∀ rest, decodeBody type data.length (data ++ rest) = (.ok body, rest))
    (small : 5 + data.length ≤ 65535) (rest : List UInt8) :
    decodeEapPdu (encodeEapPdu ⟨code, id, body⟩ ++ rest) = (.ok ⟨code, id, body⟩, rest) := by
  rw [decodeEapPdu_eq_ok, written]
  refine ⟨5 + data.length, type :: (data ++ rest), code_range known, by omega, by simp, ?_⟩
  rw [if_neg (by omega)]
  refine ⟨type, data ++ rest, rfl, ?_⟩
  rw [show ((5 + data.length : Nat) : Int) - 5 = data.length by omega]
  exact read rest

/-- A packet whose type and contents are read back as written survives the trip. -/
theorem roundTrip_raw {code id type : UInt8} {body : PduBody} {data rest : List UInt8}
    (known : code ∈ codes) (written : encodeEapPdu ⟨code, id, body⟩ =
      [code, id] ++ (Octets.ofNat 2 (5 + data.length) ++ type :: data))
    (read : ∀ rest, decodeBody type data.length (data ++ rest) = (.ok body, rest))
    (small : (encodeEapPdu ⟨code, id, body⟩).length ≤ 65535) (same : SameBody body body) :
    ∃ q, decodeEapPdu (encodeEapPdu ⟨code, id, body⟩ ++ rest) = (.ok q, rest) ∧
      SamePdu q ⟨code, id, body⟩ := by
  have size : 5 + data.length ≤ 65535 := by
    rw [written] at small
    simp only [List.length_append, List.length_cons, List.length_nil, Octets.length_ofNat] at small
    omega
  exact ⟨_, decode_encode_raw known written read size rest, rfl, rfl, same⟩

/-- A packet without a type survives the trip. -/
theorem roundTrip_noType {code id : UInt8} {rest : List UInt8} (known : code ∈ codes) :
    ∃ q, decodeEapPdu (encodeEapPdu ⟨code, id, .noType⟩ ++ rest) = (.ok q, rest) ∧
      SamePdu q ⟨code, id, .noType⟩ := by
  refine ⟨⟨code, id, .noType⟩, ?_, rfl, rfl, rfl⟩
  rw [decodeEapPdu_eq_ok]
  exact ⟨4, rest, code_range known, by decide, rfl, by rw [if_pos rfl]; exact ⟨rfl, rfl⟩⟩

/-- An AKA' packet survives the trip exactly if its attributes are aligned. -/
theorem roundTrip_akaPrime {code id subType : UInt8} {as : EapAttributes} {rest : List UInt8}
    (known : code ∈ codes) (knownSub : subType ∈ subTypes) (c : Consistent as)
    (small : (encodeEapPdu ⟨code, id, .akaPrime subType as⟩).length ≤ 65535) :
    (∃ q, decodeEapPdu (encodeEapPdu ⟨code, id, .akaPrime subType as⟩ ++ rest) = (.ok q, rest) ∧
      SamePdu q ⟨code, id, .akaPrime subType as⟩) ↔ Aligned as := by
  rw [c.encodeEapPdu, length_akaPacket] at *
  constructor
  · rintro ⟨⟨code', id', body⟩, decoded, rfl, rfl, sameBody⟩
    cases body with
    | akaPrime subType' bs =>
      obtain ⟨rfl, same⟩ := sameBody
      obtain ⟨reserved, es, accepted, -, -, rfl⟩ := decodeEapPdu_akaPrime.mp decoded
      exact same.aligned c accepted.fits
    | noType => cases sameBody
    | notification rawData => cases sameBody
    | identity rawData => cases sameBody
    | edhoc rawData => cases sameBody
  · intro aligned
    have accepted : Accepted code subType (entriesOf as) :=
      ⟨code_range known, subType_range knownSub, aligned.fits c, by omega⟩
    exact ⟨⟨code, id, .akaPrime subType (putAll EapAttributes.empty (entriesOf as))⟩,
      decodeEapPdu_akaPrime.mpr ⟨0, entriesOf as, accepted, by decide, rfl, rfl⟩, rfl, rfl, rfl,
      aligned.same c⟩

/-- A packet of the UE that fits the length field comes back, with what follows it left to read,
exactly if it has no attributes, or attributes that fill their units and no AT_PUB_HYBRID. -/
theorem roundTrip_iff (p : EapPdu) (built : Built p) (small : (encodeEapPdu p).length ≤ 65535)
    (rest : List UInt8) :
    (∃ q, decodeEapPdu (encodeEapPdu p ++ rest) = (.ok q, rest) ∧ SamePdu q p) ↔
      AlignedBody p.body := by
  obtain ⟨code, id, body⟩ := p
  obtain ⟨known, builtBody⟩ := built
  cases body with
  | noType => exact iff_of_true (roundTrip_noType known) trivial
  | akaPrime subType as =>
    obtain ⟨knownSub, puts, rfl⟩ := builtBody
    exact roundTrip_akaPrime known knownSub (consistent_build puts) small
  | notification rawData =>
    refine iff_of_true (roundTrip_raw known rfl ?_ small rfl) trivial
    intro rest
    show decodeBody 2 rawData.length (rawData ++ rest) = _
    simp [decodeBody, readOctetString_eq_ok]
  | identity rawData =>
    refine iff_of_true (roundTrip_raw known rfl ?_ small rfl) trivial
    intro rest
    show decodeBody 1 rawData.length (rawData ++ rest) = _
    simp [decodeBody, readOctetString_eq_ok]
  | edhoc rawData =>
    refine iff_of_true (roundTrip_raw known rfl ?_ small rfl) trivial
    intro rest
    show decodeBody 56 rawData.length (rawData ++ rest) = _
    simp [decodeBody, readOctetString_eq_ok]

/-- The response to a challenge of the mode without forward secrecy: RES of eight octets, MAC and
KDF. -/
def plainResponse : EapPdu :=
  ⟨2, 1, .akaPrime 1 (build [.res (List.replicate 8 0), .mac (List.replicate 16 0), .kdf 1])⟩

/-- The response of the mode with ECDHE: the public value has its own reserved octets in front. -/
def ecdheResponse : EapPdu :=
  ⟨2, 1, .akaPrime 1 (build [.res (List.replicate 8 0), .mac (List.replicate 16 0), .kdf 1,
    .pubEcdhe (List.replicate 36 0)])⟩

/-- The response without forward secrecy comes back. -/
theorem plainResponse_roundTrip :
    Built plainResponse ∧ (encodeEapPdu plainResponse).length ≤ 65535 ∧
      ∃ q, decodeEapPdu (encodeEapPdu plainResponse ++ []) = (.ok q, []) ∧
      SamePdu q plainResponse := by
  have built : Built plainResponse := ⟨by decide, by decide, _, rfl⟩
  have small : (encodeEapPdu plainResponse).length ≤ 65535 := by decide
  refine ⟨built, small, (roundTrip_iff plainResponse built small []).mpr ?_⟩
  intro key v found
  simp only [build, Put.apply, EapAttributes.putRes, EapAttributes.putMac, EapAttributes.putKdf,
    EapAttributes.putRawAttribute, List.foldl, Function.update_apply] at found
  split_ifs at found with kdf mac res
  · cases found
    exact ⟨by rw [kdf]; decide, by decide, by decide⟩
  · cases found
    exact ⟨by rw [mac]; decide, by decide, by decide⟩
  · cases found
    exact ⟨by rw [res]; decide, by decide, by decide⟩
  · cases found

/-- The response with ECDHE is refused. -/
theorem ecdheResponse_refused :
    Built ecdheResponse ∧ (encodeEapPdu ecdheResponse).length ≤ 65535 ∧
      ¬ ∃ q, decodeEapPdu (encodeEapPdu ecdheResponse) = (.ok q, []) ∧ SamePdu q ecdheResponse := by
  refine ⟨⟨by decide, by decide, _, rfl⟩, by decide, ?_⟩
  have refused : (decodeEapPdu (encodeEapPdu ecdheResponse)).1.toOption.isNone := by decide
  rintro ⟨q, decoded, -⟩
  rw [decoded] at refused
  cases refused

end EdhocAuth.Aka
