/-
How the UE takes an EAP packet apart (`DecodeEapPdu` in UERANSIM, `lib/nas/eap.cpp`).

The decoder reads through a view whose single octets are not checked against its end; a read
behind the end is `outside`, and an exception or a `nullptr` is `refused`. The length of an
attribute counts units of four octets, its type and length included. `Entry` is an attribute
on the wire: `decodeEapPdu_akaPrime` says that an AKA' packet is accepted exactly if it is a header
and a sequence of entries that fill their units.
-/

import EdhocAuth.Aka.Response
import EdhocAuth.Lib.Proc

namespace EdhocAuth.Aka

open Octets Eap Proc

/-! ### The view -/

/-- Why there is no PDU. -/
inductive DecodeError where
  | refused
  | outside
deriving DecidableEq

/-- A reader of an `OctetView`; the state is what has not been read. -/
abbrev Reader : Type → Type := Proc (List UInt8) DecodeError

def readI : Reader UInt8 := do
  let view ← load
  let b ← demand view.head? .outside
  store List.tail
  return b

def read2I : Reader Nat := do
  let hi ← readI
  let lo ← readI
  return hi.toNat * 256 + lo.toNat

/-- `readOctetString`. A negative length makes the vector's constructor throw. -/
def readOctetString (length : Int) : Reader (List UInt8) := do
  if length = 0 then return []
  else
    let view ← load
    require (0 < length ∧ length ≤ view.length) .refused
    store fun view => view.drop length.toNat
    return view.take length.toNat

/-! ### The decoder -/

structure Entry where
  key : UInt8
  value : List UInt8
deriving DecidableEq

def lenLen (t : UInt8) : Nat := if t = atPubHybrid then 2 else 1

def substracts (t : UInt8) : Nat := if t = atPubHybrid then 3 else 2

/-- `attributeLength` -/
def readUnits (t : UInt8) : Reader Nat :=
  if t = atPubHybrid then read2I
  else do
    let b ← readI
    return b.toNat

/-- The body of the loop in `DecodeEapPdu`: the attribute and what is added to `readBytes`. -/
def decodeAttribute : Reader (Entry × Int) := do
  let t ← readI
  let attributeLength ← readUnits t
  let attributeVal ← readOctetString (4 * attributeLength - substracts t)
  return (⟨t, attributeVal⟩, 1 + lenLen t + (4 * attributeLength - substracts t))

/-- `while (readBytes < innerLength)`, for at most `fuel` iterations, and the check behind it. -/
def decodeAttributes (innerLength : Int) : Nat → Int → EapAttributes → Reader EapAttributes
  | 0, readBytes, as => do
    require (readBytes = innerLength) .refused
    return as
  | fuel + 1, readBytes, as =>
    if readBytes < innerLength then do
      let next ← decodeAttribute
      decodeAttributes innerLength fuel (readBytes + next.2)
        (as.putRawAttribute next.1.key next.1.value)
    else do
      require (readBytes = innerLength) .refused
      return as

/-- What stands behind the type of an AKA' packet. -/
def decodeAkaPrime (innerLength : Int) : Reader PduBody := do
  let subType ← readI
  require (1 ≤ subType ∧ subType ≤ 14) .refused
  let _ ← read2I
  let as ← decodeAttributes innerLength innerLength.toNat 3 EapAttributes.empty
  return .akaPrime subType as

def decodeBody (type : UInt8) (innerLength : Int) : Reader PduBody :=
  if type = 50 then decodeAkaPrime innerLength
  else if type = 2 then do
    let rawData ← readOctetString innerLength
    return .notification rawData
  else if type = 1 then do
    let rawData ← readOctetString innerLength
    return .identity rawData
  else if type = 56 then do
    let rawData ← readOctetString innerLength
    return .edhoc rawData
  else do
    require False .refused
    return .noType

def decodeEapPdu : Reader EapPdu := do
  let code ← readI
  require (1 ≤ code ∧ code ≤ 6) .refused
  let id ← readI
  let length ← read2I
  if length = 4 then return ⟨code, id, .noType⟩
  else
    let type ← readI
    let body ← decodeBody type (length - 5)
    return ⟨code, id, body⟩

/-! ### What is read -/

section Read

variable {view rest : List UInt8}

/-- An octet is read from the front of the view. -/
theorem readI_eq_ok {b : UInt8} : readI view = (.ok b, rest) ↔ view = b :: rest := by
  cases view with
  | nil => simp [readI]
  | cons c view =>
    simp only [readI, bind_eq_ok, load_eq_ok, demand_eq_ok, store_eq_ok, pure_eq_ok,
      List.cons.injEq]
    constructor
    · rintro ⟨_, _, ⟨rfl, rfl⟩, _, _, ⟨head, rfl⟩, -, _, rfl, rfl, rfl⟩
      exact ⟨Option.some.inj head, rfl⟩
    · rintro ⟨rfl, rfl⟩
      exact ⟨_, _, ⟨rfl, rfl⟩, c, _, ⟨rfl, rfl⟩, (), _, rfl, rfl, rfl⟩

theorem read2I_eq_ok {n : Nat} :
    read2I view = (.ok n, rest) ↔ n < 65536 ∧ view = Octets.ofNat 2 n ++ rest := by
  have octets (hi lo : UInt8) : Octets.ofNat 2 (hi.toNat * 256 + lo.toNat) = [hi, lo] := by
    have low := lo.toNat_lt
    have first : UInt8.ofNat ((hi.toNat * 256 + lo.toNat) / 256) = hi := by
      rw [show (hi.toNat * 256 + lo.toNat) / 256 = hi.toNat by omega]
      exact UInt8.ofNat_toNat
    have second : UInt8.ofNat (hi.toNat * 256 + lo.toNat) = lo := by
      apply UInt8.toNat_inj.mp
      rw [UInt8.toNat_ofNat']
      omega
    simp only [Octets.ofNat, List.nil_append, first, second]
    rfl
  simp only [read2I, bind_eq_ok, readI_eq_ok, pure_eq_ok]
  constructor
  · rintro ⟨hi, _, rfl, lo, _, rfl, rfl, rfl⟩
    have high := hi.toNat_lt
    have low := lo.toNat_lt
    exact ⟨by omega, by rw [octets]; rfl⟩
  · rintro ⟨small, rfl⟩
    refine ⟨UInt8.ofNat (n / 256), _, rfl, UInt8.ofNat n, _, rfl, ?_, rfl⟩
    simp only [UInt8.toNat_ofNat']
    omega

/-- A string is read in its length. -/
theorem readOctetString_eq_ok {length : Int} {v : List UInt8} :
    readOctetString length view = (.ok v, rest) ↔ view = v ++ rest ∧ v.length = length := by
  unfold readOctetString
  split
  · next zero =>
    rw [pure_eq_ok, zero]
    constructor
    · rintro ⟨rfl, rfl⟩
      exact ⟨rfl, rfl⟩
    · rintro ⟨rfl, empty⟩
      have none : v = [] := List.length_eq_zero_iff.mp (by omega)
      rw [none]
      exact ⟨rfl, rfl⟩
  · next some =>
    simp only [bind_eq_ok, load_eq_ok, require_eq_ok, store_eq_ok, pure_eq_ok]
    constructor
    · rintro ⟨_, _, ⟨rfl, rfl⟩, -, _, ⟨⟨pos, inside⟩, rfl⟩, -, _, rfl, rfl, rfl⟩
      refine ⟨(List.take_append_drop _ _).symm, ?_⟩
      rw [List.length_take]
      omega
    · rintro ⟨rfl, size⟩
      have inside : 0 < length ∧ length ≤ (v ++ rest).length := by
        rw [List.length_append]
        omega
      have whole : length.toNat = v.length := by omega
      refine ⟨_, _, ⟨rfl, rfl⟩, (), _, ⟨inside, rfl⟩, (), _, rfl, ?_, ?_⟩
      · rw [whole, List.take_left]
      · rw [whole, List.drop_left]

theorem readUnits_eq_ok {t : UInt8} {n : Nat} :
    readUnits t view = (.ok n, rest) ↔
      n < 256 ^ lenLen t ∧ view = Octets.ofNat (lenLen t) n ++ rest := by
  unfold readUnits lenLen
  split
  · exact read2I_eq_ok
  · simp only [bind_eq_ok, readI_eq_ok, pure_eq_ok]
    constructor
    · rintro ⟨b, _, rfl, rfl, rfl⟩
      refine ⟨b.toNat_lt, ?_⟩
      show b :: _ = UInt8.ofNat b.toNat :: _
      rw [UInt8.ofNat_toNat]
      rfl
    · rintro ⟨small, rfl⟩
      refine ⟨UInt8.ofNat n, _, rfl, ?_, rfl⟩
      rw [UInt8.toNat_ofNat']
      omega

end Read

/-! ### Attributes on the wire -/

/-- `lenUnit` -/
def Entry.units (e : Entry) : Nat := (e.value.length + 2 + 3) / 4

def Entry.octets (e : Entry) : List UInt8 :=
  e.key :: (Octets.ofNat (lenLen e.key) e.units ++ e.value)

/-- The octets of an attribute fill its units, and their number fits the length field. -/
structure Entry.Fits (e : Entry) : Prop where
  whole : substracts e.key + e.value.length = 4 * e.units
  units : e.units < 256 ^ lenLen e.key

/-- Attributes one after the other. -/
def wire (es : List Entry) : List UInt8 := es.flatMap Entry.octets

def putAll (as : EapAttributes) (es : List Entry) : EapAttributes :=
  es.foldl (fun as e => as.putRawAttribute e.key e.value) as

theorem lenLen_eq (t : UInt8) : substracts t = 1 + lenLen t := by
  unfold substracts lenLen
  split <;> rfl

/-- An attribute that fits takes its units. -/
theorem Entry.Fits.length_octets {e : Entry} (fits : e.Fits) : e.octets.length = 4 * e.units := by
  rw [← fits.whole, lenLen_eq, octets, List.length_cons, List.length_append, Octets.length_ofNat]
  omega

@[simp] theorem wire_cons (e : Entry) (es : List Entry) : wire (e :: es) = e.octets ++ wire es :=
  rfl

theorem wire_append (es es' : List Entry) : wire (es ++ es') = wire es ++ wire es' :=
  List.flatMap_append

/-- The decoder takes exactly one attribute that fits from the view. -/
theorem decodeAttribute_eq_ok {view rest : List UInt8} {next : Entry × Int} :
    decodeAttribute view = (.ok next, rest) ↔
      next.1.Fits ∧ view = next.1.octets ++ rest ∧ next.2 = next.1.octets.length := by
  obtain ⟨e, read⟩ := next
  simp only [decodeAttribute, bind_eq_ok, readI_eq_ok, readUnits_eq_ok, readOctetString_eq_ok,
    pure_eq_ok]
  constructor
  · rintro ⟨t, _, rfl, n, _, ⟨small, rfl⟩, v, _, ⟨rfl, size⟩, same, rfl⟩
    obtain ⟨rfl, rfl⟩ := Prod.mk.inj same
    have units : (⟨t, v⟩ : Entry).units = n := by
      have bounds : substracts t = 2 ∨ substracts t = 3 := by
        unfold substracts
        split <;> simp
      simp only [Entry.units]
      omega
    have fits : (⟨t, v⟩ : Entry).Fits := by
      refine ⟨?_, ?_⟩
      · rw [units]
        show substracts t + v.length = 4 * n
        omega
      · rw [units]
        exact small
    refine ⟨fits, ?_, ?_⟩
    · simp only [Entry.octets, units, List.cons_append, List.append_assoc]
    · rw [fits.length_octets, units]
      have := lenLen_eq t
      omega
  · rintro ⟨fits, rfl, rfl⟩
    have whole := fits.whole
    refine ⟨e.key, _, rfl, e.units, _, ⟨fits.units, ?_⟩, e.value, _, ⟨rfl, ?_⟩, ?_, rfl⟩
    · exact List.append_assoc _ _ _
    · omega
    · have := lenLen_eq e.key
      rw [fits.length_octets]
      refine Prod.ext rfl ?_
      dsimp only
      omega

/-- Every attribute takes an octet at least. -/
theorem eq_nil_of_wire {es : List Entry} (empty : (wire es).length = 0) : es = [] := by
  cases es with
  | nil => rfl
  | cons e es =>
    rw [wire_cons, List.length_append, Entry.octets, List.length_cons] at empty
    omega

/-- Behind the last attribute the lengths have to agree. -/
theorem finish_eq_ok {inner readBytes : Int} {as as' : EapAttributes} {view rest : List UInt8}
    (done : inner ≤ readBytes) :
    (do require (readBytes = inner) .refused; return as : Reader EapAttributes) view =
        (.ok as', rest) ↔
      ∃ es, (∀ e ∈ es, e.Fits) ∧ view = wire es ++ rest ∧ readBytes + (wire es).length = inner ∧
        as' = putAll as es := by
  simp only [bind_eq_ok, require_eq_ok, pure_eq_ok]
  constructor
  · rintro ⟨-, _, ⟨same, rfl⟩, rfl, rfl⟩
    exact ⟨[], by simp, rfl, by simpa [wire] using same, rfl⟩
  · rintro ⟨es, -, rfl, size, rfl⟩
    obtain rfl : es = [] := eq_nil_of_wire (by omega)
    exact ⟨(), _, ⟨by simpa [wire] using size, rfl⟩, rfl, rfl⟩

/-- The loop takes attributes until they have filled the packet. The fuel does not run out, since
every attribute has an octet. -/
theorem decodeAttributes_eq_ok {inner readBytes : Int} {fuel : Nat} {as as' : EapAttributes}
    {view rest : List UInt8} (enough : inner ≤ readBytes + fuel) :
    decodeAttributes inner fuel readBytes as view = (.ok as', rest) ↔
      ∃ es, (∀ e ∈ es, e.Fits) ∧ view = wire es ++ rest ∧ readBytes + (wire es).length = inner ∧
        as' = putAll as es := by
  induction fuel generalizing readBytes as view with
  | zero =>
    rw [decodeAttributes]
    exact finish_eq_ok (by omega)
  | succ fuel ih =>
    rw [decodeAttributes]
    by_cases more : readBytes < inner
    · rw [if_pos more, bind_eq_ok]
      constructor
      · rintro ⟨next, between, decoded, looped⟩
        obtain ⟨fits, rfl, read⟩ := decodeAttribute_eq_ok.mp decoded
        have long : 0 < next.1.octets.length := Nat.succ_pos _
        obtain ⟨es, all, rfl, size, rfl⟩ := (ih (by omega)).mp looped
        refine ⟨next.1 :: es, List.forall_mem_cons.mpr ⟨fits, all⟩, ?_, ?_, rfl⟩
        · rw [wire_cons, List.append_assoc]
        · rw [wire_cons, List.length_append]
          omega
      · rintro ⟨es, all, rfl, size, rfl⟩
        cases es with
        | nil =>
          simp only [wire, List.flatMap_nil, List.length_nil] at size
          omega
        | cons e es =>
          obtain ⟨fits, all⟩ := List.forall_mem_cons.mp all
          have long : 0 < e.octets.length := Nat.succ_pos _
          rw [wire_cons, List.length_append] at size
          refine ⟨(e, e.octets.length), wire es ++ rest, ?_, ?_⟩
          · rw [decodeAttribute_eq_ok, wire_cons, List.append_assoc]
            exact ⟨fits, rfl, rfl⟩
          · refine (ih ?_).mpr ⟨es, all, rfl, ?_, rfl⟩
            · show inner ≤ readBytes + e.octets.length + fuel
              omega
            · show readBytes + e.octets.length + (wire es).length = inner
              omega
    · rw [if_neg more]
      exact finish_eq_ok (by omega)

/-! ### Packets -/

/-- An AKA' packet: the header, the subtype, two reserved octets and the attributes. -/
def akaPacket (code id subType : UInt8) (reserved : Nat) (es : List Entry) : List UInt8 :=
  [code, id] ++ Octets.ofNat 2 (8 + (wire es).length) ++ [50, subType] ++ Octets.ofNat 2 reserved ++
    wire es

/-- What makes a sequence of attributes and a header an AKA' packet that is accepted. -/
structure Accepted (code subType : UInt8) (es : List Entry) : Prop where
  code : 1 ≤ code ∧ code ≤ 6
  subType : 1 ≤ subType ∧ subType ≤ 14
  fits : ∀ e ∈ es, e.Fits
  size : 8 + (wire es).length < 65536

/-- What an accepted AKA' packet consists of behind its type. -/
theorem decodeAkaPrime_eq_ok {inner : Int} {view rest : List UInt8} {body : PduBody} :
    decodeAkaPrime inner view = (.ok body, rest) ↔
      ∃ subType reserved es, (1 ≤ subType ∧ subType ≤ 14) ∧ reserved < 65536 ∧ (∀ e ∈ es, e.Fits) ∧
        view = subType :: (Octets.ofNat 2 reserved ++ (wire es ++ rest)) ∧
        3 + (wire es).length = inner ∧
        body = .akaPrime subType (putAll EapAttributes.empty es) := by
  simp only [decodeAkaPrime, bind_eq_ok, readI_eq_ok, require_eq_ok, read2I_eq_ok, pure_eq_ok]
  constructor
  · rintro ⟨subType, _, rfl, -, _, ⟨range, rfl⟩, reserved, _, ⟨small, rfl⟩, as, _, looped, rfl, rfl⟩
    obtain ⟨es, fits, rfl, size, rfl⟩ := (decodeAttributes_eq_ok (by omega)).mp looped
    exact ⟨subType, reserved, es, range, small, fits, rfl, size, rfl⟩
  · rintro ⟨subType, reserved, es, range, small, fits, rfl, size, rfl⟩
    refine ⟨subType, _, rfl, (), _, ⟨range, rfl⟩, reserved, _, ⟨small, rfl⟩, _, rest, ?_, rfl, rfl⟩
    exact (decodeAttributes_eq_ok (by omega)).mpr ⟨es, fits, rfl, size, rfl⟩

/-- What an accepted EAP packet consists of. -/
theorem decodeEapPdu_eq_ok {view rest : List UInt8} {pdu : EapPdu} :
    decodeEapPdu view = (.ok pdu, rest) ↔
      ∃ length tail, (1 ≤ pdu.code ∧ pdu.code ≤ 6) ∧ length < 65536 ∧
        view = pdu.code :: pdu.id :: (Octets.ofNat 2 length ++ tail) ∧
        if length = 4 then pdu.body = .noType ∧ tail = rest
        else ∃ type between, tail = type :: between ∧
          decodeBody type (length - 5) between = (.ok pdu.body, rest) := by
  obtain ⟨code, id, body⟩ := pdu
  simp only [decodeEapPdu, bind_eq_ok, readI_eq_ok, require_eq_ok, read2I_eq_ok]
  constructor
  · rintro ⟨code', _, rfl, -, _, ⟨range, rfl⟩, id', _, rfl, length, tail, ⟨small, rfl⟩, done⟩
    split at done
    · next four =>
      obtain ⟨same, rfl⟩ := pure_eq_ok.mp done
      obtain ⟨rfl, rfl, rfl⟩ := EapPdu.mk.inj same
      exact ⟨length, _, range, small, rfl, by rw [if_pos four]; exact ⟨rfl, rfl⟩⟩
    · next other =>
      simp only [bind_eq_ok, readI_eq_ok, pure_eq_ok] at done
      obtain ⟨type, between, rfl, body', _, decoded, same, rfl⟩ := done
      obtain ⟨rfl, rfl, rfl⟩ := EapPdu.mk.inj same
      exact ⟨length, _, range, small, rfl,
        by rw [if_neg other]; exact ⟨type, between, rfl, decoded⟩⟩
  · rintro ⟨length, tail, range, small, rfl, done⟩
    refine ⟨code, _, rfl, (), _, ⟨range, rfl⟩, id, _, rfl, length, tail, ⟨small, rfl⟩, ?_⟩
    split at done
    · next four =>
      obtain ⟨rfl, rfl⟩ := done
      rw [if_pos four]
      exact pure_eq_ok.mpr ⟨rfl, rfl⟩
    · next other =>
      obtain ⟨type, between, rfl, decoded⟩ := done
      rw [if_neg other]
      simp only [bind_eq_ok, readI_eq_ok, pure_eq_ok]
      exact ⟨type, between, rfl, body, rest, decoded, rfl, rfl⟩

/-- Only the type of AKA' gives an AKA' body. -/
theorem decodeBody_akaPrime {type subType : UInt8} {inner : Int} {as : EapAttributes}
    {view rest : List UInt8} :
    decodeBody type inner view = (.ok (.akaPrime subType as), rest) ↔
      type = 50 ∧ decodeAkaPrime inner view = (.ok (.akaPrime subType as), rest) := by
  unfold decodeBody
  split_ifs with aka notification identity edhoc
  · simp [aka]
  all_goals simp [aka]

/-- The AKA' packets that are accepted, and what they are decoded to. -/
theorem decodeEapPdu_akaPrime {octets rest : List UInt8} {code id subType : UInt8}
    {as : EapAttributes} :
    decodeEapPdu octets = (.ok ⟨code, id, .akaPrime subType as⟩, rest) ↔
      ∃ reserved es, Accepted code subType es ∧ reserved < 65536 ∧
        octets = akaPacket code id subType reserved es ++ rest ∧
        as = putAll EapAttributes.empty es := by
  rw [decodeEapPdu_eq_ok]
  dsimp only
  constructor
  · rintro ⟨length, tail, range, small, rfl, done⟩
    split at done
    · cases done.1
    · obtain ⟨type, between, rfl, decoded⟩ := done
      obtain ⟨rfl, decoded⟩ := decodeBody_akaPrime.mp decoded
      obtain ⟨subType', reserved, es, subRange, reservedSmall, fits, rfl, size, same⟩ :=
        decodeAkaPrime_eq_ok.mp decoded
      obtain ⟨rfl, rfl⟩ := PduBody.akaPrime.inj same
      have total : 8 + (wire es).length = length := by omega
      refine ⟨reserved, es, ⟨range, subRange, fits, by omega⟩, reservedSmall, ?_, rfl⟩
      rw [akaPacket, total]
      simp
  · rintro ⟨reserved, es, accepted, small, rfl, rfl⟩
    refine ⟨8 + (wire es).length, 50 :: subType :: (Octets.ofNat 2 reserved ++ (wire es ++ rest)),
      accepted.code, accepted.size, by simp [akaPacket], ?_⟩
    rw [if_neg (by omega)]
    refine ⟨50, _, rfl, decodeBody_akaPrime.mpr ⟨rfl, ?_⟩⟩
    exact decodeAkaPrime_eq_ok.mpr
      ⟨subType, reserved, es, accepted.subType, small, accepted.fits, rfl,
      by push_cast; omega, rfl⟩

end EdhocAuth.Aka
