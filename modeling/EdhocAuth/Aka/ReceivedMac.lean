/-
The MAC of a packet that the UE receives.

The UE does not authenticate the octets that it received. It decodes them, copies the
attributes type by type, clears the MAC and encodes the copy. The copy has zeros where the
packet has reserved octets, and for a type that is repeated it has the last value each time:
`macInput_iff` says for which packets the octets are the received ones with the MAC cleared.
-/

import EdhocAuth.Aka.Mac
import EdhocAuth.Aka.RoundTrip
import Mathlib.Data.List.DropRight

namespace EdhocAuth.Aka

open Octets Eap Proc

/-! ### What is authenticated -/

/-- `input` in `CalculateMacForEapAkaPrime` -/
def macInput (code id subType : UInt8) (as : EapAttributes) : List UInt8 :=
  encodeEapPdu ⟨code, id, .akaPrime subType ((copyAttributes as).replaceMac (List.replicate 16 0))⟩

theorem ueCalculateMac_eq_truncated (hmac : Hmac) (kaut : List UInt8) (code id subType : UInt8)
    (as : EapAttributes) :
    ueCalculateMac hmac kaut code id subType as =
      truncated hmac kaut (macInput code id subType as) := rfl

/-! ### What is received -/

/-- The octets that the length field covers. -/
def packet (octets : List UInt8) : List UInt8 := octets.take (Octets.toNat (field octets 2 2))

/-- Attribute after attribute. -/
def walk : Nat → List UInt8 → List Entry
  | 0, _ => []
  | fuel + 1, view =>
    match decodeAttribute view with
    | (.ok next, rest) => next.1 :: walk fuel rest
    | (.error _, _) => []

def received (octets : List UInt8) : List Entry := walk octets.length ((packet octets).drop 8)

/-- The attributes up to the last AT_MAC. -/
def upToMac (es : List Entry) : List Entry := es.rdropWhile fun e => e.key ≠ atMac

/-- Where the sixteen octets of the last AT_MAC are. -/
def macOffset (octets : List UInt8) : Nat := 8 + (wire (upToMac (received octets))).length - 16

/-- The copy has what the packet has: zeros in the reserved octets of the packet and of AT_MAC,
zeros in an AT_MAC before the last, and one value for every other type. -/
structure Reproduced (octets : List UInt8) : Prop where
  reserved : field octets 6 2 = [0, 0]
  macReserved : field octets (macOffset octets - 2) 2 = [0, 0]
  macs : ∀ e ∈ (upToMac (received octets)).dropLast, e.key = atMac → e.value = List.replicate 18 0
  single :
    ∀ e ∈ received octets, ∀ e' ∈ received octets, e.key = e'.key → e.key ≠ atMac →
    e.value = e'.value

/-! ### Walking over the attributes -/

/-- The walk finds the attributes of a packet. -/
theorem walk_wire {es : List Entry} (fits : ∀ e ∈ es, e.Fits) {fuel : Nat}
    (enough : (wire es).length ≤ fuel) :
    walk fuel (wire es) = es := by
  induction es generalizing fuel with
  | nil =>
    cases fuel with
    | zero => rfl
    | succ fuel => rfl
  | cons e es ih =>
    obtain ⟨here, fits⟩ := List.forall_mem_cons.mp fits
    rw [wire_cons, List.length_append, Entry.octets, List.length_cons] at enough
    cases fuel with
    | zero => omega
    | succ fuel =>
      have next : decodeAttribute (wire (e :: es)) = (.ok (e, e.octets.length), wire es) :=
        decodeAttribute_eq_ok.mpr ⟨here, rfl, rfl⟩
      rw [walk, next]
      dsimp only
      rw [ih fits (by omega)]

/-- Attributes that fit can be told from their octets. -/
theorem wire_injective {es es' : List Entry} (fits : ∀ e ∈ es, e.Fits) (fits' : ∀ e ∈ es', e.Fits)
    (same : wire es = wire es') : es = es' := by
  rw [← walk_wire fits (Nat.le_refl _), ← walk_wire fits' (Nat.le_refl _), same]

section Packet

variable {code id subType : UInt8} {reserved : Nat} {es : List Entry} {rest : List UInt8}

/-- The length field covers the packet and nothing behind it. -/
theorem packet_akaPacket (small : 8 + (wire es).length < 65536) :
    packet (akaPacket code id subType reserved es ++ rest) =
      akaPacket code id subType reserved es := by
  have length : field (akaPacket code id subType reserved es ++ rest) 2 2 =
      Octets.ofNat 2 (8 + (wire es).length) :=
    field_eq [code, id] _ ([50, subType] ++ Octets.ofNat 2 reserved ++ wire es ++ rest)
      (by simp [akaPacket]) rfl
      (Octets.length_ofNat _ _)
  rw [packet, length, Octets.toNat_ofNat small, ← length_akaPacket code id subType reserved es,
    List.take_left]

/-- The attributes of a packet that is accepted are found in it. -/
theorem received_akaPacket (accepted : Accepted code subType es) :
    received (akaPacket code id subType reserved es ++ rest) = es := by
  have behind : (akaPacket code id subType reserved es).drop 8 = wire es := by
    simp [akaPacket, Octets.ofNat]
  rw [received, packet_akaPacket accepted.size, behind]
  refine walk_wire accepted.fits ?_
  rw [List.length_append, length_akaPacket]
  omega

theorem field_reserved :
    field (akaPacket code id subType reserved es ++ rest) 6 2 = Octets.ofNat 2 reserved :=
  field_eq ([code, id] ++ Octets.ofNat 2 (8 + (wire es).length) ++ [50, subType]) _
    (wire es ++ rest)
    (by simp [akaPacket]) (by simp) (Octets.length_ofNat _ _)

end Packet

/-- The attributes up to the last AT_MAC, if it is known. -/
theorem upToMac_eq {front behind : List Entry} {m : Entry} (mac : m.key = atMac)
    (last : ∀ e ∈ behind, e.key ≠ atMac) : upToMac (front ++ m :: behind) = front ++ [m] := by
  have all : ∀ e ∈ behind.reverse, decide (e.key ≠ atMac) = true := by
    intro e mem
    exact decide_eq_true (last e (List.mem_reverse.mp mem))
  rw [upToMac, List.rdropWhile, List.reverse_append, List.reverse_cons, List.append_assoc,
    List.dropWhile_append_of_pos all]
  simp [mac]

/-! ### The copy -/

def copyAttribute (as copy : EapAttributes) (key : UInt8) : EapAttributes :=
  match as.attributes key with
  | none => copy
  | some v =>
    if key = atPubHybrid then copy.putRawAttributeWith2ByteLength key v
    else copy.putRawAttribute key v

theorem copyAttributes_eq (as : EapAttributes) :
    copyAttributes as = as.orderReceived.foldl (copyAttribute as) EapAttributes.empty := rfl

section Copy

variable {as copy : EapAttributes} {key : UInt8} {v : List UInt8}

/-- One attribute is copied: with its value, behind the others, and with the length its type has. -/
theorem copyAttribute_some (c : Consistent copy) (found : as.attributes key = some v) :
    Consistent (copyAttribute as copy key) ∧
      (copyAttribute as copy key).orderReceived = copy.orderReceived ++ [key] ∧
      (copyAttribute as copy key).attributes = Function.update copy.attributes key (some v) := by
  simp only [copyAttribute, found]
  split
  · next hybrid =>
    subst hybrid
    exact ⟨c.putLong v, rfl, rfl⟩
  · next short => exact ⟨c.putRawAttribute short v, rfl, rfl⟩

/-- The loop copies every attribute that it comes to. -/
theorem copy_run {keys : List UInt8} (c : Consistent copy)
    (all : ∀ key ∈ keys, ∃ v, as.attributes key = some v) :
    Consistent (keys.foldl (copyAttribute as) copy) ∧
      (keys.foldl (copyAttribute as) copy).orderReceived = copy.orderReceived ++ keys ∧
      ∀ key, (keys.foldl (copyAttribute as) copy).attributes key =
        if key ∈ keys then as.attributes key else copy.attributes key := by
  induction keys generalizing copy with
  | nil => exact ⟨c, by simp, fun key => rfl⟩
  | cons key keys ih =>
    obtain ⟨⟨v, found⟩, all⟩ := List.forall_mem_cons.mp all
    obtain ⟨consistent, order, values⟩ := copyAttribute_some c found
    obtain ⟨consistent', order', values'⟩ := ih consistent all
    refine ⟨consistent', ?_, ?_⟩
    · rw [List.foldl_cons, order', order, List.append_assoc, List.singleton_append]
    · intro other
      rw [List.foldl_cons, values', values]
      by_cases same : other = key
      · subst same
        simp [found]
      · simp [same]

/-- Replacing the MAC keeps list and values consistent. -/
theorem Consistent.replaceMac (c : Consistent copy) (listed : atMac ∈ copy.orderReceived)
    (value : List UInt8) :
    Consistent (copy.replaceMac value) := by
  refine ⟨?_, c.long⟩
  intro key
  by_cases same : key = atMac
  · subst same
    simpa [EapAttributes.replaceMac] using listed
  · simpa [EapAttributes.replaceMac, same] using c.listed key

end Copy

def copied (as : EapAttributes) (key : UInt8) : Entry :=
  ⟨key, if key = atMac then List.replicate 18 0 else (as.attributes key).getD []⟩

/-- What is authenticated, attribute by attribute. -/
theorem macInput_eq {as : EapAttributes}
    (all : ∀ key ∈ as.orderReceived, ∃ v, as.attributes key = some v)
    (listed : atMac ∈ as.orderReceived) (code id subType : UInt8) :
    macInput code id subType as =
      akaPacket code id subType 0 (as.orderReceived.map (copied as)) := by
  obtain ⟨consistent, order, values⟩ := copy_run consistent_empty all
  rw [← copyAttributes_eq] at consistent order values
  rw [EapAttributes.empty, List.nil_append] at order
  have mac : atMac ∈ (copyAttributes as).orderReceived := by
    rw [order]
    exact listed
  rw [macInput, (consistent.replaceMac mac _).encodeEapPdu]
  congr 1
  show (copyAttributes as).orderReceived.map _ = _
  rw [order]
  refine List.map_congr_left ?_
  intro key here
  show Entry.mk _ _ = copied as key
  rw [copied]
  congr 1
  by_cases same : key = atMac
  · subst same
    simp only [EapAttributes.replaceMac, Function.update_self, if_true, Option.getD_some]
    rfl
  · simp only [EapAttributes.replaceMac, Function.update_of_ne same, values, if_pos here,
      if_neg same]

/-! ### The copy and the packet -/

/-- Packets with one header are the same if their reserved octets and attributes are. -/
theorem akaPacket_inj {code id subType : UInt8} {reserved reserved' : Nat} {es es' : List Entry} :
    akaPacket code id subType reserved es = akaPacket code id subType reserved' es' ↔
      Octets.ofNat 2 reserved = Octets.ofNat 2 reserved' ∧ wire es = wire es' := by
  constructor
  · intro same
    have tails := congrArg (List.drop 6) same
    simp only [akaPacket, Octets.ofNat, List.nil_append, List.cons_append, List.drop_succ_cons,
      List.drop_zero, List.cons.injEq] at tails
    simp only [Octets.ofNat, List.nil_append, List.cons_append, List.cons.injEq, and_true]
    exact ⟨⟨tails.1, tails.2.1⟩, tails.2.2⟩
  · rintro ⟨zeros, wires⟩
    rw [akaPacket, akaPacket, zeros, wires]

section Parts

variable {code id subType : UInt8} {reserved : Nat} {front behind : List Entry}
    {spare mac : List UInt8}

/-- The packet up to the sixteen octets of a MAC. -/
def macFront (code id subType : UInt8) (reserved size : Nat) (front : List Entry)
    (spare : List UInt8) :
    List UInt8 :=
  [code, id] ++ Octets.ofNat 2 size ++ [50, subType] ++ Octets.ofNat 2 reserved ++ wire front ++
    [11, 5] ++ spare

theorem octets_mac (two : spare.length = 2) (sixteen : mac.length = 16) :
    Entry.octets ⟨atMac, spare ++ mac⟩ = [11, 5] ++ (spare ++ mac) := by
  have units : (⟨atMac, spare ++ mac⟩ : Entry).units = 5 := by
    simp only [Entry.units, List.length_append]
    omega
  rw [Entry.octets, units]
  rfl

theorem length_wire_mac (two : spare.length = 2) (sixteen : mac.length = 16) :
    (wire (front ++ ⟨atMac, spare ++ mac⟩ :: behind)).length =
      (wire front).length + 20 + (wire behind).length := by
  rw [wire_append, wire_cons, octets_mac two sixteen]
  simp only [List.length_append, List.length_cons, List.length_nil]
  omega

/-- A packet cut at the octets of a MAC. -/
theorem akaPacket_mac (two : spare.length = 2) (sixteen : mac.length = 16) :
    akaPacket code id subType reserved (front ++ ⟨atMac, spare ++ mac⟩ :: behind) =
      macFront code id subType reserved
        (8 + ((wire front).length + 20 + (wire behind).length)) front spare ++
        (mac ++ wire behind) := by
  rw [akaPacket, length_wire_mac two sixteen, wire_append, wire_cons, octets_mac two sixteen,
    macFront]
  simp only [List.append_assoc]

theorem length_macFront (size : Nat) (two : spare.length = 2) :
    (macFront code id subType reserved size front spare).length = 12 + (wire front).length := by
  simp only [macFront, List.length_append, List.length_cons, List.length_nil, Octets.length_ofNat,
    two]
  omega

/-- Clearing the MAC of a packet. -/
theorem cleared_akaPacket (two : spare.length = 2) (sixteen : mac.length = 16) :
    cleared (akaPacket code id subType reserved (front ++ ⟨atMac, spare ++ mac⟩ :: behind))
        (12 + (wire front).length) =
      akaPacket code id subType reserved
        (front ++ ⟨atMac, spare ++ List.replicate 16 0⟩ :: behind) := by
  rw [akaPacket_mac two sixteen, akaPacket_mac two List.length_replicate, cleared,
    memcpyAt_append (length_macFront _ two), List.length_replicate, List.drop_left' sixteen]

end Parts

theorem map_eq_self_iff {f : Entry → Entry} {es : List Entry} :
    es.map f = es ↔ ∀ e ∈ es, f e = e := by
  constructor
  · intro same
    exact List.map_inj_left.mp (same.trans (List.map_id es).symm)
  · intro all
    exact (List.map_congr_left all).trans (List.map_id es)

section Received

variable {es : List Entry}

theorem listed_putAll (es : List Entry) (key : UInt8) :
    key ∈ (putAll EapAttributes.empty es).orderReceived ↔
      ∃ v, (putAll EapAttributes.empty es).attributes key = some v := by
  have run (es : List Entry) (as : EapAttributes)
      (listed : ∀ key, key ∈ as.orderReceived ↔ ∃ v, as.attributes key = some v) :
      ∀ key, key ∈ (putAll as es).orderReceived ↔ ∃ v, (putAll as es).attributes key = some v := by
    induction es generalizing as with
    | nil => exact listed
    | cons e es ih => exact ih _ (listed_put as e.value listed)
  exact run es _ consistent_empty.listed key

/-- A stored value is that of the last attribute of its type. -/
theorem last_of_received {key : UInt8} {v : List UInt8}
    (found : (putAll EapAttributes.empty es).attributes key = some v) :
    ∃ front behind, es = front ++ ⟨key, v⟩ :: behind ∧ ∀ e ∈ behind, e.key ≠ key := by
  rcases last_of_putAll found with last | ⟨-, before⟩
  · exact last
  · cases before

/-- Every attribute that was received has a value. -/
theorem found_of_mem {e : Entry} (mem : e ∈ es) :
    ∃ v, (putAll EapAttributes.empty es).attributes e.key = some v := by
  rw [← listed_putAll, putAll_orderReceived]
  exact List.mem_append_right _ (List.mem_map_of_mem mem)

/-- The attributes that are not AT_MAC are copied as they are exactly if each type has one value. -/
theorem single_iff :
    (∀ e ∈ es, e.key ≠ atMac → (putAll EapAttributes.empty es).attributes e.key = some e.value) ↔
      ∀ e ∈ es, ∀ e' ∈ es, e.key = e'.key → e.key ≠ atMac → e.value = e'.value := by
  constructor
  · intro all e mem e' mem' same other
    have first := all e mem other
    have second := all e' mem' (same ▸ other)
    rw [← same] at second
    exact Option.some.inj (first.symm.trans second)
  · intro single e mem other
    obtain ⟨v, found⟩ := found_of_mem mem
    obtain ⟨front, behind, parts, -⟩ := last_of_received found
    have last : ⟨e.key, v⟩ ∈ es := by
      rw [parts]
      exact List.mem_append_right front List.mem_cons_self
    rw [found, single e mem ⟨e.key, v⟩ last rfl other]

end Received

section Compare

variable {front behind : List Entry} {spare mac : List UInt8}

/-- The copy of an attribute is the attribute itself. -/
theorem copied_eq_self {as : EapAttributes} {e : Entry}
    (found : ∃ v, as.attributes e.key = some v) :
    copied as e.key = e ↔
      (e.key = atMac → e.value = List.replicate 18 0) ∧
        (e.key ≠ atMac → as.attributes e.key = some e.value) := by
  obtain ⟨key, value⟩ := e
  obtain ⟨v, found⟩ := found
  dsimp only at *
  by_cases same : key = atMac
  · simp [copied, same, eq_comm]
  · simp [copied, same, found]

/-- The copy has the attributes it was made from if each is zeroed or stored as received. -/
theorem map_copied_iff {as : EapAttributes} {es : List Entry}
    (found : ∀ e ∈ es, ∃ v, as.attributes e.key = some v) :
    es.map (fun e => copied as e.key) = es ↔
      ∀ e ∈ es, (e.key = atMac → e.value = List.replicate 18 0) ∧
        (e.key ≠ atMac → as.attributes e.key = some e.value) := by
  rw [map_eq_self_iff]
  exact forall₂_congr fun e mem => copied_eq_self (found e mem)

/-- The copy has the attributes of the packet with the last MAC cleared. -/
theorem copied_iff {as : EapAttributes} (last : ∀ e ∈ behind, e.key ≠ atMac)
    (same : as = putAll EapAttributes.empty (front ++ ⟨atMac, spare ++ mac⟩ :: behind)) :
    as.orderReceived.map (copied as) = front ++ ⟨atMac, spare ++ List.replicate 16 0⟩ :: behind ↔
      spare = [0, 0] ∧ (∀ e ∈ front, e.key = atMac → e.value = List.replicate 18 0) ∧
        ∀ e ∈ front ++ ⟨atMac, spare ++ mac⟩ :: behind, e.key ≠ atMac →
        as.attributes e.key = some e.value := by
  have found (e : Entry) (mem : e ∈ front ++ ⟨atMac, spare ++ mac⟩ :: behind) :
      ∃ v, as.attributes e.key = some v := by
    rw [same]
    exact found_of_mem mem
  have order : as.orderReceived = front.map Entry.key ++ atMac :: behind.map Entry.key := by
    rw [same, putAll_orderReceived]
    simp [EapAttributes.empty]
  have here : copied as atMac = ⟨atMac, spare ++ List.replicate 16 0⟩ ↔ spare = [0, 0] := by
    have eighteen : List.replicate 18 (0 : UInt8) = [0, 0] ++ List.replicate 16 0 := rfl
    rw [copied, if_pos rfl, Entry.mk.injEq, eighteen, List.append_left_inj]
    exact ⟨fun both => both.2.symm, fun zeros => ⟨rfl, zeros.symm⟩⟩
  have before := map_copied_iff fun e mem => found e (List.mem_append_left _ mem)
  have after := map_copied_iff fun e mem =>
    found e (List.mem_append_right _ (List.mem_cons_of_mem _ mem))
  rw [order, List.map_append, List.map_cons, List.map_map, List.map_map,
    List.append_eq_append_iff_of_size_eq_left (by simp), List.cons_eq_cons, here]
  show (front.map (fun e => copied as e.key) = front ∧ _ ∧
    behind.map (fun e => copied as e.key) = behind) ↔ _
  rw [before, after]
  constructor
  · rintro ⟨all, zeros, all'⟩
    refine ⟨zeros, fun e mem => (all e mem).1, ?_⟩
    intro e mem other
    rcases List.mem_append.mp mem with first | second
    · exact (all e first).2 other
    · rcases List.mem_cons.mp second with rfl | second
      · exact absurd rfl other
      · exact (all' e second).2 other
  · rintro ⟨zeros, macs, all⟩
    refine ⟨?_, zeros, ?_⟩
    · intro e mem
      exact ⟨macs e mem, all e (List.mem_append_left _ mem)⟩
    · intro e mem
      exact ⟨fun mac => absurd mac (last e mem),
        all e (List.mem_append_right _ (List.mem_cons_of_mem _ mem))⟩

end Compare

/-- The value of AT_MAC: two octets and the MAC. -/
theorem getMac_eq {as : EapAttributes} (sixteen : as.getMac.length = 16) :
    ∃ spare mac, as.attributes atMac = some (spare ++ mac) ∧ spare.length = 2 ∧ mac.length = 16 ∧
      as.getMac = mac := by
  unfold EapAttributes.getMac at *
  cases found : as.attributes atMac with
  | none => simp [found] at sixteen
  | some v =>
    simp only [found] at sixteen ⊢
    by_cases short : v.length < 2
    · rw [if_pos short] at sixteen
      cases sixteen
    · rw [if_neg short] at sixteen ⊢
      exact ⟨v.take 2, v.drop 2, by rw [List.take_append_drop], List.length_take_of_le (by omega),
        sixteen, rfl⟩

section Offset

variable {code id subType : UInt8} {reserved : Nat} {front behind : List Entry}
    {spare mac rest : List UInt8}

/-- The last AT_MAC stands where its front ends. -/
theorem macOffset_eq (accepted : Accepted code subType (front ++ ⟨atMac, spare ++ mac⟩ :: behind))
    (two : spare.length = 2) (sixteen : mac.length = 16) (last : ∀ e ∈ behind, e.key ≠ atMac) :
    macOffset
        (akaPacket code id subType reserved (front ++ ⟨atMac, spare ++ mac⟩ :: behind) ++ rest) =
      12 + (wire front).length := by
  have upTo : (wire (front ++ [⟨atMac, spare ++ mac⟩])).length = (wire front).length + 20 :=
    length_wire_mac two sixteen
  rw [macOffset, received_akaPacket accepted, upToMac_eq rfl last, upTo]
  omega

/-- The condition on the octets, attribute by attribute. -/
theorem reproduced_iff (accepted : Accepted code subType (front ++ ⟨atMac, spare ++ mac⟩ :: behind))
    (two : spare.length = 2) (sixteen : mac.length = 16) (last : ∀ e ∈ behind, e.key ≠ atMac) :
    Reproduced
        (akaPacket code id subType reserved (front ++ ⟨atMac, spare ++ mac⟩ :: behind) ++ rest) ↔
      Octets.ofNat 2 reserved = [0, 0] ∧ spare = [0, 0] ∧
        (∀ e ∈ front, e.key = atMac → e.value = List.replicate 18 0) ∧
        ∀ e ∈ front ++ ⟨atMac, spare ++ mac⟩ :: behind,
          ∀ e' ∈ front ++ ⟨atMac, spare ++ mac⟩ :: behind,
          e.key = e'.key → e.key ≠ atMac → e.value = e'.value := by
  have offset :
      macOffset
          (akaPacket code id subType reserved (front ++ ⟨atMac, spare ++ mac⟩ :: behind) ++ rest) =
        12 + (wire front).length := macOffset_eq accepted two sixteen last
  have spareField :
      field (akaPacket code id subType reserved (front ++ ⟨atMac, spare ++ mac⟩ :: behind) ++ rest)
      (12 + (wire front).length - 2) 2 = spare := by
    rw [akaPacket_mac two sixteen, macFront]
    refine field_eq ([code, id] ++
      Octets.ofNat 2 (8 + ((wire front).length + 20 + (wire behind).length)) ++
      [50, subType] ++ Octets.ofNat 2 reserved ++ wire front ++ [11, 5]) spare
      (mac ++ wire behind ++ rest) ?_ ?_ two
    · simp only [List.append_assoc]
    · simp only [List.length_append, List.length_cons, List.length_nil, Octets.length_ofNat]
      omega
  constructor
  · rintro ⟨zeros, macZeros, macs, single⟩
    rw [field_reserved] at zeros
    rw [offset, spareField] at macZeros
    rw [received_akaPacket accepted, upToMac_eq rfl last, List.dropLast_concat] at macs
    rw [received_akaPacket accepted] at single
    exact ⟨zeros, macZeros, macs, single⟩
  · rintro ⟨zeros, macZeros, macs, single⟩
    refine ⟨?_, ?_, ?_, ?_⟩
    · rw [field_reserved]
      exact zeros
    · rw [offset, spareField]
      exact macZeros
    · rw [received_akaPacket accepted, upToMac_eq rfl last, List.dropLast_concat]
      exact macs
    · rw [received_akaPacket accepted]
      exact single

theorem fits_replace {m : Entry} (fits : ∀ e ∈ front ++ m :: behind, e.Fits) {m' : Entry}
    (fits' : m'.Fits) :
    ∀ e ∈ front ++ m' :: behind, e.Fits := by
  intro e mem
  rcases List.mem_append.mp mem with first | second
  · exact fits e (List.mem_append_left _ first)
  · rcases List.mem_cons.mp second with rfl | second
    · exact fits'
    · exact fits e (List.mem_append_right _ (List.mem_cons_of_mem _ second))

end Offset

/-- An AT_MAC of eighteen octets fits. -/
theorem fits_mac {v : List UInt8} (size : v.length = 18) : Entry.Fits ⟨atMac, v⟩ :=
  (fits_iff (by decide) v).mpr (by omega)

/-- The attributes of the copy fit as those of the packet do. -/
theorem fits_copied {es : List Entry} (fits : ∀ e ∈ es, e.Fits) :
    ∀ e ∈ (putAll EapAttributes.empty es).orderReceived.map
      (copied (putAll EapAttributes.empty es)), e.Fits := by
  intro e mem
  obtain ⟨key, listed, rfl⟩ := List.mem_map.mp mem
  obtain ⟨v, found⟩ := (listed_putAll es key).mp listed
  obtain ⟨front, behind, parts, -⟩ := last_of_received found
  by_cases same : key = atMac
  · rw [copied, if_pos same, same]
    exact fits_mac List.length_replicate
  · rw [copied, if_neg same, found, Option.getD_some]
    refine fits _ ?_
    rw [parts]
    exact List.mem_append_right front List.mem_cons_self

/-- For an AKA' packet that the UE accepts with a MAC of sixteen octets: these are in the packet at
`macOffset`, and the UE authenticates the packet with just them cleared exactly if the packet is
reproduced. -/
theorem macInput_iff {octets rest : List UInt8} {code id subType : UInt8} {as : EapAttributes}
    (decoded : decodeEapPdu octets = (.ok ⟨code, id, .akaPrime subType as⟩, rest))
    (sixteen : as.getMac.length = 16) :
    field (packet octets) (macOffset octets) 16 = as.getMac ∧
      (macInput code id subType as = cleared (packet octets) (macOffset octets) ↔
        Reproduced octets) := by
  obtain ⟨reserved, es, accepted, -, rfl, same⟩ := decodeEapPdu_akaPrime.mp decoded
  obtain ⟨spare, mac, found, two, sixteen, value⟩ := getMac_eq sixteen
  have found' := found
  rw [same] at found'
  obtain ⟨front, behind, rfl, last⟩ := last_of_received found'
  rw [packet_akaPacket accepted.size, macOffset_eq accepted two sixteen last, value,
    cleared_akaPacket two sixteen, reproduced_iff accepted two sixteen last, ← single_iff, ← same]
  refine ⟨?_, ?_⟩
  · rw [akaPacket_mac two sixteen]
    exact field_eq _ _ _ rfl (length_macFront _ two) sixteen
  · have all : ∀ key ∈ as.orderReceived, ∃ v, as.attributes key = some v := by
      intro key listed
      rw [same] at listed ⊢
      exact (listed_putAll _ key).mp listed
    have listed : atMac ∈ as.orderReceived := by
      rw [same]
      exact (listed_putAll _ atMac).mpr ⟨_, found'⟩
    have fits : ∀ e ∈ as.orderReceived.map (copied as), e.Fits := by
      rw [same]
      exact fits_copied accepted.fits
    have fits' : ∀ e ∈ front ++ ⟨atMac, spare ++ List.replicate 16 0⟩ :: behind, e.Fits :=
      fits_replace accepted.fits (fits_mac (by simp [two]))
    have wires : wire (as.orderReceived.map (copied as)) =
          wire (front ++ ⟨atMac, spare ++ List.replicate 16 0⟩ :: behind) ↔
        as.orderReceived.map (copied as) =
          front ++ ⟨atMac, spare ++ List.replicate 16 0⟩ :: behind :=
      ⟨wire_injective fits fits', congrArg wire⟩
    rw [macInput_eq all listed, akaPacket_inj, wires, copied_iff last same,
      eq_comm (a := Octets.ofNat 2 0)]
    rfl

/-- A challenge with just AT_MAC; `reserved` is the second reserved octet behind the subtype. -/
def bareChallenge (reserved : UInt8) : List UInt8 :=
  [1, 7, 0, 28, 50, 1, 0, reserved, 11, 5, 0, 0] ++ List.replicate 16 0xA5

def bareAttributes : EapAttributes :=
  putAll EapAttributes.empty [⟨atMac, [0, 0] ++ List.replicate 16 0xA5⟩]

/-- The challenge with just AT_MAC is accepted. -/
theorem decode_bareChallenge (reserved : UInt8) :
    decodeEapPdu (bareChallenge reserved) = (.ok ⟨1, 7, .akaPrime 1 bareAttributes⟩, []) := by
  rw [decodeEapPdu_akaPrime]
  refine ⟨reserved.toNat, [⟨atMac, [0, 0] ++ List.replicate 16 0xA5⟩], ?_, ?_, ?_, rfl⟩
  · refine ⟨by decide, by decide, ?_, by decide⟩
    intro e mem
    rw [List.mem_singleton] at mem
    subst mem
    exact fits_mac rfl
  · have := reserved.toNat_lt
    omega
  · have octets : Octets.ofNat 2 reserved.toNat = [0, reserved] := by
      have high : reserved.toNat / 256 = 0 := by
        have := reserved.toNat_lt
        omega
      simp [Octets.ofNat, high]
    rw [akaPacket, octets]
    rfl

/-- With zeros in the reserved octets the packet is reproduced. -/
theorem macInput_bareChallenge :
    decodeEapPdu (bareChallenge 0) = (.ok ⟨1, 7, .akaPrime 1 bareAttributes⟩, []) ∧
      bareAttributes.getMac.length = 16 ∧
      macInput 1 7 1 bareAttributes =
        cleared (packet (bareChallenge 0)) (macOffset (bareChallenge 0)) := by
  have decoded := decode_bareChallenge 0
  have sixteen : bareAttributes.getMac.length = 16 := by decide
  refine ⟨decoded, sixteen, (macInput_iff decoded sixteen).2.mpr ?_⟩
  refine ⟨by decide, by decide, by decide, by decide⟩

/-- With another reserved octet the UE authenticates octets that it has not received. -/
theorem macInput_not_received :
    decodeEapPdu (bareChallenge 1) = (.ok ⟨1, 7, .akaPrime 1 bareAttributes⟩, []) ∧
      bareAttributes.getMac.length = 16 ∧
      macInput 1 7 1 bareAttributes ≠
        cleared (packet (bareChallenge 1)) (macOffset (bareChallenge 1)) := by
  exact ⟨decode_bareChallenge 1, by decide, by decide⟩

end EdhocAuth.Aka
