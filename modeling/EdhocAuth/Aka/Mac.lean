/-
AT_MAC: how the AUSF finds it (`src/ausf/nudm-handler.c`).

`CalculateMacForEapAkaPrime` does not walk the attributes. It looks for the first octets
0x0B 0x05 of the payload and clears the sixteen octets from the fourth after them. In a
payload with AT_MAC behind `front`, this is AT_MAC unless `front` has the pair somewhere
(`scanMac_eq`). `mac_input_iff` says for which challenges and responses exactly the value of
AT_MAC is cleared.
-/

import EdhocAuth.Aka.Response
import EdhocAuth.Lib.Sha256
import Mathlib.Tactic.IntervalCases

namespace EdhocAuth.Aka

open Octets Eap

/-! ### The MAC of a payload -/

/-- `AT_MAC` and its length. -/
def PairAt (payload : List UInt8) (i : Nat) : Prop :=
  Octets.octet payload i = 0x0B ∧ Octets.octet payload (i + 1) = 5

instance (payload : List UInt8) (i : Nat) : Decidable (PairAt payload i) := by
  unfold PairAt
  infer_instance

/-- `offset` after the loop in `CalculateMacForEapAkaPrime`; `none` is -1. -/
def scanMac (payload : List UInt8) : Option Nat :=
  (List.range (payload.length - 2)).find? fun i => PairAt payload i

/-- `memset(&payload_copy[pos], 0x00, 16)` -/
def cleared (payload : List UInt8) (pos : Nat) : List UInt8 :=
  memcpyAt payload pos (List.replicate 16 0)

/-- The first sixteen octets of an HMAC. -/
def truncated (hmac : Hmac) (kAut payload : List UInt8) : Block UInt8 16 :=
  Block.read 0 16 (hmac kAut payload).toList

/-- `CalculateMacForEapAkaPrime`; `none` is `false`. -/
def calculateMacForEapAkaPrime (hmac : Hmac) (kAut payload : List UInt8) :
    Option (Block UInt8 16) :=
  if 2048 < payload.length then none
  else
    match scanMac payload with
    | none => none
    | some offset =>
      if payload.length < offset + 20 then none
      else some (truncated hmac kAut (cleared payload (offset + 4)))

/-! ### The challenge -/

def buildEapAkaPrimeHeader (code identifier : UInt8) : List UInt8 :=
  [code, identifier, 0x00, 0x00, 0x32, 0x01, 0x00, 0x00]

def addAtRand (payload : List UInt8) (rand : Block UInt8 16) : List UInt8 :=
  payload ++ [0x01, 0x05, 0x00, 0x00] ++ rand.toList

def addAtAutn (payload : List UInt8) (autn : Block UInt8 16) : List UInt8 :=
  payload ++ [0x02, 0x05, 0x00, 0x00] ++ autn.toList

def addAtKdf (payload : List UInt8) (kdfId : Nat) : List UInt8 :=
  payload ++ [0x18, 0x01] ++ Octets.ofNat 2 kdfId

def addAtKdfFs (payload : List UInt8) (fsKdfId : UInt8) : List UInt8 :=
  payload ++ [0x99, 0x01, fsKdfId, 0x00]

def addAtKdfInput (payload : List UInt8) (snn : CString) : List UInt8 :=
  if 255 < snn.strlen then payload
  else payload ++ [0x17, UInt8.ofNat ((2 + snn.strlen + 3) / 4)] ++ Octets.ofNat 2 snn.strlen ++
    snn.octets

def addAtPubHybrid (payload : List UInt8) (mlkemPubKey : Block UInt8 1184)
    (x25519PubKey : Block UInt8 32) :
    List UInt8 :=
  payload ++ [0xA0] ++ Octets.ofNat 2 ((4 + (1184 + 32)) / 4) ++ [0x00] ++ mlkemPubKey.toList ++
    x25519PubKey.toList

def addAtMac (payload : List UInt8) : List UInt8 :=
  payload ++ [0x0B, 0x05, 0x00, 0x00] ++ List.replicate 16 0

structure ChallengeData where
  rand : Block UInt8 16
  autn : Block UInt8 16
  snn : CString
  mlkemPubKey : Block UInt8 1184
  x25519PubKey : Block UInt8 32

/-- `eap_payload` before `add_at_mac`. -/
def ChallengeData.attributes (c : ChallengeData) : List UInt8 :=
  let payload := buildEapAkaPrimeHeader 0x01 0x01
  let payload := addAtRand payload c.rand
  let payload := addAtAutn payload c.autn
  let payload := addAtKdf payload 0x0001
  let payload := addAtKdfFs payload 1
  let payload := addAtKdfInput payload c.snn
  addAtPubHybrid payload c.mlkemPubKey c.x25519PubKey

/-- `eap_payload` when its MAC is calculated: the length is in place. -/
def ChallengeData.payload (c : ChallengeData) : List UInt8 :=
  memcpyAt (addAtMac c.attributes) 2 (Octets.ofNat 2 (addAtMac c.attributes).length)

/-! ### The scan -/

def firstPair (octets : List UInt8) : Option Nat :=
  (List.range octets.length).find? fun i => PairAt octets i

section Layout

variable {front mac rest : List UInt8}

/-- A payload with AT_MAC behind `front`. -/
def layout (front mac rest : List UInt8) : List UInt8 := front ++ ([11, 5, 0, 0] ++ (mac ++ rest))

/-- In front of AT_MAC the pairs are those of the front. -/
theorem pairAt_layout_front {i : Nat} (inside : i < front.length) :
    PairAt (layout front mac rest) i ↔ PairAt front i := by
  unfold PairAt layout
  rw [octet_append_left inside]
  by_cases last : i + 1 < front.length
  · rw [octet_append_left last]
  · have edge : i + 1 = front.length + 0 := by omega
    have beyond : Octets.octet front (i + 1) = 0 := octet_of_le (by omega)
    have next : Octets.octet (front ++ ([11, 5, 0, 0] ++ (mac ++ rest))) (i + 1) = 11 := by
      rw [edge]
      exact octet_append_right _ _ 0
    rw [beyond, next]
    simp

/-- AT_MAC itself is a pair. -/
theorem pairAt_layout_mac : PairAt (layout front mac rest) front.length := by
  constructor
  · exact octet_append_right _ _ 0
  · exact octet_append_right _ _ 1

theorem length_layout (front rest : List UInt8) (size : mac.length = 16) :
    (layout front mac rest).length = front.length + 20 + rest.length := by
  simp only [layout, List.length_append, List.length_cons, List.length_nil, size]
  omega

/-- The scan finds the first pair of `front`, or else AT_MAC. -/
theorem scanMac_eq (size : mac.length = 16) :
    scanMac (layout front mac rest) = some ((firstPair front).getD front.length) := by
  have total := length_layout front rest size
  unfold scanMac
  rw [List.find?_range_eq_some]
  cases found : firstPair front with
  | none =>
    have none_in : ∀ i, i < front.length → ¬ PairAt front i := by
      simpa [firstPair] using found
    refine ⟨?_, ?_, ?_⟩
    · exact decide_eq_true pairAt_layout_mac
    · rw [List.mem_range, Option.getD_none]
      omega
    · intro j before
      rw [Option.getD_none] at before
      simpa [pairAt_layout_front before] using none_in j before
  | some o =>
    obtain ⟨pair, mem, before⟩ := List.find?_range_eq_some.mp found
    rw [List.mem_range] at mem
    refine ⟨?_, ?_, ?_⟩
    · simpa [pairAt_layout_front mem] using pair
    · rw [List.mem_range, Option.getD_some]
      omega
    · intro j earlier
      rw [Option.getD_some] at earlier
      have inside : j < front.length := by omega
      simpa [pairAt_layout_front inside] using before j earlier

/-- There is no first pair if there is none. -/
theorem firstPair_eq_none {octets : List UInt8} :
    firstPair octets = none ↔ ∀ i, ¬ PairAt octets i := by
  constructor
  · intro none i pair
    by_cases inside : i < octets.length
    · have := List.find?_eq_none.mp none i (List.mem_range.mpr inside)
      exact this (decide_eq_true pair)
    · have zero : Octets.octet octets i = 0 := octet_of_le (by omega)
      rw [PairAt, zero] at pair
      exact absurd pair.1 (by decide)
  · intro no
    refine List.find?_eq_none.mpr ?_
    intro i _ pair
    exact no i (of_decide_eq_true pair)

/-- The first pair starts inside. -/
theorem firstPair_lt {octets : List UInt8} {o : Nat} (found : firstPair octets = some o) :
    o < octets.length :=
  List.mem_range.mp (List.find?_range_eq_some.mp found).2.1

/-- The MAC of a payload with AT_MAC behind `front`. -/
theorem calculateMac_layout (hmac : Hmac) (kAut : List UInt8) (size : mac.length = 16)
    (short : (layout front mac rest).length ≤ 2048) :
    calculateMacForEapAkaPrime hmac kAut (layout front mac rest) =
      some (truncated hmac kAut
        (cleared (layout front mac rest) ((firstPair front).getD front.length + 4))) := by
  have total := length_layout front rest size
  have offset : (firstPair front).getD front.length ≤ front.length := by
    cases found : firstPair front with
    | none => exact Nat.le_refl _
    | some o => exact (firstPair_lt found).le
  rw [calculateMacForEapAkaPrime, if_neg (by omega), scanMac_eq size]
  dsimp only
  rw [if_neg (by omega)]

end Layout

/-! ### Which octets are cleared -/

/-- Clearing changes nothing if the octets are zero already. -/
theorem cleared_eq_self_iff {payload : List UInt8} {pos : Nat} :
    cleared payload pos = payload ↔ field payload pos 16 = List.replicate 16 0 := by
  have parts : payload = payload.take pos ++ (field payload pos 16 ++ payload.drop (pos + 16)) := by
    rw [field, ← List.drop_drop, List.take_append_drop, List.take_append_drop]
  constructor
  · intro same
    rw [cleared, memcpyAt, List.length_replicate] at same
    have tails := List.append_cancel_left (same.trans parts)
    exact (List.append_cancel_right tails).symm
  · intro zeros
    rw [cleared, memcpyAt, List.length_replicate, ← zeros, ← parts]

/-- What lies behind the cleared octets stays. -/
theorem octet_cleared {payload : List UInt8} {pos i : Nat} (inside : pos + 16 ≤ payload.length)
    (behind : pos + 16 ≤ i) : Octets.octet (cleared payload pos) i = Octets.octet payload i := by
  have fits : pos + (List.replicate 16 (0 : UInt8)).length ≤ payload.length := by
    rw [List.length_replicate]
    exact inside
  have same :=
    drop_memcpyAt fits (show pos + (List.replicate 16 (0 : UInt8)).length ≤ i by simpa using behind)
  have first := congrArg (fun rest => rest.getD 0 0) same
  simpa [Octets.octet, cleared] using first

/-- A function that tells one message from all others. -/
def telling (message : List UInt8) : Hmac :=
  fun _ m => if m = message then Block.fill 32 1 else Block.fill 32 2

/-- A MAC that tells messages apart is that of one message. -/
theorem eq_of_telling {message m k : List UInt8}
    (same : truncated (telling message) k m = truncated (telling message) k message) :
    m = message := by
  by_contra other
  simp only [truncated, telling, if_neg other, if_true] at same
  exact absurd same (by decide)

/-! ### Challenges -/

section Challenge

variable (c : ChallengeData)

def ChallengeData.front : List UInt8 :=
  memcpyAt c.attributes 2 (Octets.ofNat 2 (c.attributes.length + 20))

/-- The attributes of a challenge fit into the buffer. -/
theorem ChallengeData.length_attributes : 8 ≤ c.attributes.length ∧ c.attributes.length ≤ 1535 := by
  have kdfInput (payload : List UInt8) :
      (addAtKdfInput payload c.snn).length ≤ payload.length + 259 ∧
      payload.length ≤ (addAtKdfInput payload c.snn).length := by
    rw [addAtKdfInput]
    split
    · omega
    · simp only [List.length_append, List.length_cons, List.length_nil, length_ofNat]
      simp only [CString.strlen] at *
      omega
  simp only [ChallengeData.attributes, addAtPubHybrid, List.length_append, List.length_cons,
    List.length_nil, length_ofNat, List.Vector.toList_length]
  have bounds :=
    kdfInput (addAtKdfFs (addAtKdf (addAtAutn (addAtRand (buildEapAkaPrimeHeader 1 1) c.rand)
    c.autn) 1) 1)
  have before : (addAtKdfFs (addAtKdf (addAtAutn (addAtRand (buildEapAkaPrimeHeader 1 1) c.rand)
    c.autn) 1) 1).length = 56 := by
    simp [addAtKdfFs, addAtKdf, addAtAutn, addAtRand, buildEapAkaPrimeHeader]
  omega

theorem ChallengeData.length_front : c.front.length = c.attributes.length := by
  rw [ChallengeData.front, memcpyAt_length]
  have := c.length_attributes
  rw [length_ofNat]
  omega

/-- A challenge is AT_MAC behind the other attributes. -/
theorem ChallengeData.payload_eq : c.payload = layout c.front (List.replicate 16 0) [] := by
  have bounds := c.length_attributes
  have fits : 2 + (Octets.ofNat 2 (c.attributes.length + 20)).length ≤ c.attributes.length := by
    rw [length_ofNat]
    omega
  have total : (addAtMac c.attributes).length = c.attributes.length + 20 := by
    simp [addAtMac]
  rw [ChallengeData.payload, total, addAtMac, List.append_assoc, memcpyAt_left fits]
  rfl

/-- In a challenge AT_MAC is empty already. -/
theorem ChallengeData.cleared_payload :
    cleared c.payload (c.attributes.length + 4) = c.payload := by
  rw [cleared_eq_self_iff, c.payload_eq]
  exact field_eq (c.front ++ [11, 5, 0, 0]) _ [] (by simp [layout]) (by simp [c.length_front]) rfl

/-- The MAC of a challenge is that with the first pair cleared. -/
theorem ChallengeData.calculateMac (hmac : Hmac) (kAut : List UInt8) :
    calculateMacForEapAkaPrime hmac kAut c.payload =
      some (truncated hmac kAut
        (cleared c.payload ((firstPair c.front).getD c.front.length + 4))) := by
  have bounds := c.length_attributes
  rw [c.payload_eq]
  refine calculateMac_layout hmac kAut List.length_replicate ?_
  rw [length_layout _ _ List.length_replicate, c.length_front, List.length_nil]
  omega

/-- For every key, exactly AT_MAC is cleared: exactly if the first pair in front of it, if there is
one, is followed by zeros where the scan clears. -/
theorem challenge_mac_iff :
    (∀ (hmac : Hmac) (kAut : Block UInt8 32),
        calculateMacForEapAkaPrime hmac kAut.toList c.payload =
          some (truncated hmac kAut.toList (cleared c.payload (c.attributes.length + 4)))) ↔
      ∀ o, firstPair c.front = some o → field c.payload (o + 4) 16 = List.replicate 16 0 := by
  constructor
  · intro right o found
    have same := right (telling c.payload) (Block.fill 32 0)
    rw [c.calculateMac, found, c.cleared_payload, Option.getD_some, Option.some.injEq] at same
    exact cleared_eq_self_iff.mp (eq_of_telling same)
  · intro zeros hmac kAut
    rw [c.calculateMac]
    cases found : firstPair c.front with
    | none => rw [Option.getD_none, c.length_front]
    | some o => rw [Option.getD_some, cleared_eq_self_iff.mpr (zeros o found), c.cleared_payload]

end Challenge

/-! ### Responses -/

section Response

variable (id : UInt8) (res : Block UInt8 8) (pub : PublicValue)

/-- There is no pair in the header of a response or in that of AT_RES. -/
theorem not_pairAt_header {i : Nat} (inside : i < 12) : ¬ PairAt (responseFront id res pub) i := by
  have high : UInt8.ofNat ((44 + pub.octets.length) / 256) ≠ 5 ∧
      UInt8.ofNat ((44 + pub.octets.length) / 256) ≠ 11 := by
    cases pub <;> simp [PublicValue.octets]
  have octets : responseFront id res pub =
      2 :: id :: UInt8.ofNat ((44 + pub.octets.length) / 256) :: UInt8.ofNat
        (44 + pub.octets.length) ::
        50 :: 1 :: 0 :: 0 :: 3 :: 3 :: 0 :: 64 :: res.toList := rfl
  rw [PairAt, octets]
  interval_cases i <;> simp [Octets.octet, high]

/-- Only RES can have a pair in front of AT_MAC. -/
theorem pairAt_responseFront (i : Nat) :
    PairAt (responseFront id res pub) i ↔ ∃ j, i = 12 + j ∧ PairAt res.toList j := by
  let header := [2, id] ++ Octets.ofNat 2 (44 + pub.octets.length) ++ [50, 1, 0, 0] ++ [3, 3, 0, 64]
  have size : header.length = 12 := by simp [header]
  have split : responseFront id res pub = header ++ res.toList := rfl
  have behind (j : Nat) : PairAt (responseFront id res pub) (12 + j) ↔ PairAt res.toList j := by
    rw [PairAt, PairAt, split, ← size, octet_append_right, Nat.add_assoc, octet_append_right]
  by_cases inside : i < 12
  · refine ⟨fun pair => absurd pair (not_pairAt_header id res pub inside), ?_⟩
    rintro ⟨j, at_j, -⟩
    omega
  · obtain ⟨j, rfl⟩ : ∃ j, i = 12 + j := ⟨i - 12, by omega⟩
    rw [behind]
    constructor
    · intro pair
      exact ⟨j, rfl, pair⟩
    · rintro ⟨k, same, pair⟩
      rwa [Nat.add_left_cancel same]

/-- A response is AT_MAC between AT_RES and the attributes of the mode. -/
theorem encode_sentResponse (hmac : Hmac) (kAut : List UInt8) :
    encodeEapPdu (sentResponse hmac kAut id res pub) =
      layout (responseFront id res pub)
        (ueCalculateMac hmac kAut 2 id 1 (responseAttributes res pub)).toList
        ([24, 1, 0, 1] ++ pub.octets) := by
  rw [sentResponse, encode_akaPrimeResponse]
  simp [layout]

/-- A response fits into the array of the AUSF. -/
theorem length_layout_response {mac : List UInt8} (size : mac.length = 16) :
    (layout (responseFront id res pub) mac ([24, 1, 0, 1] ++ pub.octets)).length ≤ 2048 := by
  rw [length_layout _ _ size, length_responseFront]
  cases pub <;> simp [PublicValue.octets]

/-- Clearing AT_MAC gives the octets that the UE authenticates. -/
theorem cleared_layout {mac front rest : List UInt8} (size : mac.length = 16) :
    cleared (layout front mac rest) (front.length + 4) =
      layout front (List.replicate 16 0) rest := by
  have parts (m : List UInt8) : layout front m rest = (front ++ [11, 5, 0, 0]) ++ (m ++ rest) := by
    simp [layout]
  rw [cleared, parts, parts, memcpyAt_append (by simp), List.length_replicate, List.drop_left' size]

/-- A MAC of ones does not become zeros if the octets in front of its end are cleared. -/
theorem cleared_layout_ne {front rest : List UInt8} {o : Nat} (before : o < front.length) :
    cleared (layout front (Block.fill 16 1 : Block UInt8 16).toList rest) (o + 4) ≠
      layout front (Block.fill 16 0 : Block UInt8 16).toList rest := by
  intro same
  -- the last octet of the MAC is behind those that are cleared
  have last (m : Block UInt8 16) : Octets.octet (layout front m.toList rest) (front.length + 19) =
      Octets.octet ([11, 5, 0, 0] ++ (m.toList ++ rest)) 19 := by
    rw [layout, octet_append_right]
  have inside :
      o + 4 + 16 ≤ (layout front (Block.fill 16 1 : Block UInt8 16).toList rest).length := by
    rw [length_layout front rest rfl]
    omega
  have kept := congrArg (Octets.octet · (front.length + 19)) same
  rw [octet_cleared inside (by omega), last] at kept
  have zero : (1 : UInt8) = 0 := kept.trans (last (Block.fill 16 0))
  exact absurd zero (by decide)

/-- A pair in front of AT_MAC is one in RES. -/
theorem firstPair_responseFront_eq_none :
    firstPair (responseFront id res pub) = none ↔ ∀ i, ¬ PairAt res.toList i := by
  rw [firstPair_eq_none]
  constructor
  · intro no i pair
    exact no (12 + i) ((pairAt_responseFront id res pub (12 + i)).mpr ⟨i, rfl, pair⟩)
  · intro no i pair
    obtain ⟨j, -, pair⟩ := (pairAt_responseFront id res pub i).mp pair
    exact no j pair

/-- A function under which the UE sends a MAC of ones. -/
theorem ueCalculateMac_telling (kAut : List UInt8) :
    ueCalculateMac (telling
      (layout (responseFront id res pub) (List.replicate 16 0) ([24, 1, 0, 1] ++ pub.octets)))
      kAut 2 id 1 (responseAttributes res pub) = Block.fill 16 1 := by
  have same : encodeEapPdu (akaPrimeResponse id res (Block.fill 16 0) pub) =
      layout (responseFront id res pub) (List.replicate 16 0) ([24, 1, 0, 1] ++ pub.octets) := by
    rw [encode_akaPrimeResponse]
    simp only [layout, List.append_assoc]
    rfl
  rw [ueCalculateMac_eq, same, telling, if_pos rfl]
  rfl

/-- For every key, exactly AT_MAC is cleared: exactly if there is no pair in RES. -/
theorem response_mac_iff :
    (∀ (hmac : Hmac) (kAut : Block UInt8 32),
        calculateMacForEapAkaPrime hmac kAut.toList
          (encodeEapPdu (sentResponse hmac kAut.toList id res pub)) =
          some (truncated hmac kAut.toList
            (cleared (encodeEapPdu (sentResponse hmac kAut.toList id res pub)) 24))) ↔
      ∀ i, ¬ PairAt res.toList i := by
  have frontLen : (responseFront id res pub).length = 20 := length_responseFront id res pub
  have macLen (hmac : Hmac) (kAut : List UInt8) :
      (ueCalculateMac hmac kAut 2 id 1 (responseAttributes res pub)).toList.length = 16 :=
    List.Vector.toList_length _
  have clearedAt {mac rest : List UInt8} (size : mac.length = 16) :
      cleared (layout (responseFront id res pub) mac rest) 24 =
        layout (responseFront id res pub) (List.replicate 16 0) rest := by
    rw [← cleared_layout size, frontLen]
  rw [← firstPair_responseFront_eq_none id res pub]
  constructor
  · intro right
    by_contra some
    obtain ⟨o, found⟩ := Option.ne_none_iff_exists'.mp some
    have whole := right (telling (layout (responseFront id res pub) (List.replicate 16 0)
      ([24, 1, 0, 1] ++ pub.octets))) (Block.fill 32 0)
    rw [encode_sentResponse, ueCalculateMac_telling,
      calculateMac_layout _ _ rfl (length_layout_response id res pub rfl), clearedAt rfl,
      Option.some.injEq,
      found, Option.getD_some] at whole
    exact cleared_layout_ne (firstPair_lt found) (eq_of_telling whole)
  · intro none hmac kAut
    rw [encode_sentResponse,
      calculateMac_layout _ _ (macLen _ _) (length_layout_response id res pub (macLen _ _)),
      none, Option.getD_none, frontLen]

end Response

/-- For which challenges, and for which responses of a UE, the AUSF computes the MAC over the
payload with exactly the value of AT_MAC cleared, whatever the key. -/
theorem mac_input_iff (c : ChallengeData) (id : UInt8) (res : Block UInt8 8) (pub : PublicValue) :
    ((∀ (hmac : Hmac) (kAut : Block UInt8 32),
        calculateMacForEapAkaPrime hmac kAut.toList c.payload =
          some (truncated hmac kAut.toList (cleared c.payload (c.attributes.length + 4)))) ↔
      ∀ o, firstPair c.front = some o → field c.payload (o + 4) 16 = List.replicate 16 0) ∧
    ((∀ (hmac : Hmac) (kAut : Block UInt8 32),
        calculateMacForEapAkaPrime hmac kAut.toList
          (encodeEapPdu (sentResponse hmac kAut.toList id res pub)) =
          some (truncated hmac kAut.toList
            (cleared (encodeEapPdu (sentResponse hmac kAut.toList id res pub)) 24))) ↔
      ∀ i, ¬ PairAt res.toList i) :=
  ⟨challenge_mac_iff c, response_mac_iff id res pub⟩

def pairRes : Block UInt8 8 := ⟨[0x0B, 0x05, 0x11, 0x22, 0x33, 0x44, 0x55, 0x66], rfl⟩

/-- The response of a UE with this RES, an identifier of 1 and a K_aut of 0x42s. -/
def pairResponse : List UInt8 :=
  [2, 1, 0, 44, 50, 1, 0, 0] ++ [3, 3, 0, 64, 0x0B, 0x05, 0x11, 0x22, 0x33, 0x44, 0x55, 0x66] ++
    [11, 5, 0, 0] ++ [252, 8, 7, 249, 171, 246, 118, 67, 155, 111, 176, 192, 249, 1, 27, 153] ++
      [24, 1, 0, 1]

/-- Its MAC at the AUSF is not the one that the UE has sent. -/
theorem pairRes_mac_differs :
    ¬ ((∀ (c : ChallengeData) (kAut : Block UInt8 32),
        calculateMacForEapAkaPrime Sha256.hmac kAut.toList c.payload =
          some (truncated Sha256.hmac kAut.toList (cleared c.payload (c.attributes.length + 4)))) ∧
      ∀ (id : UInt8) (res : Block UInt8 8) (pub : PublicValue) (kAut : Block UInt8 32),
        calculateMacForEapAkaPrime Sha256.hmac kAut.toList
            (encodeEapPdu (sentResponse Sha256.hmac kAut.toList id res pub)) =
          some (truncated Sha256.hmac kAut.toList
            (cleared (encodeEapPdu (sentResponse Sha256.hmac kAut.toList id res pub)) 24))) := by
  rintro ⟨-, responses⟩
  have same := responses 1 pairRes .absent (Block.fill 32 0x42)
  have sent :
      encodeEapPdu (sentResponse Sha256.hmac (Block.fill 32 0x42 : Block UInt8 32).toList 1 pairRes
      .absent) = pairResponse := by
    decide +kernel
  rw [sent] at same
  revert same
  decide +kernel

end EdhocAuth.Aka
