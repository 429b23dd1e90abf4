/-
The attribute walk of `IEEapMessage::Decode` (`ie6.cpp`).

After handing the information element to `DecodeEapPdu`, the decoder dumps what it
takes for EAP-AKA' attributes: from offset 8 on, for every EAP type and whatever
`DecodeEapPdu` returned. The guard that stopped at a zero or overlong length is
commented out. A run of the walk is observed as the list of indices it reads; the
octets behind the element are arbitrary, and a walk that never leaves its loop has
no run.

`decodeWalk_safe_iff`: the walk ends inside the element exactly when what it walks
over is a sequence of attributes.
-/

import Mathlib.Data.List.TakeDrop
import Mathlib.Data.List.Basic

namespace EdhocAuth.Eap

/-- `ie_type == 0xA0 /* AT_PUB_HYBRID */`, the type with a two-byte length. -/
def atPubHybrid : UInt8 := 0xA0

/-- `ie_len` at `offset`, a `uint16_t`. -/
def ieLen (subData : Nat → UInt8) (offset : Nat) : Nat :=
  if subData offset = atPubHybrid then
    (subData (offset + 1)).toNat * 256 + (subData (offset + 2)).toNat
  else (subData (offset + 1)).toNat

/-- The indices one iteration reads: the header, then `ie_total_len` octets of content. -/
def ieReads (subData : Nat → UInt8) (offset : Nat) : List Nat :=
  offset :: (offset + 1) ::
    ((if subData offset = atPubHybrid then [offset + 2] else []) ++
      List.range' offset (ieLen subData offset * 4))

/-- `while (offset + 2 <= length)`, for at most `fuel` tests of the condition: the
indices read, or `none` while the loop is still running. -/
def walk (subData : Nat → UInt8) (length : Nat) : Nat → Nat → Option (List Nat)
  | 0, _ => none
  | fuel + 1, offset =>
    if offset + 2 ≤ length then
      (walk subData length fuel (offset + ieLen subData offset * 4)).map
        (ieReads subData offset ++ ·)
    else some []

/-- The walk as `Decode` starts it, behind `if (length >= 6)`. -/
def decodeWalk (subData : Nat → UInt8) (length fuel : Nat) : Option (List Nat) :=
  if 6 ≤ length then walk subData length fuel 8 else some []

/-- `subData[i]`: an octet of the element, or whatever memory holds behind it. -/
def subDataOf (ie : List UInt8) (beyond : Nat → UInt8) (i : Nat) : UInt8 := ie.getD i (beyond i)

/-- The walk over `ie` ends after finitely many iterations and reads only octets of `ie`. -/
def WalkSafe (ie : List UInt8) (beyond : Nat → UInt8) : Prop :=
  ∃ fuel reads, decodeWalk (subDataOf ie beyond) ie.length fuel = some reads ∧
    ∀ i ∈ reads, i < ie.length

/-! ### Attributes -/

def lengthField (attr : List UInt8) : Nat := ieLen (fun i => attr.getD i 0) 0

/-- An attribute of EAP-AKA': its length field is nonzero and says how long it is. -/
structure Attribute (attr : List UInt8) : Prop where
  pos : 0 < lengthField attr
  size : attr.length = lengthField attr * 4

/-- A sequence of attributes with at most one octet behind it. -/
def Tiled (body : List UInt8) : Prop :=
  ∃ (attrs : List (List UInt8)) (rest : List UInt8),
    body = attrs.flatten ++ rest ∧ rest.length ≤ 1 ∧ ∀ a ∈ attrs, Attribute a

/-- At most one octet is a sequence of no attributes. -/
theorem Tiled.short {body : List UInt8} (h : body.length ≤ 1) : Tiled body :=
  ⟨[], body, rfl, h, by simp⟩

/-- An attribute in front of a sequence makes a sequence. -/
theorem Tiled.cons {attr body : List UInt8} (here : Attribute attr) (there : Tiled body) :
    Tiled (attr ++ body) := by
  obtain ⟨attrs, rest, rfl, short, all⟩ := there
  refine ⟨attr :: attrs, rest, by simp, short, ?_⟩
  intro a mem
  rcases List.mem_cons.mp mem with rfl | mem
  · exact here
  · exact all a mem

section Walk

variable {ie : List UInt8} {beyond : Nat → UInt8} {offset : Nat}

theorem subDataOf_of_lt {i : Nat} (h : i < ie.length) (other : UInt8) :
    subDataOf ie beyond i = ie.getD i other := by
  simp [subDataOf, List.getElem?_eq_getElem h]

/-- The length the walk reads at `offset` is the length field of the octets there, as
long as three of them belong to the element. -/
theorem ieLen_eq_lengthField (beyond : Nat → UInt8) {attr tail : List UInt8}
    (split : ie.drop offset = attr ++ tail) (long : 3 ≤ attr.length) :
    ieLen (subDataOf ie beyond) offset = lengthField attr := by
  have octet {k : Nat} (h : k < attr.length) :
      subDataOf ie beyond (offset + k) = attr.getD k 0 := by
    have here : (ie.drop offset)[k]? = attr[k]? := by
      rw [split, List.getElem?_append_left h]
    rw [List.getElem?_drop] at here
    have inside : offset + k < ie.length := by
      have := congrArg List.length split
      simp only [List.length_drop, List.length_append] at this
      omega
    rw [subDataOf_of_lt inside 0, List.getD_eq_getElem?_getD, List.getD_eq_getElem?_getD, here]
  have first := octet (k := 0) (by omega)
  have second := octet (k := 1) (by omega)
  have third := octet (k := 2) (by omega)
  simp only [lengthField, ieLen, Nat.zero_add, ← first, ← second, ← third, Nat.add_zero]

/-- One iteration over an attribute reads octets of that attribute only. -/
theorem ieReads_lt {attr tail : List UInt8} (split : ie.drop offset = attr ++ tail)
    (here : Attribute attr) : ∀ i ∈ ieReads (subDataOf ie beyond) offset, i < ie.length := by
  have len := congrArg List.length split
  simp only [List.length_drop, List.length_append] at len
  have pos := here.pos
  have size := here.size
  have field := ieLen_eq_lengthField beyond split (by omega)
  intro i mem
  simp only [ieReads, field, List.mem_cons, List.mem_append, List.mem_range'_1] at mem
  rcases mem with rfl | rfl | mem | mem
  · omega
  · omega
  · split_ifs at mem
    · simp only [List.mem_singleton] at mem
      omega
    · cases mem
  · omega

/-- A tiled element is walked attribute by attribute. -/
theorem walk_of_tiled {attrs : List (List UInt8)} {rest : List UInt8}
    (split : ie.drop offset = attrs.flatten ++ rest) (short : rest.length ≤ 1)
    (all : ∀ a ∈ attrs, Attribute a) (below : offset ≤ ie.length) :
    ∃ reads, walk (subDataOf ie beyond) ie.length (attrs.length + 1) offset = some reads ∧
      ∀ i ∈ reads, i < ie.length := by
  induction attrs generalizing offset with
  | nil =>
    have len := congrArg List.length split
    simp only [List.flatten_nil, List.nil_append, List.length_drop] at len
    exact ⟨[], by rw [walk, if_neg (by omega)], by simp⟩
  | cons attr attrs ih =>
    have here : Attribute attr := all attr List.mem_cons_self
    have pos := here.pos
    have size := here.size
    rw [List.flatten_cons, List.append_assoc] at split
    have len := congrArg List.length split
    simp only [List.length_drop, List.length_append] at len
    have next : ie.drop (offset + lengthField attr * 4) = attrs.flatten ++ rest := by
      rw [← List.drop_drop, split, ← size, List.drop_left]
    obtain ⟨reads, walked, inside⟩ :=
      ih next (fun a mem => all a (List.mem_cons_of_mem _ mem)) (by omega)
    refine ⟨ieReads (subDataOf ie beyond) offset ++ reads, ?_, ?_⟩
    · rw [List.length_cons, walk, if_pos (by omega), ieLen_eq_lengthField beyond split (by omega),
        walked]
      rfl
    · intro i mem
      rcases List.mem_append.mp mem with mem | mem
      · exact ieReads_lt split here i mem
      · exact inside i mem

/-- A walk that ended inside the element went over attributes. The induction is on the
number of iterations: a zero length leaves the offset where it is. -/
theorem tiled_of_walk {fuel : Nat} {reads : List Nat}
    (walked : walk (subDataOf ie beyond) ie.length fuel offset = some reads)
    (inside : ∀ i ∈ reads, i < ie.length) : Tiled (ie.drop offset) := by
  induction fuel generalizing offset reads with
  | zero => cases walked
  | succ fuel ih =>
    rw [walk] at walked
    split at walked
    · next more =>
      obtain ⟨later, walked', rfl⟩ := Option.map_eq_some_iff.mp walked
      have there := ih walked' fun i mem => inside i (List.mem_append_right _ mem)
      set len := ieLen (subDataOf ie beyond) offset with hlen
      rcases Nat.eq_zero_or_pos len with zero | pos
      · rwa [zero, Nat.zero_mul, Nat.add_zero] at there
      · have last : offset + len * 4 - 1 < ie.length := by
          refine inside _ (List.mem_append_left _ ?_)
          simp only [ieReads, ← hlen, List.mem_cons, List.mem_append, List.mem_range'_1]
          omega
        have split : ie.drop offset =
            (ie.drop offset).take (len * 4) ++ ie.drop (offset + len * 4) := by
          rw [← List.drop_drop, List.take_append_drop]
        have size : ((ie.drop offset).take (len * 4)).length = len * 4 := by
          simp only [List.length_take, List.length_drop]
          omega
        have field := ieLen_eq_lengthField beyond split (by omega)
        rw [split]
        exact .cons ⟨by omega, by omega⟩ there
    · next done =>
      refine .short ?_
      simp only [List.length_drop]
      omega

end Walk

/-- The walk of `Decode` ends after finitely many iterations without leaving the element
exactly for elements of fewer than six octets and for those whose octets from offset 8
on are attributes with at most one octet behind them. -/
theorem decodeWalk_safe_iff (ie : List UInt8) (beyond : Nat → UInt8) :
    WalkSafe ie beyond ↔ ie.length < 6 ∨ Tiled (ie.drop 8) := by
  constructor
  · rintro ⟨fuel, reads, walked, inside⟩
    rw [decodeWalk] at walked
    split at walked
    · exact .inr (tiled_of_walk walked inside)
    · next short => exact .inl (by omega)
  · rintro (short | ⟨attrs, rest, split, tail, all⟩)
    · exact ⟨0, [], by rw [decodeWalk, if_neg (by omega)], by simp⟩
    · by_cases long : 8 ≤ ie.length
      · obtain ⟨reads, walked, inside⟩ := walk_of_tiled split tail all long
        exact ⟨_, reads, by rw [decodeWalk, if_pos (by omega), walked], inside⟩
      · refine ⟨1, [], ?_, by simp⟩
        rw [decodeWalk, walk, if_neg (show ¬ 8 + 2 ≤ ie.length by omega)]
        exact ite_self _

/-- An EAP-EDHOC request (type 56) whose fragment has a zero octet at offset 9. -/
def zeroLengthFragment : List UInt8 := [1, 7, 0, 10, 56, 0, 0x5c, 0x11, 0x37, 0]

/-- An attribute of length zero keeps the walk where it is. -/
theorem walk_zeroLengthFragment (beyond : Nat → UInt8) (fuel : Nat) :
    walk (subDataOf zeroLengthFragment beyond) zeroLengthFragment.length fuel 8 = none := by
  induction fuel with
  | zero => rfl
  | succ fuel ih =>
    have stays : ieLen (subDataOf zeroLengthFragment beyond) 8 = 0 := rfl
    rw [walk, if_pos (by decide), stays]
    simpa using ih

/-- The walk never ends on this element, whatever follows it in memory. -/
theorem zeroLengthFragment_unsafe : ¬ WalkSafe zeroLengthFragment fun _ => 0 := by
  rintro ⟨fuel, reads, walked, -⟩
  rw [decodeWalk, if_pos (by decide), walk_zeroLengthFragment] at walked
  cases walked

end EdhocAuth.Eap
