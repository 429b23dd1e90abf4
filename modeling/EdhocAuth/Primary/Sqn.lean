/-
The sequence numbers of the UE: `ue/nas/usim/sqn_mng.cpp`.

A sequence number is SEQ || IND. The manager keeps the last number it has accepted for each IND;
SQN_MS is the highest of them. A number is accepted if its SEQ is above that of its own IND, and
neither below SEQ_MS nor further above it than the wrapping delta. The subtraction in `checkSqn` is
modulo 2^64, which is what refuses the numbers below SEQ_MS (`checkSqn_cases`).
-/

import EdhocAuth.Lib.Block
import EdhocAuth.Lib.Octets
import Mathlib.Data.List.GetD

namespace EdhocAuth.Primary

abbrev U64 : Type := BitVec 64

/-- The members of `SqnManager`. Its constructor throws on any other length of IND. -/
structure SqnManager where
  indBitLen : Nat
  wrappingDelta : U64
  sqnArr : List U64
  bits : 2 ≤ indBitLen ∧ indBitLen ≤ 16
  size : sqnArr.length = 2 ^ indBitLen

namespace SqnManager

def new (indBitLen : Nat) (wrappingDelta : U64) (bits : 2 ≤ indBitLen ∧ indBitLen ≤ 16) :
    SqnManager where
  indBitLen := indBitLen
  wrappingDelta := wrappingDelta
  sqnArr := List.replicate (2 ^ indBitLen) 0
  bits := bits
  size := List.length_replicate

variable (m : SqnManager)

def indMask : U64 := (1#64 <<< m.indBitLen) - 1#64

def getSeqFromSqn (sqn : U64) : U64 :=
  let sqn := sqn &&& ~~~m.indMask
  let sqn := sqn >>> m.indBitLen
  sqn &&& ((1#64 <<< 48) - 1#64)

def getIndFromSqn (sqn : U64) : U64 := sqn &&& m.indMask

/-- `std::max_element` of an array that is not empty: no number is below zero. -/
def maxElement (arr : List U64) : U64 := arr.foldl (fun most x => if most < x then x else most) 0

def getSqnMs : U64 := maxElement m.sqnArr

def getSeqMs : U64 := m.getSeqFromSqn m.getSqnMs

def entry (i : Nat) : U64 := m.sqnArr.getD i 0

def setEntry (i : Nat) (sqn : U64) : SqnManager :=
  { m with
    sqnArr := m.sqnArr.set i sqn
    size := by rw [List.length_set, m.size] }

def checkNumber (sqn : U64) : SqnManager × Bool :=
  let seq := m.getSeqFromSqn sqn
  let ind := m.getIndFromSqn sqn
  if m.wrappingDelta < seq - m.getSeqMs then (m, false)
  else if seq ≤ m.getSeqFromSqn (m.entry ind.toNat) then (m, false)
  else (m.setEntry ind.toNat sqn, true)

def checkSqn (sqn : Block UInt8 6) : SqnManager × Bool :=
  m.checkNumber (BitVec.ofNat 64 (Octets.toNat ([0, 0] ++ sqn.toList)))

def getSqn : Block UInt8 6 := Block.read 0 6 ((Octets.ofNat 8 m.getSqnMs.toNat).drop 2)

end SqnManager

/-- The manager that `Usim::initialize` makes. -/
def usimSqnManager : SqnManager := SqnManager.new 5 (1#64 <<< 28) (by decide)

/-! ### In numbers -/

namespace SqnManager

variable (m : SqnManager)

theorem toNat_mask {k : Nat} (small : k < 64) : ((1#64 <<< k) - 1#64).toNat = 2 ^ k - 1 := by
  have positive : 0 < 2 ^ k := Nat.two_pow_pos k
  have fits : 2 ^ k < 2 ^ 64 := Nat.pow_lt_pow_right (by omega) small
  rw [BitVec.toNat_sub, BitVec.toNat_shiftLeft, BitVec.toNat_ofNat, Nat.shiftLeft_eq]
  simp only [Nat.reducePow, Nat.reduceMod, Nat.one_mul] at fits ⊢
  omega

/-- IND is what is left by a power of two. -/
theorem toNat_getIndFromSqn (sqn : U64) :
    (m.getIndFromSqn sqn).toNat = sqn.toNat % 2 ^ m.indBitLen := by
  have bits := m.bits
  rw [getIndFromSqn, indMask, BitVec.toNat_and, toNat_mask (by omega),
    Nat.and_two_pow_sub_one_eq_mod]

/-- SEQ is the quotient, cut to 48 bits. -/
theorem toNat_getSeqFromSqn (sqn : U64) :
    (m.getSeqFromSqn sqn).toNat = sqn.toNat / 2 ^ m.indBitLen % 2 ^ 48 := by
  have bits := m.bits
  have same : (sqn &&& ~~~m.indMask) >>> m.indBitLen = sqn >>> m.indBitLen := by
    apply BitVec.eq_of_getLsbD_eq
    intro i _
    have outside : m.indMask.getLsbD (m.indBitLen + i) = false := by
      rw [← BitVec.testBit_toNat, indMask, toNat_mask (by omega), Nat.testBit_two_pow_sub_one]
      exact decide_eq_false (by omega)
    rw [BitVec.getLsbD_ushiftRight, BitVec.getLsbD_ushiftRight, BitVec.getLsbD_and,
      BitVec.getLsbD_not, outside, Bool.not_false, Bool.and_true]
    by_cases inside : m.indBitLen + i < 64
    · rw [decide_eq_true inside, Bool.and_true]
    · rw [BitVec.getLsbD_of_ge _ _ (by omega), Bool.false_and]
  have shifted : ((sqn &&& ~~~m.indMask) >>> m.indBitLen).toNat = sqn.toNat / 2 ^ m.indBitLen := by
    rw [same, BitVec.toNat_ushiftRight, Nat.shiftRight_eq_div_pow]
  rw [getSeqFromSqn, BitVec.toNat_and, toNat_mask (by omega), Nat.and_two_pow_sub_one_eq_mod,
    shifted]

/-- The number last accepted for an IND. -/
def last (i : Nat) : Nat := (m.entry i).toNat

/-- SQN_MS -/
def top : Nat := m.getSqnMs.toNat

def seqOf (sqn : Nat) : Nat := sqn / 2 ^ m.indBitLen

def indOf (sqn : Nat) : Nat := sqn % 2 ^ m.indBitLen

/-- The fold finds a largest element. -/
theorem maxElement_spec (arr : List U64) (most : U64) :
    let top := arr.foldl (fun most x => if most < x then x else most) most
    most ≤ top ∧ (∀ x ∈ arr, x ≤ top) ∧ (top = most ∨ top ∈ arr) := by
  induction arr generalizing most with
  | nil => exact ⟨BitVec.le_refl most, fun x mem => absurd mem List.not_mem_nil, .inl rfl⟩
  | cons y arr ih =>
    obtain ⟨above, all, found⟩ := ih (if most < y then y else most)
    have both : most ≤ (if most < y then y else most) ∧ y ≤ (if most < y then y else most) := by
      by_cases less : most < y
      · rw [if_pos less]
        exact ⟨BitVec.le_of_lt less, BitVec.le_refl y⟩
      · rw [if_neg less]
        exact ⟨BitVec.le_refl most, BitVec.not_lt.mp less⟩
    refine ⟨BitVec.le_trans both.1 above, ?_, ?_⟩
    · intro x mem
      rcases List.mem_cons.mp mem with rfl | later
      · exact BitVec.le_trans both.2 above
      · exact all x later
    · rcases found with same | later
      · by_cases less : most < y
        · rw [if_pos less] at same
          right
          rw [List.foldl_cons, if_pos less, same]
          exact List.mem_cons_self
        · rw [if_neg less] at same
          left
          rw [List.foldl_cons, if_neg less, same]
      · right
        exact List.mem_cons_of_mem y later

/-- No stored number is above the highest. -/
theorem last_le_top (i : Nat) : m.last i ≤ m.top := by
  have all := (maxElement_spec m.sqnArr 0).2.1
  by_cases inside : i < m.sqnArr.length
  · rw [last, entry, List.getD_eq_getElem _ _ inside]
    exact all _ (List.getElem_mem inside)
  · rw [last, entry, List.getD_eq_default _ _ (by omega)]
    exact Nat.zero_le _

/-- The highest number is stored for some IND. -/
theorem exists_last_eq_top : ∃ i, m.last i = m.top := by
  rcases (maxElement_spec m.sqnArr 0).2.2 with zero | mem
  · exists m.sqnArr.length
    rw [last, entry, List.getD_eq_default _ _ le_rfl, top, getSqnMs, maxElement, zero]
  · obtain ⟨i, inside, here⟩ := List.mem_iff_getElem.mp mem
    exists i
    rw [last, entry, List.getD_eq_getElem _ _ inside, here]
    rfl

/-- The number that six octets spell. -/
def number (sqn : Block UInt8 6) : Nat := Octets.toNat sqn.toList

theorem number_lt (sqn : Block UInt8 6) : number sqn < 2 ^ 48 := by
  have bound := Octets.toNat_lt sqn.toList
  rw [sqn.toList_length] at bound
  exact lt_of_lt_of_le bound (by decide)

/-- A number has one spelling in six octets. -/
theorem number_inj {a b : Block UInt8 6} (same : number a = number b) : a = b := by
  apply List.Vector.eq
  rw [← Octets.ofNat_toNat a.toList_length, ← Octets.ofNat_toNat b.toList_length]
  exact congrArg (Octets.ofNat 6) same

/-- What holds of the manager of a UE at all times. -/
structure Reached : Prop where
  delta : m.wrappingDelta.toNat < 2 ^ 63
  small : ∀ i, m.last i < 2 ^ 48
  indexed : ∀ i, m.last i = 0 ∨ m.indOf (m.last i) = i

/-- When `checkSqn` accepts a number. -/
def Acceptable (sqn : Nat) : Prop :=
  m.seqOf m.top ≤ m.seqOf sqn ∧ m.seqOf sqn ≤ m.seqOf m.top + m.wrappingDelta.toNat ∧
    m.seqOf (m.last (m.indOf sqn)) < m.seqOf sqn

instance (sqn : Nat) : Decidable (m.Acceptable sqn) :=
  inferInstanceAs (Decidable (_ ∧ _ ∧ _))

/-- Storing for one IND leaves the others alone. -/
theorem last_setEntry (i j : Nat) (sqn : U64) (inside : i < 2 ^ m.indBitLen) :
    (m.setEntry i sqn).last j = if i = j then sqn.toNat else m.last j := by
  have here : i < m.sqnArr.length := by rwa [m.size]
  by_cases same : i = j
  · subst same
    rw [if_pos rfl, last, entry, setEntry, List.getD_eq_getElem _ _ (by rwa [List.length_set]),
      List.getElem_set_self]
  · rw [if_neg same, last, entry, setEntry, List.getD_eq_getElem?_getD,
      List.getElem?_set_ne same, last, entry, List.getD_eq_getElem?_getD]

variable {m}

/-- Stored numbers have 48 bits. -/
theorem Reached.top_lt (reached : m.Reached) : m.top < 2 ^ 48 := by
  obtain ⟨i, here⟩ := m.exists_last_eq_top
  rw [← here]
  exact reached.small i

/-- SQN_MS is the number of its own IND. -/
theorem Reached.last_indOf_top (reached : m.Reached) : m.last (m.indOf m.top) = m.top := by
  obtain ⟨i, here⟩ := m.exists_last_eq_top
  rcases reached.indexed i with zero | same
  · have none : m.top = 0 := here.symm.trans zero
    have below := m.last_le_top (m.indOf m.top)
    omega
  · rw [← here, same]

/-- `get8UL` of two zeros and a number. -/
def widened (sqn : Block UInt8 6) : U64 := BitVec.ofNat 64 (Octets.toNat ([0, 0] ++ sqn.toList))

/-- Widening to 64 bits keeps the number. -/
theorem toNat_widened (sqn : Block UInt8 6) : (widened sqn).toNat = number sqn := by
  have small := number_lt sqn
  have same : Octets.toNat ([0, 0] ++ sqn.toList) = number sqn := rfl
  rw [widened, same, BitVec.toNat_ofNat, Nat.mod_eq_of_lt]
  exact lt_trans small (by decide)

/-- The subtraction of `checkSqn` refuses what is below SEQ_MS, and what is too far above it. -/
theorem delta_lt_sub {a b d : U64} (left : a.toNat < 2 ^ 48) (right : b.toNat < 2 ^ 48)
    (delta : d.toNat < 2 ^ 63) :
    d < a - b ↔ ¬ (b.toNat ≤ a.toNat ∧ a.toNat ≤ b.toNat + d.toNat) := by
  rw [BitVec.lt_def, BitVec.toNat_sub]
  omega

/-- SEQ of a number that has 48 bits. -/
theorem toNat_seq {x : U64} (small : x.toNat < 2 ^ 48) :
    (m.getSeqFromSqn x).toNat = m.seqOf x.toNat := by
  rw [toNat_getSeqFromSqn]
  exact Nat.mod_eq_of_lt (lt_of_le_of_lt (Nat.div_le_self _ _) small)

theorem seqOf_lt {x : Nat} (small : x < 2 ^ 48) : m.seqOf x < 2 ^ 48 :=
  lt_of_le_of_lt (Nat.div_le_self _ _) small

/-- `checkSqn` either changes nothing, or stores a number it accepts. -/
theorem Reached.checkSqn_cases (reached : m.Reached) (sqn : Block UInt8 6) :
    (¬ m.Acceptable (number sqn) ∧ m.checkSqn sqn = (m, false)) ∨
      (m.Acceptable (number sqn) ∧
        m.checkSqn sqn = (m.setEntry (m.indOf (number sqn)) (widened sqn), true)) := by
  have value := toNat_widened sqn
  have small := number_lt sqn
  have seq := toNat_seq (m := m) (by rwa [value])
  have ind := m.toNat_getIndFromSqn (widened sqn)
  have most : m.getSeqMs.toNat = m.seqOf m.top := toNat_seq reached.top_lt
  rw [value] at seq ind
  have below : m.getSeqFromSqn (widened sqn) ≤ m.getSeqFromSqn (m.entry (m.indOf (number sqn))) ↔
      ¬ m.seqOf (m.last (m.indOf (number sqn))) < m.seqOf (number sqn) := by
    rw [BitVec.le_def, seq, toNat_seq (reached.small _), Nat.not_lt]
    rfl
  have window := delta_lt_sub (by rw [seq]; exact seqOf_lt small)
    (by rw [most]; exact seqOf_lt reached.top_lt) reached.delta
  rw [seq, most] at window
  show (_ ∧ m.checkNumber (widened sqn) = _) ∨ (_ ∧ m.checkNumber (widened sqn) = _)
  simp only [checkNumber, ind]
  by_cases inside : m.seqOf m.top ≤ m.seqOf (number sqn) ∧
      m.seqOf (number sqn) ≤ m.seqOf m.top + m.wrappingDelta.toNat
  · rw [if_neg (fun far => window.mp far inside)]
    by_cases above : m.seqOf (m.last (m.indOf (number sqn))) < m.seqOf (number sqn)
    · right
      constructor
      · exact ⟨inside.1, inside.2, above⟩
      · exact if_neg fun le => below.mp le above
    · left
      constructor
      · intro acceptable
        exact above acceptable.2.2
      · exact if_pos (below.mpr above)
  · left
    constructor
    · intro acceptable
      exact inside ⟨acceptable.1, acceptable.2.1⟩
    · exact if_pos (window.mpr inside)

/-- What a manager is after it has accepted a number. -/
structure Advanced (m : SqnManager) (sqn : Nat) (m' : SqnManager) : Prop where
  reached : m'.Reached
  indBitLen : m'.indBitLen = m.indBitLen
  wrappingDelta : m'.wrappingDelta = m.wrappingDelta
  last : ∀ i, m'.last i = if m.indOf sqn = i then sqn else m.last i
  top : m'.top = max m.top sqn

/-- Storing an acceptable number moves its IND and SQN_MS on. -/
theorem Reached.advanced (reached : m.Reached) (sqn : Block UInt8 6)
    (acceptable : m.Acceptable (number sqn)) :
    Advanced m (number sqn) (m.setEntry (m.indOf (number sqn)) (widened sqn)) := by
  have value := toNat_widened sqn
  have inside : m.indOf (number sqn) < 2 ^ m.indBitLen := Nat.mod_lt _ (Nat.two_pow_pos _)
  have stored : ∀ i, (m.setEntry (m.indOf (number sqn)) (widened sqn)).last i =
      if m.indOf (number sqn) = i then number sqn else m.last i := by
    intro i
    rw [last_setEntry m _ i _ inside, value]
  refine ⟨⟨reached.delta, ?_, ?_⟩, rfl, rfl, stored, ?_⟩
  · intro i
    rw [stored i]
    by_cases own : m.indOf (number sqn) = i
    · rw [if_pos own]
      exact number_lt sqn
    · rw [if_neg own]
      exact reached.small i
  · intro i
    rw [stored i]
    by_cases own : m.indOf (number sqn) = i
    · rw [if_pos own]
      exact .inr own
    · rw [if_neg own]
      exact reached.indexed i
  · apply le_antisymm
    · obtain ⟨i, here⟩ :=
        (m.setEntry (m.indOf (number sqn)) (widened sqn)).exists_last_eq_top
      rw [← here, stored i]
      by_cases own : m.indOf (number sqn) = i
      · rw [if_pos own]
        exact le_max_right _ _
      · rw [if_neg own]
        exact le_trans (m.last_le_top i) (le_max_left _ _)
    · apply max_le
      · have most := (m.setEntry (m.indOf (number sqn)) (widened sqn)).last_le_top (m.indOf m.top)
        rw [stored] at most
        by_cases own : m.indOf (number sqn) = m.indOf m.top
        · rw [if_pos own] at most
          have above := acceptable.2.2
          rw [own, reached.last_indOf_top] at above
          exact le_trans (Nat.le_of_lt (Nat.lt_of_div_lt_div above)) most
        · rwa [if_neg own, reached.last_indOf_top] at most
      · have own := (m.setEntry (m.indOf (number sqn)) (widened sqn)).last_le_top
          (m.indOf (number sqn))
        rwa [stored, if_pos rfl] at own

/-- SQN_MS goes into six octets. -/
theorem Reached.number_getSqn (reached : m.Reached) : number m.getSqn = m.top := by
  have small := reached.top_lt
  have wide : Octets.ofNat 8 m.top = [0, 0] ++ Octets.ofNat 6 m.top := by
    have high : m.top / 256 / 256 / 256 / 256 / 256 / 256 = 0 := by omega
    simp only [Octets.ofNat, high, Nat.zero_div, List.nil_append, List.cons_append]
    rfl
  have low : (m.getSqn).toList = Octets.ofNat 6 m.top := by
    show ((Octets.ofNat 8 m.top).drop 2).takeD 6 0 = _
    rw [wide]
    exact List.takeD_left' (Octets.length_ofNat 6 m.top)
  rw [number, low]
  exact Octets.toNat_ofNat (lt_of_lt_of_le small (by decide))

theorem last_new {n : Nat} {delta : U64} {bits : 2 ≤ n ∧ n ≤ 16} (i : Nat) :
    (SqnManager.new n delta bits).last i = 0 := by
  by_cases inside : i < 2 ^ n
  · have entry : (SqnManager.new n delta bits).entry i = 0 := List.getD_replicate _ inside
    rw [last, entry]
    rfl
  · have entry : (SqnManager.new n delta bits).entry i = 0 := by
      apply List.getD_eq_default
      show (List.replicate (2 ^ n) (0 : U64)).length ≤ i
      rw [List.length_replicate]
      omega
    rw [last, entry]
    rfl

/-- A new manager has stored no number. -/
theorem reached_new {n : Nat} (bits : 2 ≤ n ∧ n ≤ 16) {delta : U64} (small : delta.toNat < 2 ^ 63) :
    (SqnManager.new n delta bits).Reached where
  delta := small
  small := by
    intro i
    rw [last_new]
    exact Nat.two_pow_pos 48
  indexed i := .inl (last_new i)

end SqnManager

end EdhocAuth.Primary
