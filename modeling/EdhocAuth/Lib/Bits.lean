/-
Arrays of octets as bit strings, and loops that store at computed places.

`bit` numbers the bits of an array from the highest bit of the first octet, as `toBits` does with
its highest bit, so two arrays are equal if all their bits are (`eq_of_bit`). `scatter` is the loop
`for (i = 0; i < m; i++) dst[pos(i)] = val(i);`.
-/

import EdhocAuth.Lib.Block
import EdhocAuth.Lib.Octets
import Mathlib.Data.List.GetD

namespace Bits

variable {n : Nat}

/-! ### Arrays -/

/-- `b[i]` -/
def load (b : Block UInt8 n) (i : Nat) : UInt8 := b.toList.getD i 0

/-- `b[i] = a;` -/
def store (b : Block UInt8 n) (i : Nat) (a : UInt8) : Block UInt8 n :=
  ⟨b.toList.set i a, by rw [List.length_set, b.toList_length]⟩

/-- `for (i = 0; i < m; i++) dst[pos(i)] = val(i);` -/
def scatter (pos : Nat → Nat) (val : Nat → UInt8) : Nat → Block UInt8 n → Block UInt8 n
  | 0, dst => dst
  | m + 1, dst => store (scatter pos val m dst) (pos m) (val m)

theorem load_store_self (b : Block UInt8 n) {i : Nat} (a : UInt8) (inside : i < n) :
    load (store b i a) i = a := by
  have here : i < b.toList.length := by rwa [b.toList_length]
  show (b.toList.set i a).getD i 0 = a
  rw [List.getD_eq_getElem _ _ (by rwa [List.length_set])]
  exact List.getElem_set_self _

theorem load_store_ne (b : Block UInt8 n) {i j : Nat} (a : UInt8) (other : i ≠ j) :
    load (store b i a) j = load b j := by
  show (b.toList.set i a).getD j 0 = b.toList.getD j 0
  rw [List.getD_eq_getElem?_getD, List.getD_eq_getElem?_getD, List.getElem?_set_ne other]

/-- An array is determined by its octets. -/
theorem eq_of_load {a b : Block UInt8 n} (same : ∀ i < n, load a i = load b i) : a = b := by
  apply List.Vector.eq
  apply List.ext_getElem
  · rw [a.toList_length, b.toList_length]
  · intro i left right
    have here := same i (by rwa [a.toList_length] at left)
    rwa [load, load, List.getD_eq_getElem _ _ left, List.getD_eq_getElem _ _ right] at here

/-- A loop that stores at different places has stored everything. -/
theorem load_scatter (pos : Nat → Nat) (val : Nat → UInt8) {m : Nat} (dst : Block UInt8 n)
    (apart : ∀ i < m, ∀ j < m, pos i = pos j → i = j) (inside : ∀ i < m, pos i < n)
    {i : Nat} (before : i < m) : load (scatter pos val m dst) (pos i) = val i := by
  induction m with
  | zero => exact absurd before (Nat.not_lt_zero i)
  | succ m ih =>
    rw [scatter]
    by_cases last : i = m
    · subst last
      exact load_store_self _ _ (inside i before)
    · have elsewhere : pos m ≠ pos i := by
        intro same
        exact last (apart i before m (Nat.lt_succ_self m) same.symm)
      rw [load_store_ne _ _ elsewhere]
      apply ih
      · intro j jm k km
        exact apart j (by omega) k (by omega)
      · intro j jm
        exact inside j (by omega)
      · omega

/-- A loop over all places leaves nothing of what was there before. -/
theorem load_scatter_id {val : Nat → UInt8} (dst : Block UInt8 n) {i m : Nat} (before : i < m)
    (inside : m ≤ n) : load (scatter id val m dst) i = val i := by
  apply load_scatter id val dst
  · intro j _ k _ same
    exact same
  · intro j jm
    exact lt_of_lt_of_le jm inside
  · exact before

/-! ### Bits -/

/-- The bit at `p`, counted from the highest bit of the first octet. -/
def bit (b : Block UInt8 n) (p : Nat) : Bool := (load b (p / 8)).toNat.testBit (7 - p % 8)

/-- The array as a number in network order. -/
def toBits (b : Block UInt8 n) : BitVec (8 * n) := BitVec.ofNat (8 * n) (Octets.toNat b.toList)

/-- The array that holds a number in network order. -/
def ofBits (v : BitVec (8 * n)) : Block UInt8 n :=
  ⟨Octets.ofNat n v.toNat, Octets.length_ofNat n v.toNat⟩

theorem testBit_octet_eq {a b : UInt8} (same : ∀ m < 8, a.toNat.testBit m = b.toNat.testBit m) :
    a = b := by
  apply UInt8.toNat_inj.mp
  apply Nat.eq_of_testBit_eq
  intro m
  by_cases low : m < 8
  · exact same m low
  · have high : ∀ c : UInt8, c.toNat.testBit m = false := by
      intro c
      apply Nat.testBit_lt_two_pow
      exact lt_of_lt_of_le c.toNat_lt (Nat.pow_le_pow_right (by omega) (by omega))
    rw [high, high]

/-- An array is determined by its bits. -/
theorem eq_of_bit {a b : Block UInt8 n} (same : ∀ p < 8 * n, bit a p = bit b p) : a = b := by
  apply eq_of_load
  intro i inside
  apply testBit_octet_eq
  intro m low
  have here := same (8 * i + (7 - m)) (by omega)
  have octet : (8 * i + (7 - m)) / 8 = i := by omega
  have place : 7 - (8 * i + (7 - m)) % 8 = m := by omega
  rwa [bit, bit, octet, place] at here

/-- Where the bits of an octet string stand in the number it spells. -/
theorem testBit_toNat (octets : List UInt8) {p : Nat} (inside : p < 8 * octets.length) :
    (Octets.toNat octets).testBit (8 * octets.length - 1 - p) =
      (octets.getD (p / 8) 0).toNat.testBit (7 - p % 8) := by
  induction octets using List.reverseRecOn with
  | nil => exact absurd inside (Nat.not_lt_zero p)
  | append_singleton octets b ih =>
    have small : b.toNat < 2 ^ 8 := b.toNat_lt
    rw [List.length_append, List.length_singleton] at inside ⊢
    rw [Octets.toNat_concat, Nat.mul_comm, Nat.testBit_two_pow_mul_add _ small]
    by_cases last : 8 * octets.length ≤ p
    · have here : p / 8 = octets.length := by omega
      have place : 8 * (octets.length + 1) - 1 - p = 7 - p % 8 := by omega
      rw [if_pos (by omega), here, place, List.getD_append_right _ _ _ _ le_rfl, Nat.sub_self,
        List.getD_cons_zero]
    · have place : 8 * (octets.length + 1) - 1 - p - 8 = 8 * octets.length - 1 - p := by omega
      rw [if_neg (by omega), place, ih (by omega), List.getD_append _ _ _ _ (by omega)]

/-- The number of an array has the bits of the array, the highest first. -/
theorem getMsbD_toBits (b : Block UInt8 n) {p : Nat} (inside : p < 8 * n) :
    (toBits b).getMsbD p = bit b p := by
  have size := b.toList_length
  have number := testBit_toNat b.toList (p := p) (by rwa [size])
  rw [size] at number
  rw [BitVec.getMsbD, toBits, BitVec.getLsbD_ofNat, number]
  simp only [inside, decide_true, Bool.true_and, bit, load, Bool.and_eq_right_iff_imp,
    decide_eq_true_eq]
  omega

/-- No octet is lost in the number of an array. -/
theorem ofBits_toBits (b : Block UInt8 n) : ofBits (toBits b) = b := by
  apply List.Vector.eq
  have fits := Octets.toNat_lt b.toList
  have power : (256 : Nat) ^ n = 2 ^ (8 * n) := by rw [Nat.pow_mul]
  rw [b.toList_length, power] at fits
  show Octets.ofNat n (BitVec.ofNat (8 * n) (Octets.toNat b.toList)).toNat = b.toList
  rw [BitVec.toNat_ofNat, Nat.mod_eq_of_lt fits]
  exact Octets.ofNat_toNat b.toList_length

theorem toBits_ofBits (v : BitVec (8 * n)) : toBits (ofBits v) = v := by
  have fits := v.isLt
  have power : (256 : Nat) ^ n = 2 ^ (8 * n) := by rw [Nat.pow_mul]
  show BitVec.ofNat (8 * n) (Octets.toNat (Octets.ofNat n v.toNat)) = v
  rw [Octets.toNat_ofNat (by rwa [power])]
  rw [BitVec.ofNat_toNat, BitVec.setWidth_eq]

theorem bit_ofBits (v : BitVec (8 * n)) {p : Nat} (inside : p < 8 * n) :
    bit (ofBits v) p = v.getMsbD p := by
  rw [← getMsbD_toBits _ inside, toBits_ofBits]

/-! ### Operations on bit strings -/

/-- `a[i] ^ b[i]` for every `i`. -/
def xor (a b : Block UInt8 n) : Block UInt8 n := List.Vector.map₂ (· ^^^ ·) a b

/-- The array whose bits are those of `b`, `r` places further to the left. -/
def rotl (b : Block UInt8 n) (r : Nat) : Block UInt8 n := ofBits ((toBits b).rotateLeft r)

theorem load_xor (a b : Block UInt8 n) {i : Nat} (inside : i < n) :
    load (xor a b) i = load a i ^^^ load b i := by
  have left : i < a.toList.length := by rwa [a.toList_length]
  have right : i < b.toList.length := by rwa [b.toList_length]
  have both : (xor a b).toList = List.zipWith (· ^^^ ·) a.toList b.toList := rfl
  rw [load, load, load, both, List.getD_eq_getElem _ _ left, List.getD_eq_getElem _ _ right,
    List.getD_eq_getElem _ _ (by rw [List.length_zipWith]; omega), List.getElem_zipWith]

theorem xor_comm (a b : Block UInt8 n) : xor a b = xor b a := by
  apply eq_of_load
  intro i inside
  rw [load_xor _ _ inside, load_xor _ _ inside, UInt8.xor_comm]

theorem xor_assoc (a b c : Block UInt8 n) : xor (xor a b) c = xor a (xor b c) := by
  apply eq_of_load
  intro i inside
  rw [load_xor _ _ inside, load_xor _ _ inside, load_xor _ _ inside, load_xor _ _ inside,
    UInt8.xor_assoc]

/-- A mask is taken off by putting it on again. -/
theorem xor_xor (a b : Block UInt8 n) : xor (xor a b) b = a := by
  apply eq_of_load
  intro i inside
  rw [load_xor _ _ inside, load_xor _ _ inside, UInt8.xor_assoc, UInt8.xor_self, UInt8.xor_zero]

/-- A mask tells arrays apart. -/
theorem xor_right_cancel {a b c : Block UInt8 n} (same : xor a c = xor b c) : a = b := by
  rw [← xor_xor a c, same, xor_xor]

/-- A rotation by `r` moves each bit `r` places to the front. -/
theorem bit_rotl (b : Block UInt8 n) (r : Nat) {p : Nat} (inside : p < 8 * n) :
    bit (rotl b r) p = bit b ((r + p) % (8 * n)) := by
  have positive : 0 < 8 * n := by omega
  rw [rotl, bit_ofBits _ inside, BitVec.getMsbD_rotateLeft,
    getMsbD_toBits _ (Nat.mod_lt _ positive)]
  simp only [inside, decide_true, Bool.true_and]

end Bits
