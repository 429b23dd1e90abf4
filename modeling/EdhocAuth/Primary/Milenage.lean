/-
MILENAGE on both sides: `lib/crypt/milenage.c` of the core network, and `ext/crypt-ext/milenage.c`
with `lib/crypt/milenage.cpp` of the UE.

The two files are one text but for the rotations. The UE stores each octet some places further on;
the core calls `ShiftBits`, which rotates by any number of bits. `Rotations` is what the text leaves
open. Every function is shown to compute what TS 35.206 asks for with the constants that the
comments of `milenage.c` name, so the two sides agree for every block cipher. AES-128 is a
parameter: key and input. An array that C leaves uninitialised holds zeros here; no result depends
on it.
-/

import EdhocAuth.Lib.Bits

namespace EdhocAuth.Primary

open Bits

/-- `aes_128_encrypt_block`: key and input. -/
abbrev Cipher : Type := Block UInt8 16 → Block UInt8 16 → Block UInt8 16

/-! ### Rotating while storing -/

/-- What an assignment to an octet keeps of a number. -/
def narrow (v : Nat) : UInt8 := UInt8.ofNat v

/-- `for (i = 0; i < 16; i++) dst[(i + o) % 16] = src[i] ^ opc[i];` -/
def storeRotated (o : Nat) (dst src opc : Block UInt8 16) : Block UInt8 16 :=
  scatter (fun i => (i + o) % 2 ^ 32 % 16) (fun i => load src i ^^^ load opc i) 16 dst

/-- `bits_shift`: the new content of `dst`. -/
def bitsShift (bitValid : Nat) (dst src : Block UInt8 16) (numBits : Nat) : Block UInt8 16 :=
  let bitUsed := bitValid
  let bitEmpty := 8 - bitUsed
  let numBytes := numBits >>> 3
  let leftBits := numBits &&& 0x7
  let both := fun i =>
    narrow (((load src i).toNat <<< bitEmpty) ||| ((load src (i + 1)).toNat >>> bitUsed))
  let dst := scatter id both numBytes dst
  if leftBits ≠ 0 then
    if leftBits = bitUsed then
      store dst numBytes (narrow ((load src numBytes).toNat <<< bitEmpty))
    else if leftBits < bitUsed then
      store dst numBytes (narrow ((load src numBytes).toNat <<< bitEmpty))
    else store dst numBytes (both numBytes)
  else dst

def shiftBits (r : UInt8) (rijndaelInput temp opc : Block UInt8 16) : Block UInt8 16 :=
  let deltlen := (2 ^ 32 + 16 - r.toNat / 8) % 2 ^ 32
  let leftout := r.toNat % 8
  if leftout = 0 then storeRotated deltlen rijndaelInput temp opc
  else
    let temp1 := storeRotated deltlen (Block.fill 16 0) temp opc
    let rijndaelInput := store rijndaelInput 15 0
    let moveBits := 8 - leftout
    let rijndaelInput := bitsShift moveBits rijndaelInput temp1 (128 - leftout)
    let temp2 := narrow ((load temp1 0).toNat >>> (8 - leftout))
    store rijndaelInput 15 (load rijndaelInput 15 ||| temp2)

/-! ### The common text -/

/-- How an implementation writes `rot(src XOR OP_C, r)` to `dst`, for r1 to r5. -/
structure Rotations where
  r1 : Block UInt8 16 → Block UInt8 16 → Block UInt8 16 → Block UInt8 16
  r2 : Block UInt8 16 → Block UInt8 16 → Block UInt8 16 → Block UInt8 16
  r3 : Block UInt8 16 → Block UInt8 16 → Block UInt8 16 → Block UInt8 16
  r4 : Block UInt8 16 → Block UInt8 16 → Block UInt8 16 → Block UInt8 16
  r5 : Block UInt8 16 → Block UInt8 16 → Block UInt8 16 → Block UInt8 16

def storeXor (dst a b : Block UInt8 16) : Block UInt8 16 :=
  scatter id (fun i => load a i ^^^ load b i) 16 dst

def xorLast (tmp : Block UInt8 16) (c : UInt8) : Block UInt8 16 :=
  store tmp 15 (load tmp 15 ^^^ c)

def copy (len : Nat) (src : Block UInt8 16) (pos : Nat) : Block UInt8 len :=
  Block.read 0 len (src.toList.drop pos)

def in1 (sqn : Block UInt8 6) (amf : Block UInt8 2) : Block UInt8 16 :=
  let half : Block UInt8 8 := sqn.cat amf
  half.cat half

structure F2345 where
  res : Block UInt8 8
  ck : Block UInt8 16
  ik : Block UInt8 16
  ak : Block UInt8 6
  akstar : Block UInt8 6
deriving DecidableEq

section Text

variable (aes : Cipher) (rot : Rotations) (opc k rand : Block UInt8 16)

/-- `milenage_f1`: MAC-A and MAC-S. -/
def milenageF1 (sqn : Block UInt8 6) (amf : Block UInt8 2) : Block UInt8 8 × Block UInt8 8 :=
  let tmp1 := storeXor (Block.fill 16 0) rand opc
  let tmp1 := aes k tmp1
  let tmp2 := in1 sqn amf
  let tmp3 := rot.r1 (Block.fill 16 0) tmp2 opc
  let tmp3 := storeXor tmp3 tmp3 tmp1
  let tmp1 := aes k tmp3
  let tmp1 := storeXor tmp1 tmp1 opc
  (copy 8 tmp1 0, copy 8 tmp1 8)

def milenageF2345 : F2345 :=
  let tmp1 := storeXor (Block.fill 16 0) rand opc
  let tmp2 := aes k tmp1
  let tmp1 := rot.r2 tmp1 tmp2 opc
  let tmp1 := xorLast tmp1 1
  let tmp3 := aes k tmp1
  let tmp3 := storeXor tmp3 tmp3 opc
  let res := copy 8 tmp3 8
  let ak := copy 6 tmp3 0
  let tmp1 := rot.r3 tmp1 tmp2 opc
  let tmp1 := xorLast tmp1 2
  let ck := aes k tmp1
  let ck := storeXor ck ck opc
  let tmp1 := rot.r4 tmp1 tmp2 opc
  let tmp1 := xorLast tmp1 4
  let ik := aes k tmp1
  let ik := storeXor ik ik opc
  let tmp1 := rot.r5 tmp1 tmp2 opc
  let tmp1 := xorLast tmp1 8
  let tmp1 := aes k tmp1
  let akstar := Bits.xor (copy 6 tmp1 0) (copy 6 opc 0)
  { res := res, ck := ck, ik := ik, ak := ak, akstar := akstar }

def milenageOpc (op : Block UInt8 16) : Block UInt8 16 :=
  let opc := aes k op
  storeXor opc opc op

end Text

def ueRotations : Rotations where
  r1 := storeRotated 8
  r2 := storeRotated 0
  r3 := storeRotated 12
  r4 := storeRotated 8
  r5 := storeRotated 4

def coreRotations : Rotations where
  r1 := shiftBits 64
  r2 := shiftBits 0
  r3 := shiftBits 32
  r4 := shiftBits 64
  r5 := shiftBits 96

/-! ### What TS 35.206 asks for -/

namespace Spec

/-- The constant that ends in `c`. -/
def constant (c : UInt8) : Block UInt8 16 := ⟨List.replicate 15 0 ++ [c], rfl⟩

variable (e : Block UInt8 16 → Block UInt8 16) (opc rand : Block UInt8 16)

/-- TEMP = E_K(RAND XOR OP_C) -/
def temp : Block UInt8 16 := e (Bits.xor rand opc)

/-- OUT1 = E_K(TEMP XOR rot(IN1 XOR OP_C, r1) XOR c1) XOR OP_C -/
def out1 (input : Block UInt8 16) : Block UInt8 16 :=
  Bits.xor (e (Bits.xor (rotl (Bits.xor input opc) 64) (temp e opc rand))) opc

/-- OUTi = E_K(rot(TEMP XOR OP_C, ri) XOR ci) XOR OP_C, for i from 2 to 5. -/
def out (r : Nat) (c : UInt8) : Block UInt8 16 :=
  Bits.xor (e (Bits.xor (rotl (Bits.xor (temp e opc rand) opc) r) (constant c))) opc

def f1 (sqn : Block UInt8 6) (amf : Block UInt8 2) : Block UInt8 8 × Block UInt8 8 :=
  (copy 8 (out1 e opc rand (in1 sqn amf)) 0, copy 8 (out1 e opc rand (in1 sqn amf)) 8)

def f2345 : F2345 where
  res := copy 8 (out e opc rand 0 1) 8
  ck := out e opc rand 32 2
  ik := out e opc rand 64 4
  ak := copy 6 (out e opc rand 0 1) 0
  akstar := copy 6 (out e opc rand 96 8) 0

end Spec

/-! ### The loops -/

/-- The loop of the UE rotates to the left. -/
theorem load_storeRotated {o q : Nat} (dst src opc : Block UInt8 16)
    (turn : (o + q) % 16 = 0) {i : Nat} (inside : i < 16) :
    load (storeRotated o dst src opc) i = load (Bits.xor src opc) ((q + i) % 16) := by
  have place : ((q + i) % 16 + o) % 2 ^ 32 % 16 = i := by omega
  have source : (q + i) % 16 < 16 := Nat.mod_lt _ (by omega)
  have stored := load_scatter (n := 16) (m := 16) (fun i => (i + o) % 2 ^ 32 % 16)
    (fun i => load src i ^^^ load opc i) dst (by intro a ha b hb same; omega)
    (by intro a _; omega) source
  rw [place] at stored
  rw [storeRotated, stored, load_xor _ _ source]

/-- A `uint8_t` keeps the low bits. -/
theorem testBit_narrow (v : Nat) {m : Nat} (low : m < 8) :
    (narrow v).toNat.testBit m = v.testBit m := by
  rw [narrow, UInt8.toNat_ofNat', Nat.testBit_mod_two_pow, decide_eq_true low, Bool.true_and]

/-- Eight bits that start `l` bits behind the start of the first octet. -/
theorem testBit_window (a b : UInt8) {l m : Nat} (part : l < 8) (low : m < 8) :
    (narrow ((a.toNat <<< l) ||| (b.toNat >>> (8 - l)))).toNat.testBit (7 - m) =
      if m + l < 8 then a.toNat.testBit (7 - (m + l)) else b.toNat.testBit (7 - (m + l - 8)) := by
  rw [testBit_narrow _ (by omega), Nat.testBit_or, Nat.testBit_shiftLeft, Nat.testBit_shiftRight]
  by_cases first : m + l < 8
  · have behind : b.toNat.testBit (8 - l + (7 - m)) = false := by
      apply Nat.testBit_lt_two_pow
      exact lt_of_lt_of_le b.toNat_lt (Nat.pow_le_pow_right (by omega) (by omega))
    have inside : l ≤ 7 - m := by omega
    have place : 7 - m - l = 7 - (m + l) := by omega
    rw [behind, Bool.or_false, decide_eq_true inside, Bool.true_and, place, if_pos first]
  · have outside : ¬ l ≤ 7 - m := by omega
    have place : 8 - l + (7 - m) = 7 - (m + l - 8) := by omega
    rw [decide_eq_false outside, Bool.false_and, Bool.false_or, place, if_neg first]

theorem narrow_or (v w : Nat) : narrow v ||| narrow w = narrow (v ||| w) := by
  rw [narrow, narrow, narrow, UInt8.ofNat_or]

/-- What `bits_shift` leaves in each octet, for a part of an octet. -/
theorem load_bitsShift {l : Nat} (part : l < 8) (some : l ≠ 0) (dst src : Block UInt8 16) {i : Nat}
    (inside : i < 16) :
    load (bitsShift (8 - l) dst src (128 - l)) i =
      if i = 15 then narrow ((load src 15).toNat <<< l)
      else narrow (((load src i).toNat <<< l) ||| ((load src (i + 1)).toNat >>> (8 - l))) := by
  have empty : 8 - (8 - l) = l := by omega
  have bytes : (128 - l) >>> 3 = 15 := by
    rw [Nat.shiftRight_eq_div_pow]
    omega
  have left : (128 - l) &&& 0x7 = 8 - l := by
    rw [show (0x7 : Nat) = 2 ^ 3 - 1 from rfl, Nat.and_two_pow_sub_one_eq_mod]
    omega
  simp only [bitsShift, empty, bytes, left]
  rw [if_pos (show 8 - l ≠ 0 by omega), if_pos trivial]
  by_cases last : i = 15
  · subst last
    rw [if_pos rfl, load_store_self _ _ inside]
  · rw [if_neg last, load_store_ne _ _ (Ne.symm last)]
    exact load_scatter_id dst (m := 15) (by omega) (by omega)

/-- The octets that `ShiftBits` leaves when it has to shift within octets. -/
theorem load_shiftBits {r : UInt8} (part : r.toNat % 8 ≠ 0) (old temp opc : Block UInt8 16)
    {i : Nat} (inside : i < 16) :
    load (shiftBits r old temp opc) i =
      narrow (((load (Bits.xor temp opc) ((r.toNat / 8 + i) % 16)).toNat <<< (r.toNat % 8)) |||
        ((load (Bits.xor temp opc) ((r.toNat / 8 + (i + 1)) % 16)).toNat >>>
          (8 - r.toNat % 8))) := by
  have small : r.toNat < 256 := r.toNat_lt
  have turn : ((2 ^ 32 + 16 - r.toNat / 8) % 2 ^ 32 + r.toNat / 8) % 16 = 0 := by omega
  have low : r.toNat % 8 < 8 := Nat.mod_lt _ (by omega)
  have rotated := fun (j : Nat) (before : j < 16) =>
    load_storeRotated (Block.fill 16 0) temp opc turn before
  simp only [shiftBits]
  rw [if_neg part]
  by_cases last : i = 15
  · subst last
    have around : (r.toNat / 8 + 15 + 1) % 16 = (r.toNat / 8 + 0) % 16 := by omega
    rw [load_store_self _ _ inside, load_bitsShift low part _ _ inside, if_pos rfl, narrow_or,
      rotated 15 inside, rotated 0 (by omega), ← Nat.add_assoc, around]
  · rw [load_store_ne _ _ (Ne.symm last), load_bitsShift low part _ _ inside, if_neg last,
      rotated i inside, rotated (i + 1) (by omega)]

/-- `ShiftBits` rotates by any number of bits, also behind the length of the array. -/
theorem shiftBits_eq (r : UInt8) (old temp opc : Block UInt8 16) :
    shiftBits r old temp opc = rotl (Bits.xor temp opc) r.toNat := by
  have small : r.toNat < 256 := r.toNat_lt
  apply eq_of_bit
  intro p inside
  rw [bit_rotl _ _ inside, bit, bit]
  by_cases whole : r.toNat % 8 = 0
  · have turn : ((2 ^ 32 + 16 - r.toNat / 8) % 2 ^ 32 + r.toNat / 8) % 16 = 0 := by omega
    have octets : (r.toNat + p) % (8 * 16) / 8 = (r.toNat / 8 + p / 8) % 16 := by omega
    have places : (r.toNat + p) % (8 * 16) % 8 = p % 8 := by omega
    simp only [shiftBits]
    rw [if_pos whole, load_storeRotated _ _ _ turn (by omega), octets, places]
  · rw [load_shiftBits whole _ _ _ (by omega),
      testBit_window _ _ (Nat.mod_lt _ (by omega)) (Nat.mod_lt _ (by omega))]
    by_cases first : p % 8 + r.toNat % 8 < 8
    · have octets : (r.toNat + p) % (8 * 16) / 8 = (r.toNat / 8 + p / 8) % 16 := by omega
      have places : (r.toNat + p) % (8 * 16) % 8 = p % 8 + r.toNat % 8 := by omega
      rw [if_pos first, octets, places]
    · have octets : (r.toNat + p) % (8 * 16) / 8 = (r.toNat / 8 + (p / 8 + 1)) % 16 := by omega
      have places : (r.toNat + p) % (8 * 16) % 8 = p % 8 + r.toNat % 8 - 8 := by omega
      rw [if_neg first, octets, places]

/-- Storing octets further on is a rotation by whole octets. -/
theorem storeRotated_eq {o q : Nat} (turn : o + q = 16 ∨ o + q = 0) (dst src opc : Block UInt8 16) :
    storeRotated o dst src opc = rotl (Bits.xor src opc) (8 * q) := by
  apply eq_of_bit
  intro p inside
  have octets : (8 * q + p) % (8 * 16) / 8 = (q + p / 8) % 16 := by omega
  have places : (8 * q + p) % (8 * 16) % 8 = p % 8 := by omega
  rw [bit_rotl _ _ inside, bit, bit, load_storeRotated (q := q) _ _ _ (by omega) (by omega), octets,
    places]

theorem storeXor_eq (dst a b : Block UInt8 16) : storeXor dst a b = Bits.xor a b := by
  apply eq_of_load
  intro i inside
  rw [load_xor _ _ inside]
  exact load_scatter_id dst inside le_rfl

/-- The constants of MILENAGE differ from zero in the last octet. -/
theorem xorLast_eq (tmp : Block UInt8 16) (c : UInt8) :
    xorLast tmp c = Bits.xor tmp (Spec.constant c) := by
  apply eq_of_load
  intro i inside
  rw [load_xor _ _ inside, xorLast]
  by_cases last : i = 15
  · subst last
    rw [load_store_self _ _ inside]
    rfl
  · have front : load (Spec.constant c) i = 0 := by
      show (List.replicate 15 0 ++ [c]).getD i 0 = 0
      rw [List.getD_append _ _ _ _ (by rw [List.length_replicate]; omega)]
      exact List.getD_replicate _ (by omega)
    rw [load_store_ne _ _ (Ne.symm last), front, UInt8.xor_zero]

theorem load_copy {len pos : Nat} (src : Block UInt8 16) (room : pos + len ≤ 16) {i : Nat}
    (inside : i < len) : load (copy len src pos) i = load src (pos + i) := by
  have enough : len ≤ (src.toList.drop pos).length := by
    rw [List.length_drop, src.toList_length]
    omega
  have taken : (copy len src pos).toList = (src.toList.drop pos).take len :=
    List.takeD_eq_take _ enough
  rw [load, load, taken, List.getD_eq_getElem?_getD, List.getD_eq_getElem?_getD,
    List.getElem?_take_of_lt inside, List.getElem?_drop]

theorem copy_xor {len pos : Nat} (a b : Block UInt8 16) (room : pos + len ≤ 16) :
    Bits.xor (copy len a pos) (copy len b pos) = copy len (Bits.xor a b) pos := by
  apply eq_of_load
  intro i inside
  rw [load_xor _ _ inside, load_copy _ room inside, load_copy _ room inside,
    load_copy _ room inside, load_xor _ _ (by omega)]

/-! ### Both texts compute MILENAGE -/

/-- The rotations of TS 35.206 with r1 = 64, r2 = 0, r3 = 32, r4 = 64 and r5 = 96. -/
structure Rotations.Correct (rot : Rotations) : Prop where
  r1 : ∀ dst src opc, rot.r1 dst src opc = rotl (Bits.xor src opc) 64
  r2 : ∀ dst src opc, rot.r2 dst src opc = rotl (Bits.xor src opc) 0
  r3 : ∀ dst src opc, rot.r3 dst src opc = rotl (Bits.xor src opc) 32
  r4 : ∀ dst src opc, rot.r4 dst src opc = rotl (Bits.xor src opc) 64
  r5 : ∀ dst src opc, rot.r5 dst src opc = rotl (Bits.xor src opc) 96

/-- The rotations of the UE are those of TS 35.206. -/
theorem ueRotations_correct : ueRotations.Correct where
  r1 := storeRotated_eq (q := 8) (.inl rfl)
  r2 := storeRotated_eq (q := 0) (.inr rfl)
  r3 := storeRotated_eq (q := 4) (.inl rfl)
  r4 := storeRotated_eq (q := 8) (.inl rfl)
  r5 := storeRotated_eq (q := 12) (.inl rfl)

/-- The rotations of the core are those of TS 35.206. -/
theorem coreRotations_correct : coreRotations.Correct where
  r1 := shiftBits_eq 64
  r2 := shiftBits_eq 0
  r3 := shiftBits_eq 32
  r4 := shiftBits_eq 64
  r5 := shiftBits_eq 96

section Correct

variable {rot : Rotations} (aes : Cipher) (opc k rand : Block UInt8 16)

/-- With the right rotations, f1 and f1* are computed. -/
theorem Rotations.Correct.f1 (correct : rot.Correct) (sqn : Block UInt8 6) (amf : Block UInt8 2) :
    milenageF1 aes rot opc k rand sqn amf = Spec.f1 (aes k) opc rand sqn amf := by
  simp only [milenageF1, storeXor_eq, correct.r1, Spec.f1, Spec.out1, Spec.temp]

/-- With the right rotations, f2 to f5 and f5* are computed. -/
theorem Rotations.Correct.f2345 (correct : rot.Correct) :
    milenageF2345 aes rot opc k rand = Spec.f2345 (aes k) opc rand := by
  have wide : 0 + 6 ≤ 16 := by omega
  simp only [milenageF2345, storeXor_eq, xorLast_eq, correct.r2, correct.r3, correct.r4, correct.r5,
    copy_xor _ _ wide, Spec.f2345, Spec.out, Spec.temp]

/-- The UE and the core network compute the same functions, those of TS 35.206, whatever the block
cipher is; and `ShiftBits` is right for every rotation, not only for those of MILENAGE. -/
theorem milenage_agree (sqn : Block UInt8 6) (amf : Block UInt8 2) :
    milenageF1 aes ueRotations opc k rand sqn amf = Spec.f1 (aes k) opc rand sqn amf ∧
      milenageF1 aes coreRotations opc k rand sqn amf = Spec.f1 (aes k) opc rand sqn amf ∧
      milenageF2345 aes ueRotations opc k rand = Spec.f2345 (aes k) opc rand ∧
      milenageF2345 aes coreRotations opc k rand = Spec.f2345 (aes k) opc rand ∧
      ∀ (r : UInt8) (old temp opc : Block UInt8 16),
        shiftBits r old temp opc = rotl (Bits.xor temp opc) r.toNat :=
  ⟨ueRotations_correct.f1 aes opc k rand sqn amf, coreRotations_correct.f1 aes opc k rand sqn amf,
    ueRotations_correct.f2345 aes opc k rand, coreRotations_correct.f2345 aes opc k rand,
    shiftBits_eq⟩

end Correct

end EdhocAuth.Primary
