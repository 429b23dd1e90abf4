/-
The digest of the relay is MD5 of RFC 1321, and its keyed digest is HMAC of RFC 2104.

The registers of the source stand still and the arguments of `MD5_STEP` move; `md5Step` moves the
registers instead. `view` is what an operation sees of the registers, and `rows_rfc` compares the
constants of the source with the sine table.
-/

import EdhocAuth.Lib.Rfc1321
import EdhocAuth.Lib.Sine
import EdhocAuth.Upf.Md5
import Mathlib.Logic.Equiv.Fin.Rotate

namespace EdhocAuth.Upf

open Rfc1321 (Word Registers)

/-! ### Words -/

/-- The rotation of the code is that of RFC 1321. -/
theorem md5Rotl_eq (x : Word) {s : Nat} (small : s < 32) (pos : 0 < s) :
    md5Rotl x (UInt32.ofNat s) = Rfc1321.rotate x s := by
  have left : (UInt32.ofNat s).toNat = s := by
    rw [UInt32.toNat_ofNat']
    omega
  have right : (32 - UInt32.ofNat s).toNat = 32 - s := by
    rw [UInt32.toNat_sub_of_le _ _ (UInt32.le_iff_toNat_le.mpr (by rw [left]; exact small.le)),
      left]
    rfl
  apply UInt32.toNat_inj.mp
  rw [md5Rotl, UInt32.toNat_or, UInt32.toNat_shiftLeft, UInt32.toNat_shiftRight, left, right,
    Nat.mod_eq_of_lt small, Nat.mod_eq_of_lt (show 32 - s < 32 by omega)]
  show _ = (x.toBitVec.rotateLeft s).toNat
  rw [BitVec.rotateLeft_def, Nat.mod_eq_of_lt small, BitVec.toNat_or, BitVec.toNat_shiftLeft,
    BitVec.toNat_ushiftRight]
  rfl

/-- Octets at a higher place do not touch the lower ones. -/
theorem lor_place {low b : Nat} (i : Nat) (small : low < 2 ^ i) :
    low ||| b * 2 ^ i = low + b * 2 ^ i := by
  rw [Nat.or_comm, ← Nat.shiftLeft_eq, ← Nat.shiftLeft_add_eq_or_of_lt small, Nat.add_comm]

/-- An octet shifted to its place. -/
theorem toNat_place (b : UInt8) {i : Nat} {n : UInt32} (place : n.toNat = i) (small : i ≤ 24) :
    (b.toUInt32 <<< n).toNat = b.toNat * 2 ^ i := by
  rw [UInt32.toNat_shiftLeft, place, Nat.mod_eq_of_lt (show i < 32 by omega), Nat.shiftLeft_eq,
    UInt8.toNat_toUInt32]
  apply Nat.mod_eq_of_lt
  calc b.toNat * 2 ^ i < 2 ^ 8 * 2 ^ i := Nat.mul_lt_mul_of_pos_right b.toNat_lt (Nat.two_pow_pos i)
    _ ≤ 2 ^ 8 * 2 ^ 24 := Nat.mul_le_mul_left _ (Nat.pow_le_pow_right (by decide) small)

/-- The words of a block are those of RFC 1321. -/
theorem md5Word_eq (block : List UInt8) (k : Nat) :
    md5Word block k = Rfc1321.messageWord block k := by
  rw [md5Word, Rfc1321.messageWord, Rfc1321.word, Nat.mul_comm k 4]
  generalize block.getD (4 * k) 0 = b₀
  generalize block.getD (4 * k + 1) 0 = b₁
  generalize block.getD (4 * k + 2) 0 = b₂
  generalize block.getD (4 * k + 3) 0 = b₃
  have bound₀ := b₀.toNat_lt
  have bound₁ := b₁.toNat_lt
  have bound₂ := b₂.toNat_lt
  have bound₃ := b₃.toNat_lt
  apply UInt32.toNat_inj.mp
  rw [UInt32.toNat_or, UInt32.toNat_or, UInt32.toNat_or, toNat_place b₁ (i := 8) rfl (by decide),
    toNat_place b₂ (i := 16) rfl (by decide), toNat_place b₃ (i := 24) rfl (by decide),
    UInt8.toNat_toUInt32,
    lor_place 8 (by omega), lor_place 16 (by omega), lor_place 24 (by omega), UInt32.toNat_ofNat']
  omega

/-- The octets of a word are those of RFC 1321. -/
theorem md5Le_eq (v : Word) : md5Le v = Rfc1321.octets v := by
  have shift {i : Nat} {n : UInt32} (place : n.toNat = 8 * i) (small : i < 4) :
      (v >>> n).toUInt8 = UInt8.ofNat (v.toNat / 256 ^ i) := by
    apply UInt8.toNat_inj.mp
    rw [UInt32.toNat_toUInt8, UInt32.toNat_shiftRight, place,
      Nat.mod_eq_of_lt (show 8 * i < 32 by omega), Nat.shiftRight_eq_div_pow, Nat.pow_mul,
      UInt8.toNat_ofNat']
  have first : v.toUInt8 = UInt8.ofNat (v.toNat / 256 ^ 0) := by
    apply UInt8.toNat_inj.mp
    rw [UInt32.toNat_toUInt8, Nat.pow_zero, Nat.div_one, UInt8.toNat_ofNat']
  rw [md5Le, first, shift (i := 1) rfl (by decide), shift (i := 2) rfl (by decide),
    shift (i := 3) rfl (by decide)]
  rfl

/-- The low `w` octets of a number keep their octets. -/
theorem octet_mod (n : Nat) {i w : Nat} (inside : i < w) :
    UInt8.ofNat (n % 256 ^ w / 256 ^ i) = UInt8.ofNat (n / 256 ^ i) := by
  obtain ⟨rest, rfl⟩ := Nat.exists_eq_add_of_lt inside
  apply UInt8.toNat_inj.mp
  rw [UInt8.toNat_ofNat', UInt8.toNat_ofNat', Nat.add_assoc, Nat.pow_add,
    Nat.mod_mul_right_div_self,
    Nat.mod_mod_of_dvd _ (Dvd.intro_left (256 ^ rest) (Nat.pow_succ ..).symm)]

/-- The octets of a length, as 64 bits and as two words. -/
theorem md5LenLe_eq (n : Nat) :
    md5LenLe (UInt64.ofNat n) =
      Rfc1321.octets (UInt32.ofNat n) ++ Rfc1321.octets (UInt32.ofNat (n / 2 ^ 32)) := by
  have octet (i : Nat) (small : i < 8) :
      (UInt64.ofNat n >>> UInt64.ofNat (8 * i)).toUInt8 = UInt8.ofNat (n / 256 ^ i) := by
    have place : (UInt64.ofNat (8 * i)).toNat = 8 * i := by
      rw [UInt64.toNat_ofNat']
      omega
    rw [← octet_mod n small]
    apply UInt8.toNat_inj.mp
    rw [UInt64.toNat_toUInt8, UInt64.toNat_shiftRight, place,
      Nat.mod_eq_of_lt (show 8 * i < 64 by omega), Nat.shiftRight_eq_div_pow, Nat.pow_mul,
      UInt8.toNat_ofNat', UInt64.toNat_ofNat']
    rfl
  have low (i : Nat) (small : i < 4) :
      UInt8.ofNat ((UInt32.ofNat n).toNat / 256 ^ i) = UInt8.ofNat (n / 256 ^ i) := by
    rw [← octet_mod n small, UInt32.toNat_ofNat']
    rfl
  have high (i : Nat) (small : i < 4) :
      UInt8.ofNat ((UInt32.ofNat (n / 2 ^ 32)).toNat / 256 ^ i) =
          UInt8.ofNat (n / 256 ^ (4 + i)) := by
    rw [Nat.pow_add, ← Nat.div_div_eq_div_mul, ← octet_mod (n / 256 ^ 4) small, UInt32.toNat_ofNat']
    rfl
  rw [md5LenLe, Rfc1321.octets, Rfc1321.octets,
    List.map_congr_left fun i mem => octet i (List.mem_range.mp mem),
    List.map_congr_left fun i mem => low i (List.mem_range.mp mem),
    List.map_congr_left fun i mem => high i (List.mem_range.mp mem)]
  rfl

/-! ### Padding -/

theorem length_bits (message : List UInt8) :
    (Rfc1321.bits message).length = 8 * message.length := by
  rw [Rfc1321.bits, List.length_flatMap]
  simp [Nat.mul_comm]

/-- The bits of octets spell the octets. -/
theorem ofBits_bits (message : List UInt8) (rest : List Bool) :
    Rfc1321.ofBits (Rfc1321.bits message ++ rest) = message ++ Rfc1321.ofBits rest := by
  have spelt :
      ∀ n < 256, ((List.range 8).map fun i => n.testBit (7 - i)).foldl
      (fun n b => 2 * n + b.toNat) 0 = n := by
    decide +kernel
  induction message with
  | nil => rfl
  | cons b message ih =>
    have octet :
        UInt8.ofNat (((List.range 8).map fun i => b.toNat.testBit (7 - i)).foldl
        (fun n b => 2 * n + b.toNat) 0) = b := by
      rw [spelt b.toNat b.toNat_lt, UInt8.ofNat_toNat]
    rw [List.cons_append, ← ih]
    exact congrArg (· :: Rfc1321.ofBits (Rfc1321.bits message ++ rest)) octet

/-- The number of zero bits, for whole octets. -/
theorem zeroBits_eq (len : Nat) : Rfc1321.zeroBits (8 * len) = 7 + 8 * ((119 - len % 64) % 64) := by
  have enough : (8 * len + 1 + (7 + 8 * ((119 - len % 64) % 64))) % 512 = 448 := by omega
  have least : (8 * len + 1 + Rfc1321.zeroBits (8 * len)) % 512 = 448 :=
    Nat.sInf_mem (s := { k | (8 * len + 1 + k) % 512 = 448 }) ⟨_, enough⟩
  have le : Rfc1321.zeroBits (8 * len) ≤ 7 + 8 * ((119 - len % 64) % 64) := Nat.sInf_le enough
  omega

theorem ofBits_zeros (n : Nat) :
    Rfc1321.ofBits (List.replicate (8 * n) false) = List.replicate n 0 := by
  induction n with
  | zero => rfl
  | succ n ih =>
    rw [Nat.mul_succ, Nat.add_comm, List.replicate_add]
    exact congrArg (0 :: ·) ih

/-- The padding of the code is that of RFC 1321, bit by bit. -/
theorem padded_eq (message : List UInt8) :
    Rfc1321.padded message = message ++ md5Padding message.length := by
  have ones (n : Nat) :
      Rfc1321.ofBits (true :: List.replicate (7 + 8 * n) false) = 0x80 :: List.replicate n 0 := by
    rw [List.replicate_add]
    exact congrArg (0x80 :: ·) (ofBits_zeros n)
  rw [Rfc1321.padded, length_bits, ofBits_bits, zeroBits_eq, ones, List.append_assoc,
    List.append_assoc, ← md5LenLe_eq]
  rfl

/-! ### Rounds -/

/-- The registers in the order of an operation that writes `a`. -/
def view (a : Fin 4) (r : Registers) : Md5State :=
  let next := finRotate 4
  ⟨r a, r (next a), r (next (next a)), r (next (next (next a)))⟩

theorem view_eq (a : Fin 4) (r : Registers) :
    view a r = ⟨r a, r (a + 1), r (a + 2), r (a + 3)⟩ := by
  have two : a + 1 + 1 = a + 2 := by omega
  have three : a + 2 + 1 = a + 3 := by omega
  simp only [view, finRotate_apply, two, three]

/-- A step of the code is an operation of RFC 1321, with the registers turned. -/
theorem md5Step_view (round : Fin 4) (block : List UInt8) (a : Fin 4) (r : Registers) (k i : Nat)
    {s : Nat} (small : s < 32) (pos : 0 < s) :
    md5Step (Rfc1321.auxiliary round) block (view a r) (k, Rfc1321.T i, UInt32.ofNat s) =
      view (a - 1) (Rfc1321.operation round (Rfc1321.messageWord block) a k s i r) := by
  have others (b : Fin 4) (other : b ≠ a) :
      Rfc1321.operation round (Rfc1321.messageWord block) a k s i r b = r b :=
        Function.update_of_ne other _ _
  have written : Rfc1321.operation round (Rfc1321.messageWord block) a k s i r a = _ :=
    Function.update_self ..
  have first : a - 1 = a + 3 := by omega
  have second : a - 1 + 1 = a := by omega
  have third : a - 1 + 2 = a + 1 := by omega
  have fourth : a - 1 + 3 = a + 2 := by omega
  rw [md5Step, view_eq, view_eq, Md5State.mk.injEq]
  refine ⟨?_, ?_, ?_, ?_⟩
  · rw [first, others _ (by omega)]
  · rw [second, written, UInt32.add_comm (r (a + 1)), md5Rotl_eq _ small pos, md5Word_eq]
    simp only [UInt32.add_assoc]
  · rw [third, others _ (by omega)]
  · rw [fourth, others _ (by omega)]

/-- The arguments of a round of the source are those of the round of RFC 1321. -/
def RoundArgs (round : Fin 4) (rows : List (Nat × UInt32 × UInt32)) : Prop :=
  rows = (List.range 16).map fun j =>
    (Rfc1321.wordIndex round j, Rfc1321.T (16 * round + j + 1),
      UInt32.ofNat (Rfc1321.shift round j))

theorem shift_mod (round : Fin 4) (j : Nat) :
    Rfc1321.shift round j = Rfc1321.shift round (j % 4) := by
  simp only [Rfc1321.shift, Nat.mod_mod]

theorem shift_lt (round : Fin 4) (j : Nat) : Rfc1321.shift round j < 32 := by
  have all : ∀ round : Fin 4, ∀ k < 4, Rfc1321.shift round k < 32 := by decide
  rw [shift_mod]
  exact all round _ (Nat.mod_lt j (by decide))

theorem shift_pos (round : Fin 4) (j : Nat) : 0 < Rfc1321.shift round j := by
  have all : ∀ round : Fin 4, ∀ k < 4, 0 < Rfc1321.shift round k := by decide
  rw [shift_mod]
  exact all round _ (Nat.mod_lt j (by decide))

/-- The view moves back by one register with every operation. -/
theorem foldl_operations (round : Fin 4) (block : List UInt8) (r : Registers) (n : Nat) :
    (List.range n).foldl
        (fun s j => md5Step (Rfc1321.auxiliary round) block s
          (Rfc1321.wordIndex round j, Rfc1321.T (16 * round + j + 1),
            UInt32.ofNat (Rfc1321.shift round j)))
        (view 0 r) =
      view (-Fin.ofNat 4 n) ((List.range n).foldl
        (fun r j => Rfc1321.operation round (Rfc1321.messageWord block) (-Fin.ofNat 4 j)
          (Rfc1321.wordIndex round j) (Rfc1321.shift round j) (16 * round + j + 1) r)
        r) := by
  induction n with
  | zero => rfl
  | succ n ih =>
    have next : -Fin.ofNat 4 (n + 1) = -Fin.ofNat 4 n - 1 := by
      rw [← neg_add', neg_inj]
      exact Fin.ext (Nat.add_mod n 1 4)
    rw [List.range_succ, List.foldl_append, List.foldl_append, ih, next]
    exact md5Step_view round block _ _ _ _ (shift_lt round n) (shift_pos round n)

/-- Sixteen steps bring every register back to its place. -/
theorem foldl_view (round : Fin 4) (block : List UInt8) (r : Registers)
    {rows : List (Nat × UInt32 × UInt32)} (args : RoundArgs round rows) :
    rows.foldl (md5Step (Rfc1321.auxiliary round) block) (view 0 r) =
      view 0 (Rfc1321.rounds round (Rfc1321.messageWord block) r) := by
  rw [args, List.foldl_map]
  exact foldl_operations round block r 16

/-- A row of the source has the word, the digits of the sine and the rotation of the operation. -/
def Row (round : Fin 4) (j : Nat) (row : Nat × UInt32 × UInt32) : Prop :=
  row.1 = Rfc1321.wordIndex round j ∧ Sine.Digits (16 * round + j + 1) row.2.1.toNat ∧
    row.2.2 = UInt32.ofNat (Rfc1321.shift round j)

instance (round : Fin 4) (j : Nat) (row : Nat × UInt32 × UInt32) : Decidable (Row round j row) :=
  inferInstanceAs (Decidable (_ ∧ _ ∧ _))

/-- A round has the arguments of RFC 1321 if each of its rows has. -/
theorem roundArgs_of_rows {round : Fin 4} {rows : List (Nat × UInt32 × UInt32)}
    (size : rows.length = 16) (all : ∀ j < 16, Row round j (rows.getD j (0, 0, 0))) :
    RoundArgs round rows := by
  apply List.ext_getElem
  · rw [size, List.length_map, List.length_range]
  · intro j inside _
    have small : j < 16 := size ▸ inside
    obtain ⟨index, digits, shift⟩ := all j small
    rw [List.getD_eq_getElem?_getD, List.getElem?_eq_getElem inside,
      Option.getD_some] at index digits shift
    have table : Rfc1321.T (16 * round + j + 1) = rows[j].2.1 := by
      rw [Rfc1321.T, Sine.floor_abs_sin (by omega) digits, UInt32.ofNat_toNat]
    rw [List.getElem_map, List.getElem_range, table, ← index, ← shift]

theorem md5RoundF_args : RoundArgs 0 md5RoundF := roundArgs_of_rows rfl (by decide +kernel)

theorem md5RoundG_args : RoundArgs 1 md5RoundG := roundArgs_of_rows rfl (by decide +kernel)

theorem md5RoundH_args : RoundArgs 2 md5RoundH := roundArgs_of_rows rfl (by decide +kernel)

theorem md5RoundI_args : RoundArgs 3 md5RoundI := roundArgs_of_rows rfl (by decide +kernel)

/-- The compression functions are the same. -/
theorem md5Transform_view (block : List UInt8) (r : Registers) :
    md5Transform (view 0 r) block = view 0 (Rfc1321.compress (Rfc1321.messageWord block) r) := by
  have F : md5F = Rfc1321.auxiliary 0 := rfl
  have G : md5G = Rfc1321.auxiliary 1 := rfl
  have H : md5H = Rfc1321.auxiliary 2 := rfl
  have I : md5I = Rfc1321.auxiliary 3 := rfl
  rw [md5Transform, F, G, H, I]
  simp only [foldl_view 0 block _ md5RoundF_args, foldl_view 1 block _ md5RoundG_args,
    foldl_view 2 block _ md5RoundH_args, foldl_view 3 block _ md5RoundI_args]
  rfl

/-! ### Blocks -/

theorem wordIndex_lt (round : Fin 4) {j : Nat} (inside : j < 16) :
    Rfc1321.wordIndex round j < 16 := by
  have all : ∀ round : Fin 4, ∀ j < 16, Rfc1321.wordIndex round j < 16 := by decide
  exact all round j inside

/-- The compression reads the sixteen words of a block. -/
theorem compress_congr {X Y : Nat → Word} (same : ∀ k < 16, X k = Y k) (r : Registers) :
    Rfc1321.compress X r = Rfc1321.compress Y r := by
  have rounds (round : Fin 4) (r : Registers) :
      Rfc1321.rounds round X r = Rfc1321.rounds round Y r := by
    apply List.foldl_ext
    intro r j mem
    rw [Rfc1321.operation, same _ (wordIndex_lt round (List.mem_range.mp mem))]
    rfl
  simp only [Rfc1321.compress, rounds]

/-- The words of a block are words of the message. -/
theorem messageWord_block (m : List UInt8) (i : Nat) {k : Nat} (inside : k < 16) :
    Rfc1321.messageWord ((m.drop (64 * i)).take 64) k = Rfc1321.messageWord m (16 * i + k) := by
  have octet {b : Nat} (small : b < 4) :
      ((m.drop (64 * i)).take 64).getD (4 * k + b) 0 = m.getD (4 * (16 * i + k) + b) 0 := by
    rw [List.getD_eq_getElem?_getD, List.getD_eq_getElem?_getD, List.getElem?_take_of_lt (by omega),
      List.getElem?_drop]
    congr 2
    omega
  rw [Rfc1321.messageWord, Rfc1321.messageWord, octet (b := 1) (by decide),
    octet (b := 2) (by decide), octet (b := 3) (by decide)]
  congr 1
  exact octet (b := 0) (by decide)

/-- The blocks are processed as in RFC 1321. -/
theorem absorb_view (m : List UInt8) :
    (Hash.absorb 64 md5Transform md5InitState m).1 = view 0 (Rfc1321.process m) := by
  have blocks (is : List Nat) (r : Registers) :
      is.foldl (fun s i => md5Transform s ((m.drop (64 * i)).take 64)) (view 0 r) =
        view 0 (is.foldl
          (fun r i => Rfc1321.compress (fun j => Rfc1321.messageWord m (16 * i + j)) r) r) := by
    induction is generalizing r with
    | nil => rfl
    | cons i is ih =>
      rw [List.foldl_cons, List.foldl_cons, md5Transform_view,
        compress_congr (fun k inside => messageWord_block m i inside)]
      exact ih _
  have start : md5InitState = view 0 Rfc1321.initial := by decide
  rw [Hash.absorb, Hash.absorbBlocks_eq, start, blocks]
  rfl

/-! ### The digests -/

/-- The MD5 of the code is that of RFC 1321. -/
theorem md5_eq (message : List UInt8) : md5 message = Rfc1321.md5 message := by
  rw [md5, Rfc1321.md5, absorb_view, padded_eq, md5Out, md5Le_eq, md5Le_eq, md5Le_eq, md5Le_eq]
  rfl

/-- The source writes a key over the front of a pad. -/
theorem xorPad_eq {key : List UInt8} (pad : UInt8) (short : key.length ≤ 64) :
    Hash.xorPad 64 pad key =
      List.zipWith (· ^^^ ·) (key ++ List.replicate (64 - key.length) 0x00)
        (List.replicate 64 pad) := by
  have split :
      List.replicate 64 pad =
        List.replicate key.length pad ++ List.replicate (64 - key.length) pad := by
    rw [← List.replicate_add, Nat.add_sub_cancel' short]
  have front (key : List UInt8) :
      List.zipWith (· ^^^ ·) key (List.replicate key.length pad) = key.map (pad ^^^ ·) := by
    induction key with
    | nil => rfl
    | cons b key ih =>
      rw [List.length_cons, List.replicate_succ, List.zipWith_cons_cons, ih, UInt8.xor_comm,
        List.map_cons]
  rw [split, List.zipWith_append (by simp), front, List.zipWith_replicate, Nat.min_self,
    UInt8.zero_xor]
  rfl

/-- The HMAC of the code is that of RFC 2104. -/
theorem hmac_eq (key text : List UInt8) :
    Hash.hmac 64 md5 key text = Rfc2104.hmac Rfc1321.md5 64 key text := by
  have same : md5 = Rfc1321.md5 := funext md5_eq
  have short : (Hash.blockKey 64 md5 key).length ≤ 64 := by
    rw [Hash.blockKey]
    split
    · exact (show 16 ≤ 64 by decide)
    · omega
  rw [Hash.hmac, xorPad_eq _ short, xorPad_eq _ short, same]
  rfl

/-- Feeding a context in parts. -/
theorem Fed.foldl {ctx : Md5Ctx} {message : List UInt8} (fed : Fed ctx message)
    (chunks : List (List UInt8)) :
    Fed (chunks.foldl md5Update ctx) (message ++ chunks.flatten) := by
  induction chunks generalizing ctx message with
  | nil => simpa using fed
  | cons chunk chunks ih =>
    rw [List.foldl_cons, List.flatten_cons, ← List.append_assoc]
    exact ih (fed.update chunk)

/-- The digest of any chunks is MD5 of what they add up to, and the keyed digest is HMAC. -/
theorem digests_rfc :
    (∀ chunks : List (List UInt8), md5Final (chunks.foldl md5Update md5Init) =
      Rfc1321.md5 chunks.flatten) ∧
      ∀ key message : List UInt8, hmacMd5 key message =
        Rfc2104.hmac Rfc1321.md5 64 key message := by
  constructor
  · intro chunks
    have fed := fed_init.foldl chunks
    rw [fed.final, List.nil_append, md5_eq]
  · intro key message
    rw [hmacMd5_eq, hmac_eq]

end EdhocAuth.Upf
