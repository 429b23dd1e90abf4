/-
The key derivation functions of EAP-AKA' on both sides: `lib/crypt/ogs-kdf.c` of the core
network, and `ue/nas/keys.cpp` with `lib/crypt/crypt.cpp` of the UE.

HMAC-SHA256 is a parameter. Octet strings of the UE are lists; what a function of the core
writes through a pointer is the new content of that buffer. A function that would write
behind a buffer of its own is `undefined`.

PRF' is written three times: `ogs_kdf_prf_prime` keeps the last block only,
`ogs_calculate_prf_prime` fills an array of blocks and copies what fits, and
`crypto::CalculatePrfPrime` returns whole blocks. Each is shown to be a part of
`Prf.expand`.
-/

import EdhocAuth.Eap.Fragment
import EdhocAuth.Lib.Octets
import EdhocAuth.Lib.Prf

namespace EdhocAuth.Aka

open Octets Eap

/-- HMAC-SHA256: key and message. -/
abbrev Hmac : Type := List UInt8 → List UInt8 → Block UInt8 32

/-- `"EAP-AKA'"` -/
def label : List UInt8 := [0x45, 0x41, 0x50, 0x2d, 0x41, 0x4b, 0x41, 0x27]

def labelFs : List UInt8 := label ++ [0x20, 0x46, 0x53]

/-! ### The core network -/

inductive KdfError where
  | ogsError
  | undefined
deriving DecidableEq

abbrev mkLen : Nat := 208

section Core

variable (hmac : Hmac)

def ogsKdfCkprimeIkprime (ck ik : Block UInt8 16) (snn : CString) (sqnXorAk : Block UInt8 6) :
    Except KdfError (Block UInt8 16 × Block UInt8 16) :=
  let input := [0x20] ++ snn.octets ++ Octets.ofNat 2 snn.strlen ++ sqnXorAk.toList ++ [0x00, 0x06]
  if 1024 < input.length then .error .undefined
  else
    let output : Block UInt8 (16 + 16) := hmac (ck.toList ++ ik.toList) input
    .ok (output.fst, output.snd)

structure PrfLoop where
  tPrev : List UInt8
  offset : Nat
  round : UInt8
  mkOut : List UInt8

def PrfLoop.step (key input : List UInt8) (s : PrfLoop) : PrfLoop :=
  let buf := if s.round = 1 then input ++ [s.round] else s.tPrev ++ input ++ [s.round]
  let t := (hmac key buf).toList
  let copyLen := if 32 < mkLen - s.offset then 32 else mkLen - s.offset
  { tPrev := t
    offset := s.offset + copyLen
    round := s.round + 1
    mkOut := memcpyAt s.mkOut s.offset (t.take copyLen) }

/-- `while (offset < MK_LEN)`, for at most `fuel` iterations. -/
def PrfLoop.run (key input : List UInt8) : Nat → PrfLoop → PrfLoop
  | 0, s => s
  | fuel + 1, s => if s.offset < mkLen then run key input fuel (s.step hmac key input) else s

def ogsKdfPrfPrime (ikPrime ckPrime : Block UInt8 16) (identity mkOut : List UInt8) : List UInt8 :=
  (PrfLoop.run hmac (ikPrime.toList ++ ckPrime.toList) (label ++ identity) mkLen
    ⟨List.replicate 32 0, 0, 1, mkOut⟩).mkOut

/-- `buf` in round `i` of `ogs_calculate_prf_prime`, which has 4096 octets. -/
def ogsPrfBuf (input : List UInt8) (T : List (List UInt8)) (i : Nat) :
    Except KdfError (List UInt8) :=
  let buf := (if i = 0 then input else T.getD (i - 1) [] ++ input) ++ [UInt8.ofNat (i + 1)]
  if 4096 < buf.length then .error .undefined else .ok buf

/-- The first loop of `ogs_calculate_prf_prime`: `T` after some rounds. -/
def ogsPrfRounds (key input : List UInt8) : Nat → Except KdfError (List (List UInt8))
  | 0 => .ok []
  | i + 1 => do
    let T ← ogsPrfRounds key input i
    let buf ← ogsPrfBuf input T i
    return T ++ [(hmac key buf).toList]

/-- The body of the second loop: `output` and `out_pos`. -/
def ogsPrfCopy (outputLen : Int) (s : List UInt8 × Nat) (t : List UInt8) :
    Except KdfError (List UInt8 × Nat) :=
  let copyLen : Int := if outputLen < s.2 + 32 then outputLen - s.2 else 32
  if copyLen < 0 then .error .undefined
  else .ok (memcpyAt s.1 s.2 (t.take copyLen.toNat), s.2 + copyLen.toNat)

def ogsCalculatePrfPrime (key input : List UInt8) (outputLen : Int) (output : List UInt8) :
    Except KdfError (List UInt8) :=
  if key.length ≠ 32 ∧ key.length ≠ 64 then .error .ogsError
  else
    let round := outputLen.tdiv 32 + 1
    if round ≤ 0 ∨ 254 < round then .error .ogsError
    else do
      let T ← ogsPrfRounds hmac key input round.toNat
      let copied ← T.foldlM (ogsPrfCopy outputLen) (output, 0)
      return copied.1

def ogsPrfKeyFs (ikPrime ckPrime : Block UInt8 16) (sharedSecret : List UInt8) : List UInt8 :=
  ikPrime.toList ++ ckPrime.toList ++ sharedSecret.take 32

def ogsKdfPrfPrimeFs (ikPrime ckPrime : Block UInt8 16) (sharedSecret identity mkOut : List UInt8) :
    Except KdfError (List UInt8) :=
  ogsCalculatePrfPrime hmac (ogsPrfKeyFs ikPrime ckPrime sharedSecret)
    (labelFs ++ identity) mkLen mkOut

end Core

/-! ### The UE -/

section Ue

variable (hmac : Hmac)

def calculateKdfKey (key : List UInt8) (fc : UInt8) (parameters : List (List UInt8)) : List UInt8 :=
  (hmac key ([fc] ++ parameters.flatMap fun p => p ++ Octets.ofNat 2 p.length)).toList

def calculateCkPrimeIkPrime (ck ik snn sqnXorAk : List UInt8) : List UInt8 × List UInt8 :=
  let res := calculateKdfKey hmac (ck ++ ik) 0x20 [snn, sqnXorAk]
  (field res 0 ck.length, field res ck.length (res.length - ck.length))

/-- `T` of `crypto::CalculatePrfPrime` after some rounds. -/
def prfRounds (key input : List UInt8) : Nat → List (List UInt8)
  | 0 => []
  | i + 1 =>
    let T := prfRounds key input i
    let s :=
      if i = 0 then input ++ [UInt8.ofNat (i + 1)]
      else T.getD (i - 1) [] ++ input ++ [UInt8.ofNat (i + 1)]
    T ++ [(hmac key s).toList]

/-- `crypto::CalculatePrfPrime`; `none` is an exception. -/
def calculatePrfPrime (key input : List UInt8) (outputLength : Int) : Option (List UInt8) :=
  if key.length ≠ 32 ∧ key.length ≠ 64 then none
  else
    let round := outputLength.tdiv 32 + 1
    if round ≤ 0 ∨ 254 < round then none
    else some (prfRounds hmac key input round.toNat).flatten

def calculateMk (ckPrime ikPrime supiValue : List UInt8) : Option (List UInt8) :=
  calculatePrfPrime hmac (ikPrime ++ ckPrime) (label ++ supiValue) 208

def prfKeyFs (ikPrime ckPrime sharedSecret : List UInt8) : List UInt8 :=
  ikPrime ++ ckPrime ++ field sharedSecret 0 32

def calculateMkFs (ikPrime ckPrime sharedSecret supiValue : List UInt8) : Option (List UInt8) :=
  calculatePrfPrime hmac (prfKeyFs ikPrime ckPrime sharedSecret) (labelFs ++ supiValue) 208

def calculateKAusfForEapAkaPrime (mk : List UInt8) : List UInt8 :=
  field (field mk 144 (mk.length - 144)) 0 32

/-- `CalculateKAusfForEapAkaPrimeFs`; `CalculateKAusfForEapAkaPrimeFsHPQC` has the same body. -/
def calculateKAusfForEapAkaPrimeFs (mkEcdhe : List UInt8) : Option (List UInt8) :=
  if mkEcdhe.length < 160 then none else some (field (field mkEcdhe 96 64) 0 32)

def calculateKAusfForEapAkaPrimeFsHPQC (mkHybrid : List UInt8) : Option (List UInt8) :=
  calculateKAusfForEapAkaPrimeFs mkHybrid

end Ue

/-! ### PRF' -/

section Loops

variable (hmac : Hmac) (key input : List UInt8)

/-- The rounds of the UE are the blocks of PRF'. -/
theorem prfRounds_eq (n : Nat) :
    prfRounds hmac key input n = (List.range n).map fun i =>
      Prf.block (hmac key) input (i + 1) := by
  induction n with
  | zero => rfl
  | succ n ih =>
    rw [prfRounds, ih, List.range_succ, List.map_append]
    cases n with
    | zero => rfl
    | succ n => simp [Prf.block, Prf.blockInput]

theorem flatten_blocks (n : Nat) :
    ((List.range n).map fun i => Prf.block (hmac key) input (i + 1)).flatten =
      Prf.expand (hmac key) input n := by
  induction n with
  | zero => rfl
  | succ n ih => rw [List.range_succ, List.map_append, List.flatten_append, ih, Prf.expand]; simp

/-- The sizes that both functions for PRF' accept. -/
structure PrfSizes (outputLen : Int) : Prop where
  key : key.length = 32 ∨ key.length = 64
  nonneg : 0 ≤ outputLen
  rounds : outputLen.tdiv 32 + 1 ≤ 254

variable {key input} {n : Nat}

/-- The UE computes one block more than it needs, and all of them in order. -/
theorem calculatePrfPrime_eq (sizes : PrfSizes key n) :
    calculatePrfPrime hmac key input n = some (Prf.expand (hmac key) input (n / 32 + 1)) := by
  have round : (n : Int).tdiv 32 + 1 = ((n / 32 + 1 : Nat) : Int) := by
    rw [Int.tdiv_eq_ediv_of_nonneg (Int.natCast_nonneg n)]
    rfl
  have most := sizes.rounds
  have keyOk := sizes.key
  rw [calculatePrfPrime, if_neg (by omega)]
  dsimp only
  rw [round] at most ⊢
  rw [if_neg (by omega), Int.toNat_natCast, prfRounds_eq, flatten_blocks]

/-- With an input that leaves room in `buf`, the array holds the blocks. -/
theorem ogsPrfRounds_eq (room : input.length ≤ 4063) (rounds : Nat) :
    ogsPrfRounds hmac key input rounds =
      .ok ((List.range rounds).map fun i => Prf.block (hmac key) input (i + 1)) := by
  induction rounds with
  | zero => rfl
  | succ i ih =>
    have buf : ogsPrfBuf input ((List.range i).map fun i => Prf.block (hmac key) input (i + 1)) i =
        .ok (Prf.blockInput input i (Prf.block (hmac key) input i)) := by
      rw [ogsPrfBuf]
      cases i with
      | zero =>
        rw [if_neg (by simp; omega)]
        rfl
      | succ i =>
        simp only [Nat.add_sub_cancel]
        rw [if_neg (by simp; omega)]
        simp [Prf.blockInput]
    rw [ogsPrfRounds, ih]
    show (ogsPrfBuf input _ i >>= fun buf => pure (_ ++ [(hmac key buf).toList])) = _
    rw [buf, List.range_succ, List.map_append]
    rfl

/-- The copy of one block, cut to what is still missing. -/
theorem ogsPrfCopy_eq {out t : List UInt8} {pos len : Nat}
    (is : (if (n : Int) < pos + 32 then (n : Int) - pos else 32) = len) :
    ogsPrfCopy n (out, pos) t = .ok (memcpyAt out pos (t.take len), pos + len) := by
  rw [ogsPrfCopy]
  dsimp only
  rw [is, if_neg (by omega), Int.toNat_natCast]

/-- The blocks that fit are copied whole. -/
theorem ogsPrfCopy_blocks (key input output : List UInt8) {rounds : Nat} (fit : rounds * 32 ≤ n) :
    ((List.range rounds).map fun i => Prf.block (hmac key) input (i + 1)).foldlM (ogsPrfCopy n)
      (output, 0) =
      .ok (Prf.expand (hmac key) input rounds ++ output.drop (rounds * 32), rounds * 32) := by
  induction rounds with
  | zero => rfl
  | succ i ih =>
    have whole : ogsPrfCopy n (Prf.expand (hmac key) input i ++ output.drop (i * 32), i * 32)
        (Prf.block (hmac key) input (i + 1)) =
        .ok (Prf.expand (hmac key) input (i + 1) ++ output.drop ((i + 1) * 32), (i + 1) * 32) := by
      have size : (Prf.block (hmac key) input (i + 1)).length = 32 := Prf.length_block _ _ _
      have len :
          (if (n : Int) < (i * 32 : Nat) + 32 then (n : Int) - (i * 32 : Nat) else 32) =
            (32 : Nat) :=
        if_neg (by omega)
      rw [ogsPrfCopy_eq len, List.take_of_length_le size.le,
        memcpyAt_append (Prf.length_expand _ _ _), size, List.drop_drop, ← List.append_assoc,
        Nat.succ_mul]
      rfl
    rw [List.range_succ, List.map_append, List.foldlM_append, ih (by omega)]
    show (ogsPrfCopy n _ _ >>= pure) = _
    rw [whole]
    rfl

/-- The octets of `output` behind `output_len` stay; those before it are the stream. -/
theorem ogsCalculatePrfPrime_eq {output : List UInt8} (sizes : PrfSizes key n)
    (room : input.length ≤ 4063) :
    ogsCalculatePrfPrime hmac key input n output =
      .ok ((Prf.expand (hmac key) input (n / 32 + 1)).take n ++ output.drop n) := by
  have round : (n : Int).tdiv 32 + 1 = ((n / 32 + 1 : Nat) : Int) := by
    rw [Int.tdiv_eq_ediv_of_nonneg (Int.natCast_nonneg n)]
    rfl
  have most := sizes.rounds
  have keyOk := sizes.key
  have last : ogsPrfCopy n
      (Prf.expand (hmac key) input (n / 32) ++ output.drop (n / 32 * 32), n / 32 * 32)
      (Prf.block (hmac key) input (n / 32 + 1)) =
      .ok ((Prf.expand (hmac key) input (n / 32 + 1)).take n ++ output.drop n, n) := by
    have len :
        (if (n : Int) < (n / 32 * 32 : Nat) + 32 then (n : Int) - (n / 32 * 32 : Nat) else 32) =
        (n - n / 32 * 32 : Nat) := by
      rw [if_pos (by omega)]
      omega
    have size : (Prf.block (hmac key) input (n / 32 + 1)).length = 32 := Prf.length_block _ _ _
    rw [ogsPrfCopy_eq len, memcpyAt_append (Prf.length_expand _ _ _),
      List.length_take_of_le (by omega), List.drop_drop,
      Prf.take_expand_succ _ _ (Nat.div_mul_le_self n 32), List.append_assoc,
      Nat.add_sub_cancel' (Nat.div_mul_le_self n 32)]
  rw [ogsCalculatePrfPrime, if_neg (by omega)]
  dsimp only
  rw [round] at most ⊢
  rw [if_neg (by omega), Int.toNat_natCast, ogsPrfRounds_eq hmac room, List.range_succ,
    List.map_append]
  have copied := ogsPrfCopy_blocks hmac key input output (Nat.div_mul_le_self n 32)
  simp only [bind, Except.bind, List.foldlM_append, copied, List.map_cons, List.map_nil,
    List.foldlM_cons, last]
  rfl

/-- After `k` rounds of `ogs_kdf_prf_prime`: the last block, how much has been written, the next
counter, and `mk_out`. -/
structure PrfLoop.After (key input output : List UInt8) (k : Nat) (s : PrfLoop) : Prop where
  tPrev : k ≠ 0 → s.tPrev = Prf.block (hmac key) input k
  offset : s.offset = min (k * 32) mkLen
  round : s.round = UInt8.ofNat (k + 1)
  mkOut : s.mkOut = (Prf.expand (hmac key) input k).take mkLen ++ output.drop (min (k * 32) mkLen)

variable {output : List UInt8} {s : PrfLoop} {k : Nat}

/-- The first round, which has no block before it, is known by its counter. -/
theorem PrfLoop.After.buf_eq (after : PrfLoop.After hmac key input output k s) (more : k < 7) :
    (if s.round = 1 then input ++ [s.round] else s.tPrev ++ input ++ [s.round]) =
      Prf.blockInput input k (Prf.block (hmac key) input k) := by
  rw [after.round]
  by_cases first : k = 0
  · subst first
    rfl
  · have counter : UInt8.ofNat (k + 1) ≠ 1 := by
      intro one
      have := congrArg UInt8.toNat one
      rw [UInt8.toNat_ofNat'] at this
      simp at this
      omega
    rw [if_neg counter, after.tPrev first]
    rfl

/-- One iteration of the loop writes one block, the last cut to the size of `mk_out`. -/
theorem PrfLoop.After.step (after : PrfLoop.After hmac key input output k s) (more : k < 7) :
    PrfLoop.After hmac key input output (k + 1) (s.step hmac key input) := by
  have buf := after.buf_eq hmac more
  obtain ⟨-, offset, round, mkOut⟩ := after
  simp only [mkLen] at offset mkOut
  have start : min (k * 32) 208 = k * 32 := by omega
  rw [start] at offset mkOut
  have size : (Prf.block (hmac key) input (k + 1)).length = 32 := Prf.length_block _ _ _
  have copyLen : (if 32 < 208 - s.offset then 32 else 208 - s.offset) = min 32 (208 - k * 32) := by
    rw [offset]
    split <;> omega
  have next : k * 32 + min 32 (208 - k * 32) = min ((k + 1) * 32) 208 := by omega
  refine ⟨fun _ => ?_, ?_, ?_, ?_⟩
  · simp only [PrfLoop.step, buf]
    rfl
  · simp only [PrfLoop.step, mkLen, copyLen]
    rw [offset, next]
  · simp only [PrfLoop.step, round]
    exact (UInt8.ofNat_add (k + 1) 1).symm
  · have written : (Prf.expand (hmac key) input k).take 208 = Prf.expand (hmac key) input k :=
      List.take_of_length_le (by rw [Prf.length_expand]; omega)
    have cut : (Prf.block (hmac key) input (k + 1)).take (min 32 (208 - k * 32)) =
        (Prf.block (hmac key) input (k + 1)).take (208 - k * 32) := by
      rw [List.take_eq_take_iff, size]
      omega
    have cutLen : ((Prf.block (hmac key) input (k + 1)).take (min 32 (208 - k * 32))).length =
        min 32 (208 - k * 32) := List.length_take_of_le (by omega)
    simp only [PrfLoop.step, buf, mkLen, copyLen]
    show memcpyAt s.mkOut s.offset ((Prf.block (hmac key) input (k + 1)).take _) = _
    rw [mkOut, written, offset, memcpyAt_append (Prf.length_expand _ _ _), List.drop_drop, cutLen,
      next, cut, Prf.take_expand_succ _ _ (show k * 32 ≤ 208 by omega), List.append_assoc]

/-- The loop ends after seven rounds. -/
theorem PrfLoop.After.run {fuel : Nat} (after : PrfLoop.After hmac key input output k s)
    (most : k ≤ 7) (enough : 7 ≤ k + fuel) :
    PrfLoop.After hmac key input output 7 (PrfLoop.run hmac key input fuel s) := by
  induction fuel generalizing k s with
  | zero =>
    have done : k = 7 := by omega
    subst done
    exact after
  | succ fuel ih =>
    have offset := after.offset
    simp only [mkLen] at offset
    rw [PrfLoop.run]
    by_cases more : k < 7
    · rw [if_pos (show s.offset < 208 by omega)]
      exact ih (after.step hmac more) (by omega) (by omega)
    · have done : k = 7 := by omega
      subst done
      rw [if_neg (show ¬ s.offset < 208 by omega)]
      exact after

/-- The loop of the UDM fills `mk_out` with PRF'. -/
theorem ogsKdfPrfPrime_eq (ikPrime ckPrime : Block UInt8 16) (identity : List UInt8)
    {mkOut : List UInt8} (size : mkOut.length = mkLen) :
    ogsKdfPrfPrime hmac ikPrime ckPrime identity mkOut =
      (Prf.expand (hmac (ikPrime.toList ++ ckPrime.toList)) (label ++ identity) 7).take mkLen := by
  have start : PrfLoop.After hmac (ikPrime.toList ++ ckPrime.toList) (label ++ identity) mkOut 0
      ⟨List.replicate 32 0, 0, 1, mkOut⟩ :=
        ⟨fun zero => absurd rfl zero, rfl, rfl, by simp [Prf.expand]⟩
  have done := (start.run hmac (Nat.zero_le 7) (show 7 ≤ 0 + mkLen by decide)).mkOut
  rw [ogsKdfPrfPrime, done, List.drop_eq_nil_of_le (size.trans_le (by decide)), List.append_nil]

end Loops

end EdhocAuth.Aka
