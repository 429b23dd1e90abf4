/-
The keys of 5G-AKA on both sides: `lib/crypt/ogs-kdf.c` of the core network, and `ue/nas/keys.cpp`
of the UE.

`ogs_kdf_common` stops at the first empty parameter and keeps 16 bits of a length; the UE's
`CalculateKdfKey` takes all it is given. `ogsKdfCommon_eq` says when the two agree, and carries
every key below. SHA-256 and HMAC-SHA256 are parameters.
-/

import EdhocAuth.Aka.Kdf
import EdhocAuth.Primary.Milenage

namespace EdhocAuth.Primary

open Octets Aka

/-! ### The core network -/

/-- `ogs_kdf_common`; `param` is what the caller has put in the array. -/
def ogsKdfCommon (hmac : Hmac) (key : List UInt8) (fc : UInt8) (param : List (List UInt8)) :
    Block UInt8 32 :=
  let used := (param.take 16).map fun p => p.take (p.length % 2 ^ 16)
  let s := (used.takeWhile (· ≠ [])).flatMap fun p => p ++ Octets.ofNat 2 p.length
  hmac key (fc :: s)

section Core

variable (hmac : Hmac) (ck ik : Block UInt8 16) (snn : CString)

def ogsKdfKausf (autn : Block UInt8 16) : Block UInt8 32 :=
  ogsKdfCommon hmac (ck.toList ++ ik.toList) 0x6A [snn.octets, autn.toList.take 6]

def ogsKdfXresStar (rand : Block UInt8 16) (xres : Block UInt8 8) : Block UInt8 16 :=
  let output := ogsKdfCommon hmac (ck.toList ++ ik.toList) 0x6B
    [snn.octets, rand.toList, xres.toList]
  Block.snd (n := 16) (m := 16) output

def ogsKdfHxresStar (sha256 : List UInt8 → Block UInt8 32) (rand xresStar : Block UInt8 16) :
    Block UInt8 16 :=
  Block.snd (n := 16) (m := 16) (sha256 (rand.toList ++ xresStar.toList))

def ogsKdfKseaf (kausf : Block UInt8 32) : Block UInt8 32 :=
  ogsKdfCommon hmac kausf.toList 0x6C [snn.octets]

/-- `ogs_kdf_kamf`; `val` is `ogs_id_get_value(supi)`. -/
def ogsKdfKamf (val : CString) (abba : List UInt8) (kseaf : Block UInt8 32) : Block UInt8 32 :=
  ogsKdfCommon hmac kseaf.toList 0x6D [val.octets, abba]

end Core

/-! ### The UE -/

section Ue

variable (hmac : Hmac)

def calculateKAusfFor5gAka (ck ik snn sqnXorAk : List UInt8) : List UInt8 :=
  calculateKdfKey hmac (ck ++ ik) 0x6A [snn, sqnXorAk]

def calculateResStar (key snn rand res : List UInt8) : List UInt8 :=
  let output := calculateKdfKey hmac key 0x6B [snn, rand, res]
  output.drop (output.length - 16)

/-- `DeriveKeysSeafAmf`: K_SEAF and K_AMF. -/
def deriveKeysSeafAmf (snn supi kAusf abba : List UInt8) : List UInt8 × List UInt8 :=
  let kSeaf := calculateKdfKey hmac kAusf 0x6C [snn]
  (kSeaf, calculateKdfKey hmac kSeaf 0x6D [supi, abba])

def calculateAuts (sqn ak : Block UInt8 6) (macS : Block UInt8 8) : Block UInt8 14 :=
  (Bits.xor sqn ak).cat macS

end Ue

/-! ### Both sides -/

/-- Parameters that both sides write in the same way. -/
structure Fits (param : List (List UInt8)) : Prop where
  few : param.length ≤ 16
  filled : ∀ p ∈ param, p ≠ []
  short : ∀ p ∈ param, p.length < 2 ^ 16

/-- A string that both sides can use as a parameter. -/
def Usable (s : List UInt8) : Prop := s ≠ [] ∧ s.length < 2 ^ 16

/-- For parameters that fit, both sides derive the same. -/
theorem ogsKdfCommon_eq (hmac : Hmac) (key : List UInt8) (fc : UInt8) {param : List (List UInt8)}
    (fits : Fits param) :
    (ogsKdfCommon hmac key fc param).toList = calculateKdfKey hmac key fc param := by
  have whole : ∀ p ∈ param, p.take (p.length % 2 ^ 16) = p := by
    intro p mem
    rw [Nat.mod_eq_of_lt (fits.short p mem), List.take_length]
  have same : ((param.take 16).map fun p => p.take (p.length % 2 ^ 16)) = param := by
    rw [List.take_of_length_le fits.few, List.map_congr_left whole, List.map_id']
  have all : param.takeWhile (· ≠ []) = param := by
    rw [List.takeWhile_eq_self_iff]
    intro p mem
    exact decide_eq_true (fits.filled p mem)
  simp only [ogsKdfCommon, same, all]
  rfl

theorem usable_block {n : Nat} (b : Block UInt8 (n + 1)) (small : n + 1 < 2 ^ 16) :
    Usable b.toList := by
  constructor
  · exact Block.toList_ne_nil b
  · rwa [b.toList_length]

/-- Parameters that can be used fit. -/
theorem fits_of_usable {param : List (List UInt8)} (few : param.length ≤ 16)
    (usable : ∀ p ∈ param, Usable p) : Fits param where
  few := few
  filled p mem := (usable p mem).1
  short p mem := (usable p mem).2

section Agree

variable (hmac : Hmac) (ck ik : Block UInt8 16) {snn : CString} (named : Usable snn.octets)
include named

/-- K_AUSF is the same on both sides. -/
theorem kausf_agree (autn : Block UInt8 16) :
    (ogsKdfKausf hmac ck ik snn autn).toList =
      calculateKAusfFor5gAka hmac ck.toList ik.toList snn.octets (autn.toList.take 6) := by
  apply ogsKdfCommon_eq
  apply fits_of_usable (by simp)
  have front : (autn.toList.take 6).length = 6 := by
    rw [List.length_take, autn.toList_length]
    rfl
  have second : Usable (autn.toList.take 6) := by
    constructor
    · intro empty
      rw [empty] at front
      exact absurd front (by decide)
    · rw [front]
      decide
  simp only [List.mem_cons, List.not_mem_nil, or_false, forall_eq_or_imp, forall_eq]
  exact ⟨named, second⟩

/-- RES* is XRES* on the other side. -/
theorem resStar_agree (rand : Block UInt8 16) (res : Block UInt8 8) :
    (ogsKdfXresStar hmac ck ik snn rand res).toList =
      calculateResStar hmac (ck.toList ++ ik.toList) snn.octets rand.toList res.toList := by
  have output : (ogsKdfCommon hmac (ck.toList ++ ik.toList) 0x6B
      [snn.octets, rand.toList, res.toList]).toList = _ :=
    ogsKdfCommon_eq hmac _ _ (fits_of_usable (by simp) (by
      simp only [List.mem_cons, List.not_mem_nil, or_false, forall_eq_or_imp, forall_eq]
      exact ⟨named, usable_block rand (by decide), usable_block res (by decide)⟩))
  rw [calculateResStar, ← output, List.Vector.toList_length]
  rfl

/-- K_SEAF is the same on both sides. -/
theorem kseaf_agree (kausf : Block UInt8 32) :
    (ogsKdfKseaf hmac snn kausf).toList = calculateKdfKey hmac kausf.toList 0x6C [snn.octets] := by
  apply ogsKdfCommon_eq
  apply fits_of_usable (by simp)
  simp only [List.mem_cons, List.not_mem_nil, or_false, forall_eq]
  exact named

end Agree

/-- From equal K_AUSF, both sides derive the same K_SEAF and K_AMF. -/
theorem seafAmf_agree (hmac : Hmac) {snn val : CString} {abba : List UInt8}
    (named : Usable snn.octets) (subscriber : Usable val.octets) (filled : Usable abba)
    (kausf : Block UInt8 32) :
    deriveKeysSeafAmf hmac snn.octets val.octets kausf.toList abba =
      ((ogsKdfKseaf hmac snn kausf).toList,
        (ogsKdfKamf hmac val abba (ogsKdfKseaf hmac snn kausf)).toList) := by
  have fits : Fits [val.octets, abba] := by
    apply fits_of_usable (by simp)
    simp only [List.mem_cons, List.not_mem_nil, or_false, forall_eq_or_imp, forall_eq]
    exact ⟨subscriber, filled⟩
  have kamf := ogsKdfCommon_eq hmac (ogsKdfKseaf hmac snn kausf).toList 0x6D fits
  rw [deriveKeysSeafAmf, ogsKdfKamf, kamf, kseaf_agree hmac named]

end EdhocAuth.Primary
