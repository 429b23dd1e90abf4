/-
The key schedule over perfect cryptography: what is safe of its outputs.

Every output is an HMAC, and the honest parties put out HMACs only as MAC2 and MAC3.
The lengths of the HMAC inputs keep these apart from every other use: 68 octets for
both MACs of methods 0 to 3, 36 and 1252 for those of method 4, against 32 for
HKDF-Extract, 38 and 70 for AEAD keys, 33 for PRK_out, 14 and 46 for MSK, 15 and 47
for EMSK. So a PRK that is not safe stays so along the schedule
(`not_safeAll_hkdfExtract`, `not_safe_hkdfExpand`), and under it only honest parties
encrypt (`encrypted_of_safeAll_wrap`).
-/

import EdhocAuth.Crypto.Knowledge

namespace EdhocAuth.Symbolic

open Primitives

/-- The lengths of the HMAC inputs behind MAC2 and MAC3. -/
def macLengths : List Nat := [36, 68, 1252]

/-- The honest parties put out no other HMAC than MACs. -/
def Ledger.OnlyMacs (L : Ledger) : Prop := ∀ k m, L.maced k m → m.length ∈ macLengths

variable {L : Ledger}

/-! ### HKDF -/

/-- An HMAC that is no MAC is known only with its key and message. -/
theorem safe_hmac_of_key (only : L.OnlyMacs) {k m : List Sym} {i : Nat}
    (len : m.length ∉ macLengths) (h : Safe L (.hmac k m i)) : SafeAll L k ∧ SafeAll L m := by
  rcases safe_hmac.mp h with safe | maced
  · exact safe
  · exact absurd (only _ _ maced) len

/-- An extraction is safe only if both its inputs are. -/
theorem safeAll_of_hkdfExtract (only : L.OnlyMacs) {salt ikm : Block Sym 32}
    (h : SafeAll L (primitives.hkdfExtract salt ikm).toList) :
    SafeAll L salt.toList ∧ SafeAll L ikm.toList := by
  refine safe_hmac_of_key only ?_ (SafeAll.out_zero (by decide) h)
  rw [ikm.toList_length]
  decide

/-- Every octet of an expansion is one of an HMAC under its key, over the info string and
a counter, after at most one earlier block. -/
theorem mem_hkdfExpandLoop {prk : Block Sym 32} {info t : List Sym} {ctr : UInt8} {left : Nat}
    {x : Sym} (ht : t.length = 0 ∨ t.length = 32)
    (mem : x ∈ primitives.hkdfExpandLoop prk info t ctr left) :
    ∃ m i, x = .hmac prk.toList m i ∧
      (m.length = info.length + 1 ∨ m.length = info.length + 33) := by
  induction left using Nat.strong_induction_on generalizing t ctr with
  | _ left ih =>
    rw [hkdfExpandLoop] at mem
    split at mem
    · cases mem
    · next pos =>
      rcases List.mem_append.mp mem with mem | mem
      · obtain ⟨i, -, rfl⟩ := mem_out.mp (List.mem_of_mem_take mem)
        refine ⟨_, i, rfl, ?_⟩
        simp only [List.length_append, List.length_singleton]
        omega
      · exact ih _ (by omega) (.inr (List.Vector.toList_length _)) mem

/-- No octet of an expansion is safe if its key is not. -/
theorem not_safe_hkdfExpand (only : L.OnlyMacs) {prk : Block Sym 32} {info : List Sym} {n : Nat}
    {x : Sym} (hprk : ¬ SafeAll L prk.toList) (one : info.length + 1 ∉ macLengths)
    (two : info.length + 33 ∉ macLengths)
    (mem : x ∈ (primitives.hkdfExpand prk info n).toList) : ¬ Safe L x := by
  intro safe
  obtain ⟨m, i, rfl, len⟩ := mem_hkdfExpandLoop (.inl rfl) mem
  refine hprk (safe_hmac_of_key only ?_ safe).1
  rcases len with len | len
  · rwa [len]
  · rwa [len]

/-- MAC2 and MAC3 are the start of one HMAC. -/
theorem mem_mac {prk : Block Sym 32} {info : List Sym} {x : Sym}
    (mem : x ∈ (primitives.hkdfExpand prk info 8).toList) :
    ∃ i, x = .hmac prk.toList (info ++ [.lit 1]) i := by
  rw [hkdfExpand_toList_short _ _ _ (by decide)] at mem
  obtain ⟨i, -, rfl⟩ := mem_out.mp (List.mem_of_mem_take mem)
  exact ⟨i, rfl⟩

/-- Who knows a MAC knows the first octet of its HMAC. -/
theorem safe_of_mac {prk : Block Sym 32} {info : List Sym}
    (h : SafeAll L (primitives.hkdfExpand prk info 8).toList) :
    Safe L (.hmac prk.toList (info ++ [.lit 1]) 0) := by
  rw [hkdfExpand_toList_short _ _ _ (by decide)] at h
  exact h _ (List.mem_of_getElem? (i := 0) rfl)

/-! ### AEAD under a derived key -/

/-- What `aead_seal` returns. -/
noncomputable def wrap (label : String) (prk th : Block Sym 32) (pt : List Sym) : List Sym :=
  sealed (primitives.deriveKey label prk th).1.toList (primitives.deriveKey label prk th).2.toList
    th.toList pt

/-- What opens is what was sealed. -/
theorem aeadOpen_primitives {label : String} {prk th : Block Sym 32} {ct pt : List Sym}
    {cap : Nat} :
    primitives.aeadOpen label ⟨prk, th, ct, cap⟩ = some pt ↔ ct = wrap label prk th pt :=
  aeadDec_eq_some

/-- A ciphertext determines what was sealed, and under which PRK and transcript hash. -/
theorem wrap_inj {label : String} {prk prk' th th' : Block Sym 32} {pt pt' : List Sym}
    (h : wrap label prk th pt = wrap label prk' th' pt') : prk = prk' ∧ th = th' ∧ pt = pt' := by
  obtain ⟨k, -, ad, text⟩ := sealed_inj h
  exact ⟨primitives_ideal.deriveKey (List.Vector.eq _ _ k), List.Vector.eq _ _ ad, text⟩

/-- The plaintext of a known ciphertext is known. -/
theorem safeAll_of_wrap {label : String} {prk th : Block Sym 32} {pt : List Sym}
    (h : SafeAll L (wrap label prk th pt)) : SafeAll L pt :=
  (safeAll_sealed.mp h).2

/-- A ciphertext that was put out may be known if its plaintext may. -/
theorem safeAll_wrap {label : String} {prk th : Block Sym 32} {pt : List Sym}
    (listed : L.encrypted (primitives.deriveKey label prk th).1.toList
      (primitives.deriveKey label prk th).2.toList th.toList pt)
    (h : SafeAll L pt) : SafeAll L (wrap label prk th pt) :=
  safeAll_sealed.mpr ⟨.inr listed, h⟩

/-- The AEAD key is safe only if its PRK is. -/
theorem safeAll_of_deriveKey (only : L.OnlyMacs) {label : String} (five : label.toList.length = 5)
    {prk th : Block Sym 32} (h : SafeAll L (primitives.deriveKey label prk th).1.toList) :
    SafeAll L prk.toList := by
  by_contra hprk
  have len : (th.toList ++ ascii label).length = 37 := by
    simp [ascii, five]
  obtain ⟨x, mem⟩ := List.exists_mem_of_length_pos
    (l := (primitives.deriveKey label prk th).1.toList) (by simp)
  refine not_safe_hkdfExpand only hprk ?_ ?_ (List.mem_of_mem_take mem) (h x mem)
  · rw [len]
    decide
  · rw [len]
    decide

/-- Under a PRK that is not safe only honest parties encrypt. -/
theorem encrypted_of_safeAll_wrap (only : L.OnlyMacs) {label : String}
    (five : label.toList.length = 5) {prk th : Block Sym 32} {pt : List Sym}
    (hprk : ¬ SafeAll L prk.toList) (h : SafeAll L (wrap label prk th pt)) :
    ∃ k n, wrap label prk th pt = sealed k n th.toList pt ∧ L.encrypted k n th.toList pt := by
  rcases (safeAll_sealed.mp h).1 with key | listed
  · exact absurd (safeAll_of_deriveKey only five key) hprk
  · exact ⟨_, _, rfl, listed⟩

/-! ### From PRK2e to the exported keys -/

/-- `prk'` is `prk` or an extraction under it. -/
def Descends (prk prk' : Block Sym 32) : Prop :=
  prk' = prk ∨ ∃ ss, prk' = primitives.hkdfExtract prk ss

/-- What is extracted under an unknown PRK is unknown. -/
theorem Descends.not_safeAll (only : L.OnlyMacs) {prk prk' : Block Sym 32} (h : Descends prk prk')
    (hprk : ¬ SafeAll L prk.toList) : ¬ SafeAll L prk'.toList := by
  rcases h with rfl | ⟨ss, rfl⟩
  · exact hprk
  · exact fun safe => hprk (safeAll_of_hkdfExtract only safe).1

/-- No octet of MSK and EMSK is safe if PRK4e3m is not. -/
theorem not_safe_exported (only : L.OnlyMacs) {prk4e3m th4 : Block Sym 32} {x : Sym}
    (hprk : ¬ SafeAll L prk4e3m.toList)
    (mem : x ∈ (primitives.hkdfExpand (primitives.hkdfExpand prk4e3m th4.toList 32)
        (ascii "EDHOC-EAP-MSK") 64).toList ∨
      x ∈ (primitives.hkdfExpand (primitives.hkdfExpand prk4e3m th4.toList 32)
        (ascii "EDHOC-EAP-EMSK") 64).toList) : ¬ Safe L x := by
  have prkOut : ¬ SafeAll L (primitives.hkdfExpand prk4e3m th4.toList 32).toList := by
    intro safe
    obtain ⟨x, mem⟩ := List.exists_mem_of_length_pos
      (l := (primitives.hkdfExpand prk4e3m th4.toList 32).toList) (by simp)
    refine not_safe_hkdfExpand only hprk ?_ ?_ mem (safe x mem)
    · rw [th4.toList_length]
      decide
    · rw [th4.toList_length]
      decide
  rcases mem with mem | mem
  · exact not_safe_hkdfExpand only prkOut (by decide) (by decide) mem
  · exact not_safe_hkdfExpand only prkOut (by decide) (by decide) mem

end EdhocAuth.Symbolic
