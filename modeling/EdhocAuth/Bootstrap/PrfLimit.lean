/-
How much the key derivation of RFC 5295 gives.

The counter of PRF+ is one octet, so there are 255 blocks at most. Python raises an exception when
the counter does not fit. The C code admits every length of two octets and lets the counter wrap;
and it refuses labels that do not fit into its buffer, which Python takes. `prf_limit_iff` says for
which lengths and labels the two agree on what can be derived.
-/

import EdhocAuth.Bootstrap.KeySchedule

namespace EdhocAuth.Bootstrap

open Octets

/-- The output of PRF+: the blocks `T1 | T2 | ...`, cut to the length, with counters that are octets
and are not repeated. -/
def IsPrfPlus (hmac : Hmac) (key s : List UInt8) (length : Nat) (out : List UInt8) : Prop :=
  ∃ n ≤ 255, length ≤ n * 32 ∧ out = (Prf.expand (hmac key) s n).take length ∧
    ((List.range n).map fun i => UInt8.ofNat (i + 1)).Nodup

def Fails {ε α : Type} (result : Except ε α) : Prop := ∃ e, result = .error e

/-- What is asked of a derivation in C, given that of Python: it fails or gives the output of PRF+,
and it fails just when the other does. -/
def KeepsLimit (hmac : Hmac) (key s : List UInt8) (length : Nat)
    (c : Except C.Error (List UInt8)) (py : Except Py.Error (List UInt8)) : Prop :=
  (Fails c ∨ ∃ out, c = .ok out ∧ IsPrfPlus hmac key s length out) ∧ (Fails c ↔ Fails py)

section Limit

variable {hmac : Hmac} {key info : List UInt8} {label : CString} {length : Nat}

theorem fails_error {ε α : Type} (e : ε) : Fails (.error e : Except ε α) := ⟨e, rfl⟩

theorem not_fails_ok {ε α : Type} (a : α) : ¬ Fails (.ok a : Except ε α) := fun ⟨_, same⟩ =>
  nomatch same

/-- Up to 255 blocks no counter comes twice. -/
theorem nodup_counters {n : Nat} (few : n ≤ 255) :
    ((List.range n).map fun i => UInt8.ofNat (i + 1)).Nodup := by
  apply List.Nodup.map_on _ List.nodup_range
  intro i hi j hj same
  have octets := congrArg UInt8.toNat same
  rw [UInt8.toNat_ofNat', UInt8.toNat_ofNat'] at octets
  rw [List.mem_range] at hi hj
  omega

/-- Up to 8160 octets both loops give the output of PRF+. -/
theorem isPrfPlus_okm (limit : length ≤ 8160) :
    IsPrfPlus hmac key info length (okm hmac key info length) :=
  ⟨255, le_refl _, limit, (okm_eq hmac key info limit).symm, nodup_counters (le_refl _)⟩

/-- More than 255 blocks are no output of PRF+. -/
theorem IsPrfPlus.limit {out : List UInt8} (spec : IsPrfPlus hmac key info length out) :
    length ≤ 8160 := by
  obtain ⟨n, few, enough, -, -⟩ := spec
  omega

/-- The loop in Python runs into a counter of 256. -/
theorem Py.loop_error {n fuel : Nat} (beyond : 8160 < length) (few : n ≤ 255)
    (enough : 255 < n + fuel) :
    Py.loop hmac key info length fuel (Prf.expand (hmac key) info n) (Prf.block (hmac key) info n)
      (n + 1) = .error .bytesRange := by
  induction fuel generalizing n with
  | zero => omega
  | succ fuel ih =>
    rw [Py.loop, Prf.length_expand, if_pos (by omega)]
    rcases few.lt_or_eq with less | rfl
    · have octet : Py.bytes (n + 1) = .ok [UInt8.ofNat (n + 1)] := if_pos (by omega)
      rw [octet]
      exact ih less (by omega)
    · rfl

/-- Python fails just beyond 8160 octets. -/
theorem Py.fails_rfc5295PrfPlus :
    Fails (Py.rfc5295PrfPlus hmac key label.octets [] length) ↔ 8160 < length := by
  constructor
  · intro failed
    by_contra within
    rw [Py.rfc5295PrfPlus_eq (not_lt.mp within)] at failed
    exact not_fails_ok _ failed
  · intro beyond
    rw [Py.rfc5295PrfPlus]
    by_cases packed : length < 65536
    · rw [Py.packH, if_pos packed]
      have looped : Py.loop hmac key (label.octets ++ [0x00] ++ [] ++ Octets.ofNat 2 length) length
          length [] [] 1 = .error .bytesRange :=
        Py.loop_error (n := 0) beyond (by decide) (by omega)
      show Fails (Py.loop hmac key _ length length [] [] 1 >>= _)
      rw [looped]
      exact fails_error _
    · rw [Py.packH, if_neg packed]
      exact fails_error _

/-- C fails just if the label or the length does not fit into its buffers. -/
theorem C.fails_rfc5295PrfPlus :
    Fails (C.rfc5295PrfPlus hmac key label length) ↔ 253 < label.strlen ∨ 65535 < length := by
  rw [C.rfc5295PrfPlus]
  split
  · next refused =>
    constructor
    · intro _
      omega
    · intro _
      exact fails_error _
  · next admitted =>
    constructor
    · intro failed
      exact absurd failed (not_fails_ok _)
    · intro past
      omega

/-- Both derivations, for a label and a length. -/
theorem keepsLimit_iff :
    KeepsLimit hmac key (prfSeed label.octets length) length
      (C.rfc5295PrfPlus hmac key label length)
        (Py.rfc5295PrfPlus hmac key label.octets [] length) ↔
      65535 < length ∨ (label.strlen ≤ 253 ↔ length ≤ 8160) := by
  rw [KeepsLimit, C.fails_rfc5295PrfPlus, Py.fails_rfc5295PrfPlus]
  constructor
  · rintro ⟨-, same⟩
    omega
  · intro condition
    refine ⟨?_, by omega⟩
    by_cases short : label.strlen ≤ 253
    · by_cases within : length ≤ 8160
      · exact .inr ⟨_, C.rfc5295PrfPlus_eq short (by omega), isPrfPlus_okm within⟩
      · exact .inl (.inr (by omega))
    · exact .inl (.inl (by omega))

end Limit

/-- The functions in C keep the limit of RFC 5295 and fail where those in Python do just when the
length takes more than two octets, or the label fits and the length is within 255 blocks, or
neither is the case. -/
theorem prf_limit_iff (hmac : Hmac) {key : List UInt8} (long : 32 ≤ key.length)
    (label : Option CString) (length : Nat) :
    (KeepsLimit hmac key (prfSeed (label.getD C.usrkKeyLabel).octets length) length
        (C.bkDeriveUsrk hmac key label length)
        (Py.deriveUsrk hmac key (label.getD C.usrkKeyLabel).octets length []) ↔
      65535 < length ∨ ((label.getD C.usrkKeyLabel).strlen ≤ 253 ↔ length ≤ 8160)) ∧
    (KeepsLimit hmac key (prfSeed (label.getD C.dsrkDomainLabel).octets length) length
        (C.bkDeriveDsrk hmac key label length)
        (Py.deriveDsrk hmac key (label.getD C.dsrkDomainLabel).octets length []) ↔
      65535 < length ∨ ((label.getD C.dsrkDomainLabel).strlen ≤ 253 ↔ length ≤ 8160)) := by
  rw [C.bkDeriveUsrk, C.bkDeriveDsrk, Py.deriveUsrk, Py.deriveDsrk, if_neg (not_lt.mpr long),
    if_neg (not_lt.mpr long), if_neg (key_accepted long), if_neg (key_accepted long)]
  exact ⟨keepsLimit_iff, keepsLimit_iff⟩

/-- An EMSK of 64 octets, the default labels and the longest output. -/
theorem prf_limit_defaults :
    KeepsLimit Sha256.hmac (List.replicate 64 0x0b) (prfSeed C.usrkKeyLabel.octets 8160) 8160
      (C.bkDeriveUsrk Sha256.hmac (List.replicate 64 0x0b) none 8160)
      (Py.deriveUsrk Sha256.hmac (List.replicate 64 0x0b) C.usrkKeyLabel.octets 8160 []) ∧
    KeepsLimit Sha256.hmac (List.replicate 64 0x0b) (prfSeed C.dsrkDomainLabel.octets 8160) 8160
      (C.bkDeriveDsrk Sha256.hmac (List.replicate 64 0x0b) none 8160)
      (Py.deriveDsrk Sha256.hmac (List.replicate 64 0x0b) C.dsrkDomainLabel.octets 8160 []) := by
  have long : 32 ≤ (List.replicate 64 (0x0b : UInt8)).length := by decide
  obtain ⟨usrk, dsrk⟩ := prf_limit_iff Sha256.hmac long none 8160
  exact ⟨usrk.mpr (.inr (by decide)), dsrk.mpr (.inr (by decide))⟩

/-- A label that does not fit into the buffer with the octets that follow it. -/
def longLabel : CString := ⟨List.replicate 254 0x61, fun nul =>
  absurd (List.eq_of_mem_replicate nul) (by decide)⟩

/-- One octet more: the C code returns it, made with a counter that has wrapped to zero, and Python
raises an exception. A label of 254 octets is refused by the C code only. -/
theorem wrapped_counter_accepted :
    (∃ out, C.bkDeriveUsrk Sha256.hmac (List.replicate 64 0x0b) none 8161 = .ok out ∧
      ¬ IsPrfPlus Sha256.hmac (List.replicate 64 0x0b) (prfSeed C.usrkKeyLabel.octets 8161) 8161
        out) ∧
    ¬ KeepsLimit Sha256.hmac (List.replicate 64 0x0b) (prfSeed C.usrkKeyLabel.octets 8161) 8161
      (C.bkDeriveUsrk Sha256.hmac (List.replicate 64 0x0b) none 8161)
      (Py.deriveUsrk Sha256.hmac (List.replicate 64 0x0b) C.usrkKeyLabel.octets 8161 []) ∧
    ¬ KeepsLimit Sha256.hmac (List.replicate 64 0x0b) (prfSeed longLabel.octets 64) 64
      (C.bkDeriveDsrk Sha256.hmac (List.replicate 64 0x0b) (some longLabel) 64)
      (Py.deriveDsrk Sha256.hmac (List.replicate 64 0x0b) longLabel.octets 64 []) := by
  have long : 32 ≤ (List.replicate 64 (0x0b : UInt8)).length := by decide
  rw [C.bkDeriveUsrk, Py.deriveUsrk, C.bkDeriveDsrk, Py.deriveDsrk, if_neg (not_lt.mpr long),
    if_neg (not_lt.mpr long), if_neg (key_accepted long), if_neg (key_accepted long)]
  refine ⟨⟨_, C.rfc5295PrfPlus_eq (by decide) (by decide), fun spec => ?_⟩, fun keeps => ?_,
    fun keeps => ?_⟩
  · exact absurd spec.limit (by decide)
  · exact absurd (keepsLimit_iff.mp keeps) (by decide)
  · have size : longLabel.strlen = 254 := List.length_replicate
    rcases keepsLimit_iff.mp keeps with past | same
    · exact absurd past (by decide)
    · have short : longLabel.strlen ≤ 253 := same.mpr (by decide)
      omega

end EdhocAuth.Bootstrap
