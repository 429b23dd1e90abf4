/-
Plaintext buffers of the six handlers that decrypt.

Each handler sizes a stack buffer for the plaintext it expects and passes it to
`aead_open`, which is told neither the size of the buffer nor the expected length;
libsodium writes `ct_len - 16` octets. `Fits` says that the buffer is large enough,
for the one `aead_open` call that the `…Open` part of a handler leads up to. The
length of the plaintext is compared with the expected one only after decryption, so
`Fits` comes down to a bound on the length of the incoming message, which the
handlers do not check.
-/

import EdhocAuth.Edhoc03.Spec
import EdhocAuth.Edhoc4.Spec

namespace EdhocAuth

open Proc Primitives

variable {B σ ε : Type}

/-- If the handler gets as far as `aead_open`, the plaintext fits into the buffer. -/
def Fits (reached : Except ε (OpenCall B) × σ) : Prop :=
  ∀ call, reached.1 = .ok call → call.ct.length - 16 ≤ call.cap

/-- The plaintext fits if the procedure never returns a call with a longer one. -/
theorem fits_iff {x : Proc σ ε (OpenCall B)} {s : σ} :
    Fits (x s) ↔ ∀ call s', x s = (.ok call, s') → call.ct.length - 16 ≤ call.cap := by
  constructor
  · intro fits call s' reached
    exact fits call (congrArg Prod.fst reached)
  · intro fits call reached
    exact fits call (x s).2 (Prod.ext reached rfl)

section Bounds

variable [Octet B] (P : Primitives B)

/-! ### Method 4 -/

/-- `pt1` has 64 octets. -/
theorem Edhoc4.rHandleMsg1Open_fits (inp : List B) (c : Edhoc4.Ctx B) :
    Fits (Edhoc4.rHandleMsg1Open P inp c) ↔
      (c.role = .responder →
        (Edhoc4.xwingDecaps P (readBlock _ inp) c.self.kemSk).isSome →
        inp.length ≤ Edhoc4.xwingCt + Edhoc4.xwingPk + 16 + 64) := by
  rw [fits_iff]
  constructor
  · intro fits role decaps
    by_contra long
    obtain ⟨ssB, dec⟩ := Option.isSome_iff_exists.mp decaps
    obtain ⟨ctB, rest, rfl⟩ : ∃ (ctB : Block B Edhoc4.xwingCt) (rest : List B),
        inp = ctB.toList ++ rest := Block.exists_append (by omega)
    rw [readBlock, Block.read_toList_append] at dec
    rw [List.length_append, List.Vector.toList_length] at long
    obtain ⟨pkX, ct1, rfl⟩ : ∃ (pkX : Block B Edhoc4.xwingPk) (ct1 : List B),
        rest = pkX.toList ++ ct1 := Block.exists_append (by omega)
    rw [List.length_append, List.Vector.toList_length] at long
    have tagged : 2 + Edhoc4.aeadTag ≤ ct1.length := by
      show 18 ≤ ct1.length
      omega
    have reached := Edhoc4.rHandleMsg1Open_eq_ok.mpr
      ⟨role, ctB, pkX, ct1, rfl, tagged, ssB, dec, _, rfl, rfl, rfl⟩
    have fit := fits _ _ reached
    dsimp only at fit
    omega
  · rintro bound call c' reached
    obtain ⟨role, ctB, pkX, ct1, rfl, -, ssB, dec, th1, -, rfl, -⟩ :=
      Edhoc4.rHandleMsg1Open_eq_ok.mp reached
    have short := bound role (by rw [readBlock, Block.read_toList_append, dec]; rfl)
    simp only [List.length_append, List.Vector.toList_length] at short
    show ct1.length - 16 ≤ 64
    omega

/-- `pt2` has 16 octets more than the plaintext of message_2. -/
theorem Edhoc4.iHandleMsg2Open_fits (inp : List B) (c : Edhoc4.Ctx B) :
    Fits (Edhoc4.iHandleMsg2Open P inp c) ↔
      (c.role = .initiator →
        (Edhoc4.xwingDecaps P (readBlock _ inp) c.ephSk).isSome →
        inp.length ≤ Edhoc4.xwingCt + 16 + (Edhoc4.pt2Len + 16)) := by
  rw [fits_iff]
  constructor
  · intro fits role decaps
    by_contra long
    obtain ⟨ssE, dec⟩ := Option.isSome_iff_exists.mp decaps
    obtain ⟨cte, ct2, rfl⟩ : ∃ (cte : Block B Edhoc4.xwingCt) (ct2 : List B),
        inp = cte.toList ++ ct2 := Block.exists_append (by omega)
    rw [readBlock, Block.read_toList_append] at dec
    rw [List.length_append, List.Vector.toList_length] at long
    have tagged : Edhoc4.aeadTag ≤ ct2.length := by
      show 16 ≤ ct2.length
      omega
    have reached := Edhoc4.iHandleMsg2Open_eq_ok.mpr
      ⟨role, cte, ct2, rfl, tagged, ssE, dec, _, rfl, rfl, rfl⟩
    have fit := fits _ _ reached
    dsimp only at fit
    omega
  · rintro bound call c' reached
    obtain ⟨role, cte, ct2, rfl, -, ssE, dec, th2, -, rfl, -⟩ :=
      Edhoc4.iHandleMsg2Open_eq_ok.mp reached
    have short := bound role (by rw [readBlock, Block.read_toList_append, dec]; rfl)
    simp only [List.length_append, List.Vector.toList_length] at short
    show ct2.length - 16 ≤ Edhoc4.pt2Len + 16
    omega

omit [Octet B] in
/-- `pt3` has 16 octets more than the plaintext of message_3. -/
theorem Edhoc4.rHandleMsg3Open_fits (inp : List B) (c : Edhoc4.Ctx B) :
    Fits (Edhoc4.rHandleMsg3Open P inp c) ↔
      (c.role = .responder → inp.length ≤ 16 + (Edhoc4.pt3Len + 16)) := by
  rw [fits_iff]
  constructor
  · intro fits role
    have fit := fits _ _ (Edhoc4.rHandleMsg3Open_eq_ok.mpr ⟨role, rfl, rfl⟩)
    dsimp only at fit
    omega
  · rintro bound call c' reached
    obtain ⟨role, rfl, -⟩ := Edhoc4.rHandleMsg3Open_eq_ok.mp reached
    have short := bound role
    show inp.length - 16 ≤ Edhoc4.pt3Len + 16
    omega

omit [Octet B] in
/-- `pt4` has 16 octets more than a static key. -/
theorem Edhoc4.iHandleMsg4Open_fits (inp : List B) (c : Edhoc4.Ctx B) :
    Fits (Edhoc4.iHandleMsg4Open inp c) ↔
      (c.role = .initiator → inp.length ≤ 16 + (Edhoc4.xwingPk + 16)) := by
  rw [fits_iff]
  constructor
  · intro fits role
    have fit := fits _ _ (Edhoc4.iHandleMsg4Open_eq_ok.mpr ⟨role, rfl, rfl⟩)
    dsimp only at fit
    omega
  · rintro bound call c' reached
    obtain ⟨role, rfl, -⟩ := Edhoc4.iHandleMsg4Open_eq_ok.mp reached
    have short := bound role
    show inp.length - 16 ≤ Edhoc4.xwingPk + 16
    omega

/-! ### Methods 0 to 3 -/

/-- The buffer of message_2 has a size for both kinds of authentication. -/
theorem Edhoc03.iHandleMsg2Open_fits (inp : List B) (c : Edhoc03.Ctx B) :
    Fits (Edhoc03.iHandleMsg2Open P inp c) ↔
      (c.role = .initiator → (P.scalarmult c.ephSk (readBlock _ inp)).isSome →
        inp.length ≤ Edhoc03.xPk + 16 + Edhoc03.ptCap) := by
  rw [fits_iff]
  constructor
  · intro fits role shared
    by_contra long
    obtain ⟨ssE, mul⟩ := Option.isSome_iff_exists.mp shared
    obtain ⟨gY, ct2, rfl⟩ : ∃ (gY : Block B Edhoc03.xPk) (ct2 : List B),
        inp = gY.toList ++ ct2 := Block.exists_append (by omega)
    rw [readBlock, Block.read_toList_append] at mul
    rw [List.length_append, List.Vector.toList_length] at long
    have tagged : Edhoc03.aeadTag ≤ ct2.length := by
      show 16 ≤ ct2.length
      omega
    have reached := Edhoc03.iHandleMsg2Open_eq_ok.mpr
      ⟨role, gY, ct2, rfl, tagged, ssE, mul, _, rfl, rfl, rfl⟩
    have fit := fits _ _ reached
    dsimp only at fit
    omega
  · rintro bound call c' reached
    obtain ⟨role, gY, ct2, rfl, -, ssE, mul, th2, -, rfl, -⟩ :=
      Edhoc03.iHandleMsg2Open_eq_ok.mp reached
    have short := bound role (by rw [readBlock, Block.read_toList_append, mul]; rfl)
    simp only [List.length_append, List.Vector.toList_length] at short
    show ct2.length - 16 ≤ Edhoc03.ptCap
    omega

omit [Octet B] in
/-- The buffer of message_3 has a size for both kinds of authentication. -/
theorem Edhoc03.rHandleMsg3Open_fits (inp : List B) (c : Edhoc03.Ctx B) :
    Fits (Edhoc03.rHandleMsg3Open inp c) ↔
      (c.role = .responder → inp.length ≤ 16 + Edhoc03.ptCap) := by
  rw [fits_iff]
  constructor
  · intro fits role
    have fit := fits _ _ (Edhoc03.rHandleMsg3Open_eq_ok.mpr ⟨role, rfl, rfl⟩)
    dsimp only at fit
    omega
  · rintro bound call c' reached
    obtain ⟨role, rfl, -⟩ := Edhoc03.rHandleMsg3Open_eq_ok.mp reached
    have short := bound role
    show inp.length - 16 ≤ Edhoc03.ptCap
    omega

/-- For each handler, the bound on the incoming message under which its plaintext buffer
is large enough whenever decryption is reached. -/
theorem plaintext_fits_iff (inp : List B) (c4 : Edhoc4.Ctx B) (c3 : Edhoc03.Ctx B) :
    (Fits (Edhoc4.rHandleMsg1Open P inp c4) ↔
      (c4.role = .responder → (Edhoc4.xwingDecaps P (readBlock _ inp) c4.self.kemSk).isSome →
        inp.length ≤ 2416)) ∧
    (Fits (Edhoc4.iHandleMsg2Open P inp c4) ↔
      (c4.role = .initiator → (Edhoc4.xwingDecaps P (readBlock _ inp) c4.ephSk).isSome →
        inp.length ≤ 6016)) ∧
    (Fits (Edhoc4.rHandleMsg3Open P inp c4) ↔ (c4.role = .responder → inp.length ≤ 4991)) ∧
    (Fits (Edhoc4.iHandleMsg4Open inp c4) ↔ (c4.role = .initiator → inp.length ≤ 1248)) ∧
    (Fits (Edhoc03.iHandleMsg2Open P inp c3) ↔
      (c3.role = .initiator → (P.scalarmult c3.ephSk (readBlock _ inp)).isSome →
        inp.length ≤ 163)) ∧
    (Fits (Edhoc03.rHandleMsg3Open inp c3) ↔ (c3.role = .responder → inp.length ≤ 131)) :=
  ⟨Edhoc4.rHandleMsg1Open_fits P inp c4, Edhoc4.iHandleMsg2Open_fits P inp c4,
    Edhoc4.rHandleMsg3Open_fits P inp c4, Edhoc4.iHandleMsg4Open_fits inp c4,
    Edhoc03.iHandleMsg2Open_fits P inp c3, Edhoc03.rHandleMsg3Open_fits inp c3⟩

end Bounds

/-- An initiator waiting for message_4 with all keys zero. -/
def waitingInitiator : Edhoc4.Ctx UInt8 :=
  Edhoc4.initInitiator ⟨zeros _, zeros _, zeros _, zeros _, zeros _⟩ (zeros _)

/-- A message_4 of 2000 octets is decrypted into a buffer of 1232. -/
theorem message4_overflows :
    ¬ Fits (Edhoc4.iHandleMsg4Open (List.replicate 2000 (0 : UInt8)) waitingInitiator) := by
  rw [Edhoc4.iHandleMsg4Open_fits, List.length_replicate]
  intro bound
  exact absurd (bound rfl) (by decide)

end EdhocAuth
