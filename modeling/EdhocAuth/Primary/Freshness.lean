/-
The sequence numbers that a UE accepts.

`accepted_fresh`: in every run no sequence number is accepted twice, those of one IND rise, and none
goes back behind SEQ_MS. The inputs of a run are arbitrary, so this holds of whatever reaches the UE
over the air.
-/

import EdhocAuth.Primary.Challenges

namespace EdhocAuth.Primary

open Octets Aka Eap Machine

variable {aes : Cipher} {hmac : Hmac} {cfg : UeConfig}

/-! ### The sequence numbers of a run -/

/-- The manager of a UE has the parameters of `Usim::initialize` and holds numbers of 48 bits. -/
structure Kept (u : NasMm) : Prop where
  reached : u.sqnMng.Reached
  bits : u.sqnMng.indBitLen = 5
  window : u.sqnMng.wrappingDelta = 1#64 <<< 28

/-- A new UE has stored no number. -/
theorem kept_init (hasSupi : Bool) : Kept (mmInit hasSupi) :=
  ⟨SqnManager.reached_new _ (by decide), rfl, rfl⟩

/-- What the check of an AUTN does to the manager: nothing, or it stores an acceptable number. -/
theorem validateAutn_cases (aes : Cipher) (cfg : UeConfig) {m : SqnManager} (reached : m.Reached)
    (rand autn : Block UInt8 16) :
    (validateAutn aes cfg m rand autn).1 = m ∨
      (m.Acceptable (SqnManager.number (sqnOf aes cfg rand autn)) ∧
        SqnManager.Advanced m (SqnManager.number (sqnOf aes cfg rand autn))
          (validateAutn aes cfg m rand autn).1) := by
  rw [validateAutn_manager]
  split
  · exact .inl rfl
  · rcases reached.checkSqn_cases (sqnOf aes cfg rand autn) with ⟨-, same⟩ | ⟨acceptable, stored⟩
    · left
      rw [same]
    · right
      rw [stored]
      exact ⟨acceptable, reached.advanced _ acceptable⟩

/-- An accepted AUTN is verified, its number was acceptable and is stored. -/
theorem validateAutn_ok_cases {m : SqnManager} (reached : m.Reached) {rand autn : Block UInt8 16}
    (good : (validateAutn aes cfg m rand autn).2 = .ok) :
    Verified aes cfg rand autn ∧ m.Acceptable (SqnManager.number (sqnOf aes cfg rand autn)) ∧
      SqnManager.Advanced m (SqnManager.number (sqnOf aes cfg rand autn))
        (validateAutn aes cfg m rand autn).1 := by
  obtain ⟨verified, fresh⟩ := validateAutn_eq_ok.mp good
  refine ⟨verified, ?_⟩
  rw [validateAutn_manager, if_neg (by rw [verified.separated]; decide)]
  rcases reached.checkSqn_cases (sqnOf aes cfg rand autn) with ⟨-, same⟩ | ⟨acceptable, stored⟩
  · rw [same] at fresh
    exact absurd fresh Bool.false_ne_true
  · rw [stored]
    exact ⟨acceptable, reached.advanced _ acceptable⟩

/-- A step keeps the manager, or stores the acceptable number of its challenge. -/
theorem mmStep_manager (aes : Cipher) (hmac : Hmac) (cfg : UeConfig) {u : NasMm} (kept : Kept u)
    (i : MmInput) :
    (mmStep aes hmac cfg u i).1.sqnMng = u.sqnMng ∨
      ∃ n, u.sqnMng.Acceptable n ∧
        SqnManager.Advanced u.sqnMng n (mmStep aes hmac cfg u i).1.sqnMng := by
  cases mmStep_outcome aes hmac cfg u i with
  | unchecked _ quiet => exact .inl quiet.sqnMng
  | refused c _ _ quiet =>
    rcases validateAutn_cases aes cfg kept.reached c.rand c.autn with
      same | ⟨acceptable, advanced⟩
    · exact .inl (quiet.sqnMng.trans same)
    · have stored : (mmStep aes hmac cfg u i).1.sqnMng =
          (validateAutn aes cfg u.sqnMng c.rand c.autn).1 := quiet.sqnMng
      rw [← stored] at advanced
      exact .inr ⟨_, acceptable, advanced⟩
  | accepted c _ good stored _ _ _ =>
    obtain ⟨_, acceptable, advanced⟩ := validateAutn_ok_cases kept.reached good
    rw [← stored] at advanced
    exact .inr ⟨_, acceptable, advanced⟩
  | repeated _ _ _ same _ _ _ => exact .inl same

/-- Every input keeps the numbers in order. -/
theorem Kept.step {u : NasMm} (kept : Kept u) (i : MmInput) :
    Kept (mmStep aes hmac cfg u i).1 := by
  rcases mmStep_manager aes hmac cfg kept i with
    same | ⟨n, _, advanced⟩
  · exact ⟨by rw [same]; exact kept.reached, by rw [same]; exact kept.bits,
      by rw [same]; exact kept.window⟩
  · exact ⟨advanced.reached, advanced.indBitLen.trans kept.bits,
      advanced.wrappingDelta.trans kept.window⟩

/-- Every run keeps the numbers in order. -/
theorem kept_after (aes : Cipher) (hmac : Hmac) (cfg : UeConfig) (hasSupi : Bool)
    (is : List MmInput) :
    Kept (after (mmStep aes hmac cfg) (mmInit hasSupi) is) := by
  have steps : Steps (mmStep aes hmac cfg) (fun _ _ => True) (mmInit hasSupi) is :=
    steps_of_forall fun _ _ => trivial
  exact after_inv (fun _ i kept _ => kept.step i) (kept_init hasSupi) steps

/-! ### No number is accepted twice -/

/-- The numbers that an input makes the UE accept. -/
def acceptedNumbers (aes : Cipher) (cfg : UeConfig) (u : NasMm) (i : MmInput) : List Nat :=
  match challenged u i with
  | none => []
  | some c =>
    if (validateAutn aes cfg u.sqnMng c.rand c.autn).2 = .ok then
      [SqnManager.number (sqnOf aes cfg c.rand c.autn)]
    else []

/-- The UE with the numbers it accepts as its outputs. -/
def acceptingStep (aes : Cipher) (hmac : Hmac) (cfg : UeConfig) (u : NasMm) (i : MmInput) :
    NasMm × List Nat :=
  ((mmStep aes hmac cfg u i).1, acceptedNumbers aes cfg u i)

/-- SEQ and IND of the numbers of a UE. -/
def seqOf (n : Nat) : Nat := n / 32

def indOf (n : Nat) : Nat := n % 32

theorem Kept.seqOf_eq {u : NasMm} (kept : Kept u) (n : Nat) : u.sqnMng.seqOf n = seqOf n := by
  rw [SqnManager.seqOf, kept.bits]
  rfl

theorem Kept.indOf_eq {u : NasMm} (kept : Kept u) (n : Nat) : u.sqnMng.indOf n = indOf n := by
  rw [SqnManager.indOf, kept.bits]
  rfl

/-- What is known of a number that a step accepts. -/
theorem accepted_cases (hmac : Hmac) {u : NasMm} (kept : Kept u) {i : MmInput} {n : Nat}
    (mem : n ∈ acceptedNumbers aes cfg u i) :
    acceptedNumbers aes cfg u i = [n] ∧ u.sqnMng.Acceptable n ∧
      SqnManager.Advanced u.sqnMng n (mmStep aes hmac cfg u i).1.sqnMng := by
  cases mmStep_outcome aes hmac cfg u i with
  | unchecked unchecked _ =>
    rw [acceptedNumbers, unchecked] at mem
    exact absurd mem List.not_mem_nil
  | refused c checked bad _ =>
    simp only [acceptedNumbers, checked, if_neg bad] at mem
    exact absurd mem List.not_mem_nil
  | accepted c checked good stored _ _ _ =>
    have single :
        acceptedNumbers aes cfg u i = [SqnManager.number (sqnOf aes cfg c.rand c.autn)] := by
      simp only [acceptedNumbers, checked, if_pos good]
    rw [single] at mem
    obtain ⟨_, acceptable, advanced⟩ := validateAutn_ok_cases kept.reached good
    rw [List.mem_singleton.mp mem, stored]
    exact ⟨single, acceptable, advanced⟩
  | repeated _ unchecked _ _ _ _ _ =>
    rw [acceptedNumbers, unchecked] at mem
    exact absurd mem List.not_mem_nil

/-- One input accepts one number at most. -/
theorem pairwise_accepted {u : NasMm} (kept : Kept u) (i : MmInput) (R : Nat → Nat → Prop) :
    (acceptedNumbers aes cfg u i).Pairwise R := by
  cases numbers : acceptedNumbers aes cfg u i with
  | nil => exact List.Pairwise.nil
  | cons n rest =>
    have single := (accepted_cases (fun _ _ => Block.fill 32 0) kept
      (numbers ▸ List.mem_cons_self : n ∈ acceptedNumbers aes cfg u i)).1
    rw [numbers] at single
    rw [single]
    exact List.pairwise_singleton R n

/-- For each IND the numbers rise. -/
theorem rising_ind (aes : Cipher) (hmac : Hmac) (cfg : UeConfig) :
    Rising (acceptingStep aes hmac cfg) Kept indOf seqOf
    (fun u k => seqOf (u.sqnMng.last k)) (· < ·) where
  keeps kept i := kept.step i
  marks := by
    intro u kept i k
    rcases mmStep_manager aes hmac cfg kept i with
      same | ⟨n, acceptable, advanced⟩
    · left
      show _ = seqOf ((mmStep aes hmac cfg u i).1.sqnMng.last k)
      rw [same]
    · show _ = seqOf ((mmStep aes hmac cfg u i).1.sqnMng.last k) ∨
        _ < seqOf ((mmStep aes hmac cfg u i).1.sqnMng.last k)
      rw [advanced.last]
      by_cases own : u.sqnMng.indOf n = k
      · right
        have above := acceptable.2.2
        rw [if_pos own]
        rwa [own, kept.seqOf_eq, kept.seqOf_eq] at above
      · left
        rw [if_neg own]
  above := by
    intro u kept i n mem
    obtain ⟨_, acceptable, _⟩ := accepted_cases hmac kept mem
    have above := acceptable.2.2
    rwa [kept.indOf_eq, kept.seqOf_eq, kept.seqOf_eq] at above
  below := by
    intro u kept i n mem
    obtain ⟨_, _, advanced⟩ := accepted_cases hmac kept mem
    left
    show _ = seqOf ((mmStep aes hmac cfg u i).1.sqnMng.last (indOf n))
    rw [advanced.last, kept.indOf_eq, if_pos rfl]
  apart kept i := pairwise_accepted kept i _

/-- No number goes back behind SEQ_MS. -/
theorem rising_top (aes : Cipher) (hmac : Hmac) (cfg : UeConfig) :
    Rising (acceptingStep aes hmac cfg) Kept (fun _ => ()) seqOf
    (fun u _ => seqOf u.sqnMng.top) (· ≤ ·) where
  keeps kept i := kept.step i
  marks := by
    intro u kept i k
    rcases mmStep_manager aes hmac cfg kept i with
      same | ⟨n, acceptable, advanced⟩
    · left
      show _ = seqOf (mmStep aes hmac cfg u i).1.sqnMng.top
      rw [same]
    · right
      show _ ≤ seqOf (mmStep aes hmac cfg u i).1.sqnMng.top
      rw [advanced.top]
      exact Nat.div_le_div_right (le_max_left _ _)
  above := by
    intro u kept i n mem
    obtain ⟨_, acceptable, _⟩ := accepted_cases hmac kept mem
    have above := acceptable.1
    rwa [kept.seqOf_eq, kept.seqOf_eq] at above
  below := by
    intro u kept i n mem
    obtain ⟨_, _, advanced⟩ := accepted_cases hmac kept mem
    right
    show _ ≤ seqOf (mmStep aes hmac cfg u i).1.sqnMng.top
    rw [advanced.top]
    exact Nat.div_le_div_right (le_max_right _ _)
  apart kept i := pairwise_accepted kept i _

/-- Whatever reaches the UE, it accepts no sequence number twice, the numbers of one IND rise, and
none goes back behind the highest accepted before. -/
theorem accepted_fresh (aes : Cipher) (hmac : Hmac) (cfg : UeConfig) (hasSupi : Bool)
    (is : List MmInput) :
    (outputs (acceptingStep aes hmac cfg) (mmInit hasSupi) is).Pairwise fun a b =>
      a ≠ b ∧ seqOf a ≤ seqOf b ∧ (indOf a = indOf b → seqOf a < seqOf b) := by
  have ind := (rising_ind aes hmac cfg).outputs_pairwise (kept_init hasSupi) is
  have top := (rising_top aes hmac cfg).outputs_pairwise (kept_init hasSupi) is
  apply (ind.and top).imp
  rintro a b ⟨strict, weak⟩
  refine ⟨?_, weak rfl, strict⟩
  rintro rfl
  exact lt_irrefl _ (strict rfl)

end EdhocAuth.Primary
