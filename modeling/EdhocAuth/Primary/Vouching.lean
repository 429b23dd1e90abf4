/-
What the network proves to the UE in primary authentication.

The UE answers a RAND only if an AUTN has come with it whose MAC is right and whose sequence number
was acceptable then. 5G-AKA answers the stored RAND again without a look at AUTN, so the invariant
is that the stored RAND has been vouched for.
-/

import EdhocAuth.Primary.Agreement

namespace EdhocAuth.Primary

open Octets Aka Eap Machine

variable {aes : Cipher} {hmac : Hmac} {cfg : UeConfig}

/-- Among the inputs of a run one brought this RAND with an AUTN that was accepted: its MAC is
right, and its number was acceptable then. -/
def Vouched (aes : Cipher) (hmac : Hmac) (cfg : UeConfig) (u : NasMm) (is : List MmInput)
    (rand : List UInt8) : Prop :=
  ∃ before i rest c, is = before ++ i :: rest ∧
    challenged (after (mmStep aes hmac cfg) u before) i = some c ∧ c.rand.toList = rand ∧
    Verified aes cfg c.rand c.autn ∧
    (after (mmStep aes hmac cfg) u before).sqnMng.Acceptable
      (SqnManager.number (sqnOf aes cfg c.rand c.autn))

/-- What has been vouched for stays so. -/
theorem Vouched.concat {u : NasMm} {is : List MmInput} {rand : List UInt8} (i : MmInput)
    (vouched : Vouched aes hmac cfg u is rand) : Vouched aes hmac cfg u (is ++ [i]) rand := by
  obtain ⟨before, j, rest, c, split, accepted⟩ := vouched
  refine ⟨before, j, rest ++ [i], c, ?_, accepted⟩
  rw [split, List.append_assoc, List.cons_append]

/-- The stored RAND is one that an accepted AUTN came with. -/
theorem stored_vouched (aes : Cipher) (hmac : Hmac) (cfg : UeConfig) (hasSupi : Bool)
    (is : List MmInput) :
    (after (mmStep aes hmac cfg) (mmInit hasSupi) is).rand = [] ∨
      Vouched aes hmac cfg (mmInit hasSupi) is
        (after (mmStep aes hmac cfg) (mmInit hasSupi) is).rand := by
  induction is using List.reverseRecOn with
  | nil => exact .inl rfl
  | append_singleton is i ih =>
    have kept := kept_after aes hmac cfg hasSupi is
    have old {rand : List UInt8} (same : rand = [] ∨
        rand = (after (mmStep aes hmac cfg) (mmInit hasSupi) is).rand) :
        rand = [] ∨ Vouched aes hmac cfg (mmInit hasSupi) (is ++ [i]) rand := by
      rcases same with none | same
      · exact .inl none
      · rw [same]
        exact ih.imp_right (Vouched.concat i)
    rw [after_concat]
    cases mmStep_outcome aes hmac cfg
        (after (mmStep aes hmac cfg) (mmInit hasSupi) is) i with
    | unchecked _ quiet => exact old quiet.rand.symm
    | refused c _ _ quiet => exact old quiet.rand.symm
    | accepted c checked good _ rand _ _ =>
      rcases rand with new | same
      · right
        obtain ⟨verified, acceptable, _⟩ := validateAutn_ok_cases kept.reached good
        exact ⟨is, i, [], c, rfl, checked, new.symm, verified, acceptable⟩
      · exact old same.symm
    | repeated _ _ _ _ same _ _ => exact old (.inr same)

/-- The UE answers a challenge only if an AUTN with a right MAC and an acceptable number has come
with its RAND, now or before. -/
theorem answers_justified (aes : Cipher) (hmac : Hmac) (cfg : UeConfig) (hasSupi : Bool)
    (before : List MmInput) (i : MmInput) (o : MmOutput) (sent : o ∈ (mmStep aes hmac cfg
      (after (mmStep aes hmac cfg) (mmInit hasSupi) before) i).2)
    (answer : IsAnswer o) :
    ∃ snn rand,
      (after (mmStep aes hmac cfg) (mmInit hasSupi) before).currentSnn = some snn ∧
      Answers aes hmac cfg snn rand o ∧
      Vouched aes hmac cfg (mmInit hasSupi) (before ++ [i]) rand.toList := by
  have kept := kept_after aes hmac cfg hasSupi before
  cases mmStep_outcome aes hmac cfg
      (after (mmStep aes hmac cfg) (mmInit hasSupi) before) i with
  | unchecked _ quiet => exact absurd answer (quiet.silent o sent)
  | refused c _ _ quiet => exact absurd answer (quiet.silent o sent)
  | accepted c checked good _ _ answers known =>
    obtain ⟨verified, acceptable, _⟩ := validateAutn_ok_cases kept.reached good
    exact ⟨c.snn, c.rand, known, answers o sent answer, before, i, [], c, rfl, checked, rfl,
      verified, acceptable⟩
  | repeated c _ stored _ _ answers known =>
    refine ⟨c.snn, c.rand, known, answers o sent answer, ?_⟩
    rcases stored_vouched aes hmac cfg hasSupi before with
      none | vouched
    · rw [none] at stored
      exact absurd stored.symm (Block.toList_ne_nil c.rand)
    · rw [stored] at vouched
      exact vouched.concat i

/-- The answer to the first vector. -/
theorem plain_vouched : ∃ snn rand,
    (after (mmStep plainCipher plainHmac plainCfg) (mmInit true)
      [.procedure plainAftermath]).currentSnn = some snn ∧
    Answers plainCipher plainHmac plainCfg snn rand
      (.authenticationResponse (resStarOf plainCipher plainHmac plainCfg plainSnn plainRand)) ∧
    Vouched plainCipher plainHmac plainCfg (mmInit true) ([.procedure plainAftermath] ++
      [.request (gmmBuildAuthenticationRequest plainAsking.amf) plainEph]) rand.toList := by
  apply answers_justified plainCipher plainHmac plainCfg true [.procedure plainAftermath]
    (.request (gmmBuildAuthenticationRequest plainAsking.amf) plainEph)
  · show _ ∈ (mmStep plainCipher plainHmac plainCfg plainUe _).2
    rw [plain_answer]
    exact List.mem_singleton_self _
  · trivial

end EdhocAuth.Primary
