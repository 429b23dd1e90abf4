/-
Domain separation of the key schedule, over all methods: no HMAC computation serves two purposes.
-/

import EdhocAuth.Edhoc03.HmacCalls
import EdhocAuth.Edhoc4.HmacCalls

namespace EdhocAuth

variable {B : Type} [Octet B] [DecidableEq B]

/-- In a completed handshake of any method, whatever the credentials, identifiers and messages, HMAC
is computed for two purposes under one key only on different inputs. `hmacCalls` lists all
computations that the run depends on; the two contexts may be of one side, of both sides or of two
handshakes. -/
theorem purposes_have_own_inputs (P : Primitives B) :
    (∀ (run run' : Edhoc03.Run B) (c c' : Edhoc03.Ctx B), run.Completes P c → run'.Completes P c' →
      (∀ hmac, AgreeOn P hmac (Edhoc03.hmacCalls P c) → run.Completes { P with hmac := hmac } c) ∧
      Nonempty (Edhoc03.HashedTranscript P c) ∧
      ∀ (t : Edhoc03.HashedTranscript P c) (t' : Edhoc03.HashedTranscript P c'),
        Set.InjOn P.sha256 { x | x ∈ t.inputs ++ t'.inputs } →
        Separated (Edhoc03.hmacCalls P c) (Edhoc03.hmacCalls P c')) ∧
    ∀ (run run' : Edhoc4.Run B) (c c' : Edhoc4.Ctx B), run.Completes P c → run'.Completes P c' →
      (∀ hmac, AgreeOn P hmac (Edhoc4.hmacCalls P c) → run.Completes { P with hmac := hmac } c) ∧
      Nonempty (Edhoc4.HashedTranscript P c) ∧
      ∀ (t : Edhoc4.HashedTranscript P c) (t' : Edhoc4.HashedTranscript P c'),
        Set.InjOn P.sha256 { x | x ∈ t.inputs ++ t'.inputs } →
        Separated (Edhoc4.hmacCalls P c) (Edhoc4.hmacCalls P c') := by
  constructor
  · intro run run' c c' completes _
    refine ⟨fun hmac agree => completes.replay agree, completes.transcript, ?_⟩
    intro t t' injective
    exact t.separated t' injective
  · intro run run' c c' completes _
    refine ⟨fun hmac agree => completes.replay agree, completes.transcript, ?_⟩
    intro t t' injective
    exact t.separated t' injective

open Symbolic in
/-- The two sides of one handshake: of method 0, where all PRKs are one key, and of method 4. -/
theorem purposes_have_own_inputs_both_sides :
    (∃ x : Edhoc03.Exchange primitives 0 (creds03 selftestIds .initiator)
        (creds03 selftestIds .responder) ⟨fresh 32 (.session 0 0), fresh 32 (.session 1 0)⟩,
      x.i₃.prk4e3m = x.i₃.prk2e ∧
      Separated (Edhoc03.hmacCalls primitives x.i₃) (Edhoc03.hmacCalls primitives x.r₂)) ∧
    ∃ x : Edhoc4.Exchange primitives (creds4 selftestIds .initiator)
        (creds4 selftestIds .responder) Edhoc4.runCoins,
      Separated (Edhoc4.hmacCalls primitives x.i₃) (Edhoc4.hmacCalls primitives x.r₂) := by
  have sha256 := primitives_ideal.sha256
  obtain ⟨suite03, suite4⟩ := purposes_have_own_inputs primitives
  constructor
  · have valid (party : Party) := creds03_valid selftestIds party
    have runs : Edhoc03.methodValid 0 = true := rfl
    obtain ⟨x, -, auths, -⟩ :=
      (Edhoc03.Libsodium.of_correct primitives_correct).exchange runs (valid .initiator)
      (valid .responder) ⟨fresh 32 (.session 0 0), fresh 32 (.session 1 0)⟩
    obtain ⟨first, second⟩ := x.initiator_completes.one_key auths
    obtain ⟨-, ⟨t⟩, separated⟩ := suite03 _ _ _ _ x.initiator_completes x.responder_completes
    obtain ⟨-, ⟨t'⟩, -⟩ := suite03 _ _ _ _ x.responder_completes x.initiator_completes
    exact ⟨x, second.trans first, separated t t' sha256.injOn⟩
  · have valid (party : Party) := Edhoc4.creds4_valid selftestIds party
    obtain ⟨x, -⟩ :=
      Edhoc4.exchange_exists primitives_correct (valid .initiator)
      (valid .responder) Edhoc4.runCoins
    obtain ⟨-, ⟨t⟩, separated⟩ := suite4 _ _ _ _ x.initiator_completes x.responder_completes
    obtain ⟨-, ⟨t'⟩, -⟩ := suite4 _ _ _ _ x.responder_completes x.initiator_completes
    exact ⟨x, separated t t' sha256.injOn⟩

end EdhocAuth
