/-
When the keys of the UE and of the core network are the same.

`check5gAka` and the core agree on RES* whenever AUTN is accepted. K_AUSF depends on SQN xor AK,
where the core takes the number of its vector and the UE SQN_MS: `keys_agree_iff` says that the two
are the same if and only if no higher number had been stored before.
-/

import EdhocAuth.Primary.Vectors

namespace EdhocAuth.Primary

open Octets Aka

variable {aes : Cipher} {hmac : Hmac} {cfg : UeConfig}
  {sha256 : List UInt8 → Block UInt8 32} {core : CoreNetwork}

/-- The UE can be asked to authenticate by the serving network of this core. -/
structure Attached (cfg : UeConfig) (snn : CString) (u : NasMm) : Prop where
  kept : Kept u
  valid : u.valid = true
  known : u.currentSnn = some snn
  apart : separated cfg.amf = true

/-- The UE after it has accepted a request of the core. -/
def afterAccept (aes : Cipher) (hmac : Hmac) (cfg : UeConfig) (u : NasMm) (m : SqnManager)
    (msg : AuthenticationRequest) (snn : CString) (rand : Block UInt8 16) : NasMm :=
  { u with
    sqnMng := m
    rand := rand.toList
    resStar := resStarOf aes hmac cfg snn rand
    nonCurrentNsCtx := some (contextFor aes hmac cfg m msg snn rand)
    nwConsecutiveAuthFailure := 0 }

/-- What the UE does with a vector of the core whose key set identifier is free. -/
theorem mmStep_free (hmac : Hmac) {u : NasMm} {snn : CString} {msg : AuthenticationRequest}
    {rand : Block UInt8 16} {sqn : Block UInt8 6} (attached : Attached cfg snn u)
    (carries : Carries msg rand (autnFor aes cfg rand sqn))
    (free : u.ksiInUse msg.ngKSI.ksi = false) (new : u.rand ≠ rand.toList) (eph : Ephemeral) :
    (¬ u.sqnMng.Acceptable (SqnManager.number sqn) ∧
        mmStep aes hmac cfg u (.request msg eph) =
          failing u fun v =>
            sendFailure v .synchFailure (some (autsFor aes cfg v.sqnMng rand).toList)) ∨
      (u.sqnMng.Acceptable (SqnManager.number sqn) ∧
        ∃ m, SqnManager.Advanced u.sqnMng (SqnManager.number sqn) m ∧
          mmStep aes hmac cfg u (.request msg eph) =
            (afterAccept aes hmac cfg u m msg snn rand,
              [.authenticationResponse (resStarOf aes hmac cfg snn rand)])) := by
  have step := mmStep_carries aes hmac cfg attached.valid attached.known carries eph
  rw [free, if_neg Bool.false_ne_true, if_pos new] at step
  rw [step]
  rcases validateAutn_autnFor aes attached.kept.reached attached.apart rand sqn with
    ⟨outside, verdict⟩ | ⟨acceptable, verdict, advanced⟩
  · left
    rw [verdict]
    exact ⟨outside, rfl⟩
  · right
    rw [verdict]
    exact ⟨acceptable, _, advanced, accept5gAka_eq _ msg snn rand⟩

structure SameKeys (ctx : NasSecurityContext) (kausf kamf : Block UInt8 32) : Prop where
  kAusf : ctx.kAusf = kausf.toList
  kAmf : ctx.kAmf = kamf.toList

def kamfFor (aes : Cipher) (hmac : Hmac) (cfg : UeConfig) (amf : AmfUe) (rand : Block UInt8 16)
    (sqn : Block UInt8 6) : Block UInt8 32 :=
  ogsKdfKamf hmac amf.supi amf.abba
    (ogsKdfKseaf hmac amf.snn (kausfFor aes hmac cfg amf.snn rand sqn))

/-- If the UE takes the SQN xor AK of the token, both sides derive the same keys. -/
theorem sameKeys {m : SqnManager} {rand : Block UInt8 16} {sqn : Block UInt8 6}
    (serves : Serves aes cfg core)
    (used : usedSqnXorAk aes cfg m rand = sqnXorAkOf (autnFor aes cfg rand sqn)) :
    SameKeys
      (contextFor aes hmac cfg m (gmmBuildAuthenticationRequest core.amf) core.amf.snn rand)
      (kausfFor aes hmac cfg core.amf.snn rand sqn) (kamfFor aes hmac cfg core.amf rand sqn) := by
  have front : (autnFor aes cfg rand sqn).toList.take 6 =
      (sqnXorAkOf (autnFor aes cfg rand sqn)).toList := by
    rw [autnFor_eq, take_token, sqnXorAkOf_token]
  have kausf : (kausfFor aes hmac cfg core.amf.snn rand sqn).toList =
      calculateKAusfFor5gAka hmac (f2345Of aes cfg rand).ck.toList
        (f2345Of aes cfg rand).ik.toList core.amf.snn.octets
        (usedSqnXorAk aes cfg m rand).toList := by
    rw [used, ← front]
    exact kausf_agree hmac _ _ serves.named _
  constructor
  · exact kausf.symm
  · have keys := seafAmf_agree hmac serves.named serves.subscriber serves.abba
      (kausfFor aes hmac cfg core.amf.snn rand sqn)
    rw [kausf] at keys
    show (deriveKeysSeafAmf hmac core.amf.snn.octets cfg.supi.octets _ core.amf.abba).2 = _
    rw [keys, kamfFor, serves.supi]

/-- An exchange in which the UE has answered the vector of the core and the core has confirmed it,
with the SQN xor AK in K_AUSF of either side. -/
structure Confirmed (aes : Cipher) (hmac : Hmac) (sha256 : List UInt8 → Block UInt8 32)
    (cfg : UeConfig) (core : CoreNetwork) (rand : Block UInt8 16) (r : NasMm × List MmOutput)
    (ctx : NasSecurityContext) (kamf : Block UInt8 32) : Prop where
  answer : r.2 = [.authenticationResponse (resStarOf aes hmac cfg core.amf.snn rand)]
  confirmed : (coreStep aes hmac sha256 core (.authenticationResponse
    (resStarOf aes hmac cfg core.amf.snn rand))).2 = [.authenticated kamf]
  context : r.1.nonCurrentNsCtx = some ctx
  ueKey : ctx.kAusf = calculateKAusfFor5gAka hmac (f2345Of aes cfg rand).ck.toList
    (f2345Of aes cfg rand).ik.toList core.amf.snn.octets
    (usedSqnXorAk aes cfg r.1.sqnMng rand).toList
  coreKey : core.ausf.kausf.toList = calculateKAusfFor5gAka hmac (f2345Of aes cfg rand).ck.toList
    (f2345Of aes cfg rand).ik.toList core.amf.snn.octets (sqnXorAkOf core.amf.autn).toList

/-- The answer of the UE to an awaited vector is confirmed. -/
theorem confirmed_afterAccept {rand : Block UInt8 16} {sqn : Block UInt8 6}
    (waiting : Waiting aes hmac sha256 cfg rand sqn core) (u : NasMm) (m : SqnManager) :
    Confirmed aes hmac sha256 cfg core rand
      (afterAccept aes hmac cfg u m (gmmBuildAuthenticationRequest core.amf) core.amf.snn rand,
        [.authenticationResponse (resStarOf aes hmac cfg core.amf.snn rand)])
      (contextFor aes hmac cfg m (gmmBuildAuthenticationRequest core.amf) core.amf.snn rand)
      (kamfFor aes hmac cfg core.amf rand sqn) where
  answer := rfl
  confirmed := congrArg Prod.snd (confirmed waiting)
  context := rfl
  ueKey := rfl
  coreKey := by
    have kausf := kausf_agree hmac (f2345Of aes cfg rand).ck (f2345Of aes cfg rand).ik
      waiting.serves.named (autnFor aes cfg rand sqn)
    have front : (autnFor aes cfg rand sqn).toList.take 6 =
        (sqnXorAkOf (autnFor aes cfg rand sqn)).toList := by
      rw [autnFor_eq, take_token, sqnXorAkOf_token]
    rw [waiting.ausfKausf, waiting.amfAutn, ← front]
    exact kausf

/-- A vector that the UE accepts ends with a confirmation by the core. K_AUSF is derived on the two
sides from the same SQN xor AK if and only if the UE has stored no number above that of the vector,
and then all keys are the same. -/
theorem keys_agree_iff (aes : Cipher) (hmac : Hmac) (sha256 : List UInt8 → Block UInt8 32)
    (cfg : UeConfig) (core : CoreNetwork) (u : NasMm) (rand : Block UInt8 16) (sqn : Block UInt8 6)
    (eph : Ephemeral) (waiting : Waiting aes hmac sha256 cfg rand sqn core)
    (attached : Attached cfg core.amf.snn u) (free : u.ksiInUse core.amf.ksi = false)
    (new : u.rand ≠ rand.toList) (acceptable : u.sqnMng.Acceptable (SqnManager.number sqn)) :
    let r := mmStep aes hmac cfg u (.request (gmmBuildAuthenticationRequest core.amf) eph)
    ∃ ctx kamf,
      Confirmed aes hmac sha256 cfg core rand r ctx kamf ∧
      (usedSqnXorAk aes cfg r.1.sqnMng rand = sqnXorAkOf core.amf.autn ↔
        u.sqnMng.top ≤ SqnManager.number sqn) ∧
      (u.sqnMng.top ≤ SqnManager.number sqn → SameKeys ctx core.ausf.kausf kamf) := by
  rcases mmStep_free hmac attached waiting.carries free new eph with
    ⟨outside, -⟩ | ⟨-, m, advanced, step⟩
  · exact absurd acceptable outside
  · have same := usedSqnXorAk_eq_iff aes cfg advanced rand
    intro r
    rw [show r = _ from step, waiting.amfAutn, waiting.ausfKausf]
    refine ⟨_, _, confirmed_afterAccept waiting u m, same, ?_⟩
    intro above
    exact sameKeys waiting.serves (same.mpr above)

/-! ### A subscriber -/

/-- A cipher and hashes that are easily computed. -/
def plainCipher : Cipher := fun _ b => b

def plainHmac : Hmac := fun key text => Block.read 0 32 (text.reverse ++ key)

def plainSha256 (text : List UInt8) : Block UInt8 32 := Block.read 0 32 text.reverse

def plainCfg : UeConfig where
  key := Block.fill 16 0
  opC := Block.fill 16 0
  opType := .opc
  amf := ⟨[0x80, 0], rfl⟩
  supi := CString.ofBuffer [0x31]

def plainSnn : CString := CString.ofBuffer [0x35]

/-- The core before the first authentication of this subscriber. -/
def plainCore : CoreNetwork where
  doc :=
    { k := plainCfg.key
      useOpc := true
      opc := plainCfg.opC
      op := Block.fill 16 0
      amf := plainCfg.amf
      sqn := 32 }
  udm :=
    { k := plainCfg.key
      opc := plainCfg.opC
      amf := plainCfg.amf
      sqn := sqnBuffer 0
      rand := Block.fill 16 0
      servingNetworkName := plainSnn }
  ausf :=
    { servingNetworkName := plainSnn
      rand := Block.fill 16 0
      xresStar := Block.fill 16 0
      hxresStar := Block.fill 16 0
      kausf := Block.fill 32 0 }
  amf :=
    { authenticating := false
      supi := plainCfg.supi
      snn := plainSnn
      rand := Block.fill 16 0
      autn := Block.fill 16 0
      hxresStar := Block.fill 16 0
      ksi := ksiNotAvailable
      abba := [0, 0]
      kamf := none
      t3560 := ⟨none, 0⟩ }

/-- The UE finds the serving network. -/
def plainAftermath : Aftermath where
  deletesRand := false
  currentNsCtx := none
  nonCurrentNsCtx := none
  valid := true
  currentSnn := some plainSnn
  connected := true

def plainUe : NasMm := plainAftermath.apply (mmInit true)

def plainRand : Block UInt8 16 := Block.fill 16 1

def plainEph : Ephemeral where
  pubEcdhe := Block.fill 32 0
  sharedSecret := []
  pubEcdheHpqc := Block.fill 32 0
  mlkemCiphertext := Block.fill 1088 0
  hybridSharedSecret := []

/-- The core of the example has the keys of the UE. -/
theorem plain_serves : Serves plainCipher plainCfg plainCore where
  k := rfl
  opc := rfl
  field := rfl
  sqn := by decide
  supi := rfl
  subscriber := by constructor <;> decide
  named := by constructor <;> decide
  abba := by constructor <;> decide

/-- The UE of the example is attached. -/
theorem plain_attached : Attached plainCfg plainSnn plainUe where
  kept := ⟨(kept_init true).reached, rfl, rfl⟩
  valid := rfl
  known := rfl
  apart := by decide

/-- The UE registers without a key set identifier. -/
def plainStart : CoreInput := .start ksiNotAvailable plainRand

/-- The core that has sent its first vector. -/
def plainAsking : CoreNetwork :=
  (coreStep plainCipher plainHmac plainSha256 plainCore plainStart).1

/-- After the first request the core waits for the answer to its first vector. -/
theorem plain_waiting :
    Waiting plainCipher plainHmac plainSha256 plainCfg plainRand (sqnBuffer 32) plainAsking :=
  (started plainHmac plainSha256 plain_serves ksiNotAvailable plainRand).waiting

theorem plain_acceptable :
    plainUe.sqnMng.Acceptable (SqnManager.number (sqnBuffer 32)) := by decide +kernel

/-- The UE of the example answers that vector. -/
theorem plain_answer :
    (mmStep plainCipher plainHmac plainCfg plainUe
      (.request (gmmBuildAuthenticationRequest plainAsking.amf) plainEph)).2 =
      [.authenticationResponse (resStarOf plainCipher plainHmac plainCfg plainSnn plainRand)] := by
  rcases mmStep_free plainHmac plain_attached plain_waiting.carries rfl (by decide)
    plainEph with ⟨outside, -⟩ | ⟨-, m, -, step⟩
  · exact absurd plain_acceptable outside
  · rw [step]

/-- The first vector gives both sides the same keys. -/
theorem plain_keys : ∃ ctx kamf,
    Confirmed plainCipher plainHmac plainSha256 plainCfg plainAsking plainRand
      (mmStep plainCipher plainHmac plainCfg plainUe
        (.request (gmmBuildAuthenticationRequest plainAsking.amf) plainEph)) ctx kamf ∧
      SameKeys ctx plainAsking.ausf.kausf kamf := by
  obtain ⟨ctx, kamf, confirmed, -, same⟩ := keys_agree_iff plainCipher plainHmac plainSha256
    plainCfg plainAsking plainUe plainRand (sqnBuffer 32) plainEph plain_waiting plain_attached rfl
    (by decide) plain_acceptable
  exact ⟨ctx, kamf, confirmed, same (by decide +kernel)⟩

end EdhocAuth.Primary
