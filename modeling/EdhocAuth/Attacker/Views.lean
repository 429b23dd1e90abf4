/-
What each event of a run says about its messages and its context.

The structures below spell out, over perfect cryptography, what the specifications
of the handlers say about a successful call of an honest context: which messages it
read and wrote, and the secrets and transcript hashes it then holds. The lemmas
`Run.…` read them off a run, together with the earlier event of the same context.
-/

import EdhocAuth.Attacker.World
import EdhocAuth.Attacker.Schedule

namespace EdhocAuth.Attacker

open Symbolic Primitives

/-! ### Diffie–Hellman and X-Wing -/

/-- Both sides of a key exchange get the same secret. -/
theorem dh_comm (a b : Block Sym 32) :
    mulPoint a (primitives.scalarmultBase b) = mulPoint b (primitives.scalarmultBase a) := by
  refine (mulPoint_point _ _ _).trans (Eq.trans ?_ (mulPoint_point _ _ _).symm)
  exact congrArg (point basePoint) (Multiset.pair_comm _ _)

/-- What X-Wing encapsulation returns. -/
noncomputable def xwingCt (coins : Edhoc4.EncCoins Sym) (pk : Block Sym Edhoc4.xwingPk) :
    Block Sym Edhoc4.xwingCt :=
  Block.cat (out 1088 (.kemCt pk.fst.toList coins.mlkem.toList)) (primitives.scalarmultBase coins.x)

noncomputable def xwingSs (coins : Edhoc4.EncCoins Sym) (pk : Block Sym Edhoc4.xwingPk) :
    Block Sym 32 :=
  Edhoc4.xwingCombine primitives (out 32 (.kemSs pk.fst.toList coins.mlkem.toList))
    (mulPoint coins.x pk.snd) (primitives.scalarmultBase coins.x) pk.snd

noncomputable def xwingOpen (ct : Block Sym Edhoc4.xwingCt) (sk : Block Sym Edhoc4.xwingSk) :
    Block Sym 32 :=
  Edhoc4.xwingCombine primitives (kemDec ct.fst sk.fst) (mulPoint sk.snd ct.snd) ct.snd
    (primitives.scalarmultBase sk.snd)

/-- Both ends of an encapsulation to `key` get the same secret. -/
theorem xwingOpen_xwingCt (coins : Edhoc4.EncCoins Sym) (key : Edhoc4.KeyCoins Sym) :
    xwingOpen (xwingCt coins (xwingPk key)) (xwingSk key) = xwingSs coins (xwingPk key) := by
  simp only [xwingOpen, xwingSs, xwingCt, xwingPk, xwingSk, Block.fst_cat, Block.snd_cat,
    kemDec_kemCt, dh_comm key.x coins.x]

/-! ### Methods 0 to 3 -/

/-- The public part of an ephemeral key. -/
noncomputable def ephPub (t : Nat) : Block Sym 32 := primitives.scalarmultBase (ephCoins t)

/-- Both exported keys come from PRK4e3m and TH4. -/
structure Exported (prk4e3m th4 : Block Sym 32) (msk emsk : Block Sym 64) : Prop where
  msk : msk = primitives.hkdfExpand (primitives.hkdfExpand prk4e3m th4.toList 32)
    (ascii "EDHOC-EAP-MSK") 64
  emsk : emsk = primitives.hkdfExpand (primitives.hkdfExpand prk4e3m th4.toList 32)
    (ascii "EDHOC-EAP-EMSK") 64

structure Started03 (ids : Ids) (t : Nat) (m1 : List Sym) (c : Edhoc03.Ctx Sym) : Prop where
  self : c.self = creds03 ids .initiator
  peer : c.peer = (creds03 ids .responder).pub
  cR : c.cR = octet 0x20
  ephSk : c.ephSk = ephCoins t
  hMsg1 : c.hMsg1 = primitives.sha256 m1
  msg1 : ∃ b, m1 = .lit b :: ((ephPub t).toList ++ (octet 0x10 : Block Sym 1).toList)
  done : c.done = false

structure Answered03 (ids : Ids) (t : Nat) (m1 m2 : List Sym) (c : Edhoc03.Ctx Sym)
    (gX : Block Sym 32) (pt2 : List Sym) : Prop where
  peer : c.peer = (creds03 ids .initiator).pub
  ephSk : c.ephSk = ephCoins t
  msg1 : ∃ (b : UInt8) (cI : Block Sym 1), m1 = .lit b :: (gX.toList ++ cI.toList)
  th2 : c.th2 = primitives.sha256 ((ephPub t).toList ++
    ((primitives.sha256 m1).toList ++ (octet 0x20 : Block Sym 1).toList))
  prk2e : c.prk2e = primitives.hkdfExtract c.th2 (mulPoint (ephCoins t) gX)
  auth : ∃ auth, Edhoc03.SelfAuth primitives auth (creds03 ids .responder) gX c.prk2e c.th2
    c.prk3e2m pt2
  msg2 : m2 = (ephPub t).toList ++ wrap "E3KEY" c.prk2e c.th2 pt2
  th3 : c.th3 = primitives.sha256 (c.th2.toList ++ pt2)
  done : c.done = false

structure Accepted03 (ids : Ids) (start : Nat) (m1 m2 m3 : List Sym) (c : Edhoc03.Ctx Sym)
    (gY : Block Sym 32) (pt2 pt3 : List Sym) : Prop where
  th2 : c.th2 = primitives.sha256 (gY.toList ++
    ((primitives.sha256 m1).toList ++ (octet 0x20 : Block Sym 1).toList))
  prk2e : c.prk2e = primitives.hkdfExtract c.th2 (mulPoint (ephCoins start) gY)
  msg2 : m2 = gY.toList ++ wrap "E3KEY" c.prk2e c.th2 pt2
  peer : ∃ auth idCred, Edhoc03.PeerAuth primitives auth (creds03 ids .responder).pub
    (ephCoins start) c.prk2e c.th2 c.prk3e2m idCred pt2
  th3 : c.th3 = primitives.sha256 (c.th2.toList ++ pt2)
  auth : ∃ auth, Edhoc03.SelfAuth primitives auth (creds03 ids .initiator) gY c.prk3e2m c.th3
    c.prk4e3m pt3
  msg3 : m3 = wrap "E3KEY" c.prk3e2m c.th3 pt3
  exported : Exported c.prk4e3m c.th4 c.msk c.emsk

structure Finished03 (ids : Ids) (answer : Nat) (c₀ : Edhoc03.Ctx Sym) (m3 m4 : List Sym)
    (c : Edhoc03.Ctx Sym) (pt3 : List Sym) : Prop where
  msg3 : m3 = wrap "E3KEY" c₀.prk3e2m c₀.th3 pt3
  peer : ∃ auth idCred, Edhoc03.PeerAuth primitives auth (creds03 ids .initiator).pub
    (ephCoins answer) c₀.prk3e2m c₀.th3 c.prk4e3m idCred pt3
  msg4 : m4 = []
  exported : Exported c.prk4e3m c.th4 c.msk c.emsk

section Views03

variable {ids : Ids} {run past : List Event} {n : Nat} {m1 m2 m3 m4 : List Sym}
  {c c₀ : Edhoc03.Ctx Sym}

theorem Run.started03 (h : Run ids run) (at_n : run[n]? = some (.start03 m1 c)) :
    Started03 ids n m1 c := by
  obtain ⟨-, time, step⟩ := h.step at_n
  cases step with
  | start03 ok =>
    rw [time] at ok
    obtain ⟨-, -, -, rfl, rfl⟩ := Edhoc03.iMakeMsg1_eq_ok.mp ok
    exact ⟨rfl, rfl, rfl, rfl, rfl, ⟨_, rfl⟩, rfl⟩

theorem Run.answered03 (h : Run ids run) (at_n : run[n]? = some (.answer03 m1 m2 c)) :
    Known ids (run.take n) m1 ∧ ∃ gX pt2, Answered03 ids n m1 m2 c gX pt2 := by
  obtain ⟨-, time, step⟩ := h.step at_n
  cases step with
  | answer03 known ok =>
    rw [time] at ok
    obtain ⟨c₁, keys, make⟩ := Edhoc03.rHandleMsg1_eq_ok.mp ok
    obtain ⟨-, b, gX, cI, rfl, -, ssE, mul, th2, rfl, rfl⟩ :=
      Edhoc03.rHandleMsg1Keys_eq_ok.mp keys
    obtain ⟨prk3e2m, pt2, auth, ct2, enc, -, rfl, rfl⟩ := Edhoc03.rMakeMsg2_eq_ok.mp make
    obtain rfl := Option.some.inj mul
    obtain rfl := Option.some.inj enc
    exact ⟨known, gX, pt2, rfl, rfl, ⟨b, cI, rfl⟩, rfl, rfl, ⟨_, auth⟩, rfl, rfl, rfl⟩

theorem Run.accepted03 (h : Run ids run) {start : Nat}
    (at_n : run[n]? = some (.accept03 start m2 m3 c)) :
    ∃ m1 c₀, start < n ∧ run[start]? = some (.start03 m1 c₀) ∧ Known ids (run.take n) m2 ∧
      ∃ gY pt2 pt3, Accepted03 ids start m1 m2 m3 c gY pt2 pt3 := by
  obtain ⟨-, time, step⟩ := h.step at_n
  cases step with
  | @accept03 _ _ m1 _ _ c₀ _ at_start _ known ok =>
    obtain ⟨lt, at_start⟩ := getElem?_of_take at_start
    have started := h.started03 at_start
    obtain ⟨call, c₁, opened, pt2, dec, prk3e2m, idCred, peer, make⟩ :=
      Edhoc03.iHandleMsg2_eq_ok.mp ok
    obtain ⟨-, gY, ct2, rfl, -, ssE, mul, th2, rfl, rfl, rfl⟩ :=
      Edhoc03.iHandleMsg2Open_eq_ok.mp opened
    obtain ⟨prk4e3m, pt3, auth, enc, -, rfl⟩ := Edhoc03.iMakeMsg3_eq_ok.mp make
    obtain rfl := Option.some.inj mul
    obtain rfl := Option.some.inj enc
    obtain rfl := aeadOpen_primitives.mp dec
    refine ⟨m1, c₀, lt, at_start, known, gY, pt2, pt3, ?_, ?_, rfl, ?_, rfl, ?_, rfl, ⟨rfl, rfl⟩⟩
    · rw [← started.hMsg1, ← started.cR]
      rfl
    · rw [← started.ephSk]
      rfl
    · rw [← started.ephSk, ← started.peer]
      exact ⟨_, _, peer⟩
    · rw [← started.self]
      exact ⟨_, auth⟩

theorem Run.finished03 (h : Run ids run) {answer : Nat}
    (at_n : run[n]? = some (.finish03 answer m3 m4 c)) :
    ∃ m1 m2 c₀, answer < n ∧ run[answer]? = some (.answer03 m1 m2 c₀) ∧
      Known ids (run.take n) m3 ∧ ∃ pt3, Finished03 ids answer c₀ m3 m4 c pt3 := by
  obtain ⟨-, time, step⟩ := h.step at_n
  cases step with
  | @finish03 _ m1 m2 _ _ c₀ _ at_answer _ known ok =>
    obtain ⟨lt, at_answer⟩ := getElem?_of_take at_answer
    obtain ⟨-, gX, pt2, answered⟩ := h.answered03 at_answer
    obtain ⟨-, rfl, pt3, dec, prk4e3m, idCred, peer, rfl⟩ := Edhoc03.rHandleMsg3_eq_ok.mp ok
    refine ⟨m1, m2, c₀, lt, at_answer, known, pt3, aeadOpen_primitives.mp dec, ?_, rfl, ⟨rfl, rfl⟩⟩
    rw [← answered.ephSk, ← answered.peer]
    exact ⟨_, _, peer⟩

/-- An empty message_4 only sets `done`. -/
theorem Run.closed03 (h : Run ids run) {accept : Nat}
    (at_n : run[n]? = some (.close03 accept m4 c)) :
    ∃ start m2 m3 c₀, accept < n ∧ run[accept]? = some (.accept03 start m2 m3 c₀) ∧
      c = { c₀ with done := true } := by
  obtain ⟨-, -, step⟩ := h.step at_n
  cases step with
  | @close03 _ start m2 m3 _ c₀ _ at_accept _ known ok =>
    obtain ⟨lt, at_accept⟩ := getElem?_of_take at_accept
    exact ⟨start, m2, m3, c₀, lt, at_accept, (Edhoc03.iHandleMsg4_eq_ok.mp ok).2.2⟩

end Views03

/-! ### Method 4 -/

def mldsaSigBlock (party : Party) (rnd msg : List Sym) : Block Sym 2420 :=
  out 2420 (.sig .mldsa (mldsaSeed party) rnd msg)

theorem mldsaSign_creds4 (ids : Ids) (party : Party) (msg : List Sym) (rnd : Block Sym 32) :
    primitives.mldsaSign msg (creds4 ids party).sigSk rnd =
      some (mldsaSigBlock party rnd.toList msg, 2420) :=
  congrArg (Option.map _) (signWith_sigSk _ _ (by decide) _ _ _)

noncomputable def msg1Ct (t : Nat) : Block Sym Edhoc4.xwingCt :=
  xwingCt (msg1Coins t).encB (xwingPk (staticCoins .responder))

structure Started4 (ids : Ids) (t : Nat) (m1 : List Sym) (c : Edhoc4.Ctx Sym) : Prop where
  self : c.self = creds4 ids .initiator
  ephSk : c.ephSk = xwingSk (msg1Coins t).eph
  ssB : c.ssB = xwingSs (msg1Coins t).encB (xwingPk (staticCoins .responder))
  th1 : c.th1 = primitives.sha256 ((xwingPk (msg1Coins t).eph).toList ++ (msg1Ct t).toList)
  msg1 : m1 = (msg1Ct t).toList ++ ((xwingPk (msg1Coins t).eph).toList ++
    wrap "E4KEY" c.prk1e c.th1 [.lit 0x04, .lit 0x10])
  hMsg1 : c.hMsg1 = primitives.sha256 m1
  done : c.done = false

structure Answered4 (ids : Ids) (t : Nat) (m1 m2 : List Sym) (c : Edhoc4.Ctx Sym)
    (pkX : Block Sym Edhoc4.xwingPk) (p : Edhoc4.Pt2 Sym) : Prop where
  msg1 : ∃ (ctB : Block Sym Edhoc4.xwingCt) (ct1 : List Sym),
    m1 = ctB.toList ++ (pkX.toList ++ ct1)
  th2 : c.th2 = primitives.sha256 ((primitives.sha256 m1).toList ++
    ((xwingCt (msg2Coins t).encE pkX).toList ++ (octet 0x20 : Block Sym 1).toList))
  prk2e : c.prk2e = primitives.hkdfExtract c.th2 (xwingSs (msg2Coins t).encE pkX)
  prk3e2m : c.prk3e2m = primitives.hkdfExtract c.prk2e c.ssB
  ssA : c.ssA = xwingSs (msg2Coins t).encA (xwingPk (staticCoins .initiator))
  mac : p.mac = Edhoc4.computeMac primitives c.prk3e2m c.th2 (idBlock (ids .responder)) []
  pt2 : p = ⟨xwingCt (msg2Coins t).encA (xwingPk (staticCoins .initiator)), octet 0x20,
    idBlock (ids .responder), out 1312 (.sigVk .mldsa (mldsaSeed .responder)), p.mac,
    mldsaSigBlock .responder (msg2Coins t).sig.toList
      (Edhoc4.sigMessage c.th2 (idBlock (ids .responder)) p.mac)⟩
  msg2 : m2 = (xwingCt (msg2Coins t).encE pkX).toList ++ wrap "E4KEY" c.prk2e c.th2 p.write
  th3 : c.th3 = primitives.sha256 (c.th2.toList ++ p.write)
  done : c.done = false

structure Accepted4 (ids : Ids) (start t : Nat) (m1 m2 m3 : List Sym) (c : Edhoc4.Ctx Sym)
    (cte : Block Sym Edhoc4.xwingCt) (p2 : Edhoc4.Pt2 Sym) (p3 : Edhoc4.Pt3 Sym) : Prop where
  th2 : c.th2 = primitives.sha256 ((primitives.sha256 m1).toList ++
    (cte.toList ++ (octet 0x20 : Block Sym 1).toList))
  prk2e : c.prk2e = primitives.hkdfExtract c.th2 (xwingOpen cte (xwingSk (msg1Coins start).eph))
  msg2 : m2 = cte.toList ++ wrap "E4KEY" c.prk2e c.th2 p2.write
  prk3e2m : c.prk3e2m = primitives.hkdfExtract c.prk2e
    (xwingSs (msg1Coins start).encB (xwingPk (staticCoins .responder)))
  mac2 : Edhoc4.computeMac primitives c.prk3e2m c.th2 p2.idCred [] = p2.mac
  th3 : c.th3 = primitives.sha256 (c.th2.toList ++ p2.write)
  prk4e3m : ∃ ssA, c.prk4e3m = primitives.hkdfExtract c.prk3e2m ssA
  mac3 : p3.mac = Edhoc4.computeMac primitives c.prk4e3m c.th3 (idBlock (ids .initiator))
    (xwingPk (msg3Coins t).new).toList
  pt3 : p3 = ⟨idBlock (ids .initiator), xwingPk (msg3Coins t).new, p3.mac,
    out 1312 (.sigVk .mldsa (mldsaSeed .initiator)),
    mldsaSigBlock .initiator (msg3Coins t).sig.toList
      (Edhoc4.sigMessage c.th3 (idBlock (ids .initiator)) p3.mac)⟩
  msg3 : m3 = wrap "E4KEY" c.prk3e2m c.th3 p3.write
  th4 : c.th4 = primitives.sha256 (c.th3.toList ++ p3.write)
  exported : Exported c.prk4e3m c.th4 c.msk c.emsk
  done : c.done = false

structure Finished4 (t : Nat) (c₀ : Edhoc4.Ctx Sym) (m3 m4 : List Sym) (c : Edhoc4.Ctx Sym)
    (p3 : Edhoc4.Pt3 Sym) : Prop where
  msg3 : m3 = wrap "E4KEY" c₀.prk3e2m c₀.th3 p3.write
  prk4e3m : c.prk4e3m = primitives.hkdfExtract c₀.prk3e2m c₀.ssA
  mac3 : Edhoc4.computeMac primitives c.prk4e3m c₀.th3 p3.idCred p3.ead.toList = p3.mac
  th4 : c.th4 = primitives.sha256 (c₀.th3.toList ++ p3.write)
  msg4 : m4 = wrap "E4KEY" c.prk4e3m c.th4 (xwingPk (msg4Coins t)).toList
  exported : Exported c.prk4e3m c.th4 c.msk c.emsk

section Views4

variable {ids : Ids} {run past : List Event} {n : Nat} {m1 m2 m3 m4 : List Sym}
  {c c₀ : Edhoc4.Ctx Sym}

/-- What is known of a context that has made message_1 of method 4. -/
theorem Run.started4 (h : Run ids run) (at_n : run[n]? = some (.start4 m1 c)) :
    Started4 ids n m1 c := by
  obtain ⟨-, time, step⟩ := h.step at_n
  cases step with
  | start4 ok =>
    rw [time] at ok
    obtain ⟨-, eph, pair, enc, encaps, ct1, wrapped, -, rfl, rfl⟩ :=
      Edhoc4.iMakeMsg1_eq_ok.mp ok
    obtain rfl := Option.some.inj pair
    obtain rfl := Option.some.inj encaps
    obtain rfl := Option.some.inj wrapped
    exact ⟨rfl, rfl, rfl, rfl, rfl, rfl, rfl⟩

/-- What is known of a context that has answered message_1 of method 4. -/
theorem Run.answered4 (h : Run ids run) (at_n : run[n]? = some (.answer4 m1 m2 c)) :
    Known ids (run.take n) m1 ∧ ∃ pkX p, Answered4 ids n m1 m2 c pkX p := by
  obtain ⟨-, time, step⟩ := h.step at_n
  cases step with
  | answer4 known ok =>
    rw [time] at ok
    obtain ⟨call, c₁, opened, pt1, -, -, make⟩ := Edhoc4.rHandleMsg1_eq_ok.mp ok
    obtain ⟨-, ctB, pkX, ct1, rfl, -, ssB, -, th1, rfl, rfl, rfl⟩ :=
      Edhoc4.rHandleMsg1Open_eq_ok.mp opened
    obtain ⟨enc, encaps, th2, rfl, prk2e, rfl, encA, encapsA, prk3e2m, rfl, mac2, rfl, sigR,
      signed, -, pt2, rfl, ct2, wrapped, -, rfl, rfl⟩ := Edhoc4.rMakeMsg2_eq_ok.mp make
    obtain rfl := Option.some.inj encaps
    obtain rfl := Option.some.inj encapsA
    obtain rfl := Option.some.inj wrapped
    obtain rfl := Option.some.inj ((mldsaSign_creds4 ids .responder _ _).symm.trans signed)
    exact ⟨known, pkX, _, ⟨ctB, ct1, rfl⟩, rfl, rfl, rfl, rfl, rfl, rfl, rfl, rfl, rfl⟩

/-- What is known of a context that has accepted message_2 of method 4, and of its call before. -/
theorem Run.accepted4 (h : Run ids run) {start : Nat}
    (at_n : run[n]? = some (.accept4 start m2 m3 c)) :
    ∃ m1 c₀, start < n ∧ run[start]? = some (.start4 m1 c₀) ∧ Known ids (run.take n) m2 ∧
      ∃ cte p2 p3, Accepted4 ids start n m1 m2 m3 c cte p2 p3 := by
  obtain ⟨-, time, step⟩ := h.step at_n
  cases step with
  | @accept4 _ _ m1 _ _ c₀ _ at_start _ known ok =>
    rw [time] at ok
    obtain ⟨lt, at_start⟩ := getElem?_of_take at_start
    have started := h.started4 at_start
    obtain ⟨call, c₁, opened, pt2, dec, c₂, verify, make⟩ := Edhoc4.iHandleMsg2_eq_ok.mp ok
    obtain ⟨-, cte, ct2, rfl, -, ssE, decaps, th2, rfl, rfl, rfl⟩ :=
      Edhoc4.iHandleMsg2Open_eq_ok.mp opened
    obtain ⟨p2, rfl, prk3e2m, rfl, mac2, -, ssA, -, rfl⟩ := Edhoc4.iVerifyMsg2_eq_ok.mp verify
    obtain ⟨new, pair, mac3, rfl, sigI, signed, pt3, rfl, wrapped, -, rfl⟩ :=
      Edhoc4.iMakeMsg3_eq_ok.mp make
    obtain rfl := Option.some.inj decaps
    obtain rfl := Option.some.inj pair
    obtain rfl := Option.some.inj wrapped
    obtain rfl := aeadOpen_primitives.mp dec
    simp only [started.self] at signed
    obtain rfl := Option.some.inj ((mldsaSign_creds4 ids .initiator _ _).symm.trans signed)
    simp only [started.self, started.hMsg1, started.ssB, started.ephSk] at mac2 known ⊢
    exact ⟨m1, c₀, lt, at_start, known, cte, p2, _, rfl, rfl, rfl, rfl, mac2, rfl, ⟨_, rfl⟩, rfl,
      rfl, rfl, rfl, ⟨rfl, rfl⟩, rfl⟩

/-- What is known of a context that has accepted message_3 of method 4, and of its call before. -/
theorem Run.finished4 (h : Run ids run) {answer : Nat}
    (at_n : run[n]? = some (.finish4 answer m3 m4 c)) :
    ∃ m1 m2 c₀, answer < n ∧ run[answer]? = some (.answer4 m1 m2 c₀) ∧
      Known ids (run.take n) m3 ∧ ∃ p3, Finished4 n c₀ m3 m4 c p3 := by
  obtain ⟨-, time, step⟩ := h.step at_n
  cases step with
  | @finish4 _ _ m1 m2 _ _ c₀ _ at_answer _ known ok =>
    rw [time] at ok
    obtain ⟨lt, at_answer⟩ := getElem?_of_take at_answer
    obtain ⟨call, c₁, opened, pt3, dec, c₂, verify, make⟩ := Edhoc4.rHandleMsg3_eq_ok.mp ok
    obtain ⟨-, rfl, rfl⟩ := Edhoc4.rHandleMsg3Open_eq_ok.mp opened
    obtain ⟨p3, rfl, mac3, -, rfl⟩ := Edhoc4.rVerifyMsg3_eq_ok.mp verify
    obtain ⟨new, pair, wrapped, -, rfl⟩ := Edhoc4.rMakeMsg4_eq_ok.mp make
    obtain rfl := Option.some.inj pair
    obtain rfl := Option.some.inj wrapped
    exact ⟨m1, m2, c₀, lt, at_answer, known, p3, aeadOpen_primitives.mp dec, rfl, mac3, rfl, rfl,
      ⟨rfl, rfl⟩⟩

/-- Message_4 carries the new key of the responder. -/
theorem Run.closed4 (h : Run ids run) {accept : Nat}
    (at_n : run[n]? = some (.close4 accept m4 c)) :
    ∃ start m2 m3 c₀, accept < n ∧ run[accept]? = some (.accept4 start m2 m3 c₀) ∧
      Known ids (run.take n) m4 ∧ ∃ pk : Block Sym Edhoc4.xwingPk,
        m4 = wrap "E4KEY" c₀.prk4e3m c₀.th4 pk.toList ∧
        c = { c₀ with peerNewPk := pk, done := true } := by
  obtain ⟨-, -, step⟩ := h.step at_n
  cases step with
  | @close4 _ start m2 m3 _ c₀ _ at_accept _ known ok =>
    obtain ⟨lt, at_accept⟩ := getElem?_of_take at_accept
    obtain ⟨-, pk, dec, rfl⟩ := Edhoc4.iHandleMsg4_eq_ok.mp ok
    exact ⟨start, m2, m3, c₀, lt, at_accept, known, pk, aeadOpen_primitives.mp dec, rfl⟩

end Views4

end EdhocAuth.Attacker
