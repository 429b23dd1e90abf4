/-
The ledger of a run, and the bound on the attacker's knowledge in it.

`ledger` is read off the events of a run and is coarser than the run: every MAC and
every signature over a transcript hash that some event is bound to is listed,
whatever its key, and the long-term origins are open once they have leaked. The
randomness of the handshakes is never listed.

`Run.safe`: in every run everything the attacker has seen is safe. No
authentication is needed for this; each event only puts out what its own entry in
the ledger covers.
-/

import EdhocAuth.Attacker.Views

namespace EdhocAuth.Attacker

open Symbolic Primitives

/-! ### The ledger -/

/-- The transcript hash that the proof and the ciphertext of an event are bound to. -/
def Event.th : Event → Option (Block Sym 32)
  | .answer03 _ _ c => some c.th2
  | .accept03 _ _ _ c => some c.th3
  | .start4 _ c => some c.th1
  | .answer4 _ _ c => some c.th2
  | .accept4 _ _ _ c => some c.th3
  | .finish4 _ _ _ c => some c.th4
  | .start03 .. | .finish03 .. | .close03 .. | .close4 .. | .leak => none

/-- The ciphertext in the message of an event, which ends the message. -/
def Event.body : Event → List Sym
  | .answer03 _ m2 _ => m2.drop Edhoc03.xPk
  | .accept03 _ _ m3 _ => m3
  | .start4 m1 _ => (m1.drop Edhoc4.xwingCt).drop Edhoc4.xwingPk
  | .answer4 _ m2 _ => m2.drop Edhoc4.xwingCt
  | .accept4 _ _ m3 _ => m3
  | .finish4 _ _ m4 _ => m4
  | .start03 .. | .finish03 .. | .close03 .. | .close4 .. | .leak => []

def ledger (run : List Event) : Ledger where
  opened
    | .attacker _ => True
    | .longTerm _ _ => .leak ∈ run
    | .session _ _ => False
  maced _ m := m.length ∈ macLengths ∧ ∃ e ∈ run, ∃ th, e.th = some th ∧ th.toList <+: m
  encrypted k n ad pt := ∃ e ∈ run, ∃ th, e.th = some th ∧ th.toList = ad ∧
    e.body = sealed k n ad pt
  signed _ _ m := ∃ e ∈ run, ∃ th, e.th = some th ∧ th.toList <+: m

theorem ledger_onlyMacs (run : List Event) : (ledger run).OnlyMacs := fun _ _ h => h.1

/-- A longer run puts out no less. -/
theorem ledger_sub {run run' : List Event} (sub : run ⊆ run') : (ledger run).Sub (ledger run') where
  opened {o} h := by
    cases o with
    | attacker n => exact h
    | longTerm party key => exact sub h
    | session time slot => exact h
  maced := fun ⟨len, e, mem, h⟩ => ⟨len, e, sub mem, h⟩
  encrypted := fun ⟨e, mem, h⟩ => ⟨e, sub mem, h⟩
  signed := fun ⟨e, mem, h⟩ => ⟨e, sub mem, h⟩

/-- The randomness of a handshake is not safe in any run. -/
theorem not_safeAll_session {run : List Event} {n t slot : Nat} (pos : 0 < n) :
    ¬ SafeAll (ledger run) (fresh n (.session t slot)).toList :=
  fun h => safe_rnd.mp (h.out_zero pos)

/-- Nor is a long-term secret, as long as it has not leaked. -/
theorem not_safeAll_longTerm {run : List Event} (kept : .leak ∉ run) {n key : Nat} {party : Party}
    (pos : 0 < n) : ¬ SafeAll (ledger run) (fresh n (.longTerm party key)).toList :=
  fun h => kept (safe_rnd.mp (h.out_zero pos))

/-! ### Strings that are safe in every ledger -/

variable {L : Ledger}

theorem safeAll_idBlock (id : Block UInt8 3) : SafeAll L (idBlock id).toList := by
  intro x mem
  obtain ⟨b, -, rfl⟩ := List.mem_map.mp mem
  exact .lit b

theorem safeAll_octet (b : UInt8) : SafeAll L (octet b : Block Sym 1).toList := by
  intro x mem
  obtain rfl := List.mem_singleton.mp mem
  exact .lit b

theorem safeAll_sha256 {m : List Sym} (h : SafeAll L m) : SafeAll L (primitives.sha256 m).toList :=
  safeAll_out fun _ => .hash h

/-- Public X-Wing keys may be known. -/
theorem safeAll_xwingPk (key : Edhoc4.KeyCoins Sym) : SafeAll L (xwingPk key).toList := by
  rw [xwingPk, Block.toList_cat, safeAll_append]
  exact ⟨safeAll_out fun _ => .kemPk, safeAll_scalarmultBase _⟩

/-- Ciphertexts of X-Wing may be known if their key may. -/
theorem safeAll_xwingCt {coins : Edhoc4.EncCoins Sym} {pk : Block Sym Edhoc4.xwingPk}
    (h : SafeAll L pk.toList) : SafeAll L (xwingCt coins pk).toList := by
  rw [xwingCt, Block.toList_cat, safeAll_append]
  exact ⟨safeAll_out fun _ => .kemCt (h.take _), safeAll_scalarmultBase _⟩

/-- Two secret scalars are enough to protect an X-Wing secret. -/
theorem not_safeAll_xwingSs {coins : Edhoc4.EncCoins Sym} {key : Edhoc4.KeyCoins Sym}
    (mine : ¬ SafeAll L coins.x.toList) (theirs : ¬ SafeAll L key.x.toList) :
    ¬ SafeAll L (xwingSs coins (xwingPk key)).toList := by
  intro h
  have hashed := safe_hash.mp (SafeAll.out_zero (by decide) h)
  simp only [safeAll_append] at hashed
  have dh := hashed.1.1.1.2
  rw [xwingPk, Block.snd_cat] at dh
  change SafeAll L (mulPoint coins.x (point basePoint {key.x.toList})).toList at dh
  rw [mulPoint_point] at dh
  exact not_safe_point mine theirs (dh.out_zero (by decide))

/-- A shared secret of two secret scalars is not known. -/
theorem not_safeAll_dh {s t : Block Sym 32} (hs : ¬ SafeAll L s.toList)
    (ht : ¬ SafeAll L t.toList) :
    ¬ SafeAll L (mulPoint s (primitives.scalarmultBase t)).toList := by
  intro h
  change SafeAll L (mulPoint s (point basePoint {t.toList})).toList at h
  rw [mulPoint_point] at h
  exact not_safe_point hs ht (h.out_zero (by decide))

/-! ### Proofs of possession -/

section Proofs

variable {run : List Event} {e : Event} {th : Block Sym 32}

/-- A MAC over a listed transcript hash is safe. -/
theorem safeAll_mac (mem : e ∈ run) (bound : e.th = some th) {prk : Block Sym 32} {rest : List Sym}
    (len : rest.length + 33 ∈ macLengths) :
    SafeAll (ledger run) (primitives.hkdfExpand prk (th.toList ++ rest) 8).toList := by
  intro x hx
  obtain ⟨i, rfl⟩ := mem_mac hx
  refine .maced ⟨?_, e, mem, th, bound, ?_⟩
  · have : (th.toList ++ rest ++ [Sym.lit 1]).length = rest.length + 33 := by
      simp only [List.length_append, List.Vector.toList_length, List.length_singleton]
      omega
    rwa [this]
  · rw [List.append_assoc]
    exact List.prefix_append _ _

/-- So is a signature over it. -/
theorem safeAll_signature (mem : e ∈ run) (bound : e.th = some th) {scheme : Scheme} {len : Nat}
    {seed rnd rest : List Sym} (hth : SafeAll (ledger run) th.toList)
    (hrest : SafeAll (ledger run) rest) :
    SafeAll (ledger run) (out len (.sig scheme seed rnd (th.toList ++ rest))).toList :=
  safeAll_out fun _ => .signed ⟨e, mem, th, bound, List.prefix_append _ _⟩
    (safeAll_append.mpr ⟨hth, hrest⟩)

/-- The ciphertext of an event is safe if its plaintext is. -/
theorem safeAll_wrapped (mem : e ∈ run) (bound : e.th = some th) {label : String}
    {prk : Block Sym 32} {pt : List Sym} (body : e.body = wrap label prk th pt)
    (h : SafeAll (ledger run) pt) : SafeAll (ledger run) (wrap label prk th pt) :=
  safeAll_wrap ⟨e, mem, th, bound, rfl, body⟩ h

/-- Whatever a party authenticates with in methods 0 to 3 is safe. -/
theorem safeAll_selfAuth (mem : e ∈ run) (bound : e.th = some th)
    (hth : SafeAll (ledger run) th.toList) {auth : Edhoc03.Auth} {ids : Ids} {party : Party}
    {g prk prk' : Block Sym 32} {pt : List Sym}
    (h : Edhoc03.SelfAuth primitives auth (creds03 ids party) g prk th prk' pt) :
    SafeAll (ledger run) pt := by
  have id : SafeAll (ledger run) (creds03 ids party).idCred.toList := safeAll_idBlock _
  have mac (key : Block Sym 32) : SafeAll (ledger run)
      (Edhoc03.computeMac primitives prk' th (creds03 ids party).idCred key).toList := by
    rw [Edhoc03.computeMac, List.append_assoc]
    refine safeAll_mac mem bound ?_
    rw [List.length_append, List.Vector.toList_length, List.Vector.toList_length]
    decide
  cases auth with
  | stat =>
    obtain ⟨-, rfl⟩ := h
    simp only [Edhoc03.AuthPt.write, safeAll_append]
    exact ⟨id, safeAll_scalarmultBase _, mac _⟩
  | sig =>
    obtain ⟨rfl, sig, signed, rfl⟩ := h
    obtain rfl := Option.some.inj ((signWith_sigSk _ _ (by decide) _ _ _).symm.trans signed)
    simp only [Edhoc03.AuthPt.write, safeAll_append]
    refine ⟨id, safeAll_out fun _ => .sigVk, ?_⟩
    rw [Edhoc03.sigMessage, List.append_assoc]
    exact safeAll_signature mem bound hth (safeAll_append.mpr ⟨id, mac _⟩)

end Proofs

/-! ### Every message is safe -/

section Messages

variable {ids : Ids} {run : List Event} {n : Nat} {m1 m2 m3 m4 : List Sym}

/-- The transcript hash TH2 of methods 0 to 3. -/
theorem safeAll_th2 {g : Block Sym 32} (hg : SafeAll L g.toList) (h1 : SafeAll L m1) :
    SafeAll L (primitives.sha256 (g.toList ++
      ((primitives.sha256 m1).toList ++ (octet 0x20 : Block Sym 1).toList))).toList := by
  refine safeAll_sha256 ?_
  simp only [safeAll_append]
  exact ⟨hg, safeAll_sha256 h1, safeAll_octet _⟩

/-- The transcript hash TH2 of method 4. -/
theorem safeAll_th2_xwing {ct : Block Sym Edhoc4.xwingCt} (hct : SafeAll L ct.toList)
    (h1 : SafeAll L m1) :
    SafeAll L (primitives.sha256 ((primitives.sha256 m1).toList ++
      (ct.toList ++ (octet 0x20 : Block Sym 1).toList))).toList := by
  refine safeAll_sha256 ?_
  simp only [safeAll_append]
  exact ⟨safeAll_sha256 h1, hct, safeAll_octet _⟩

/-- Message_1 of methods 0 to 3 gives nothing away. -/
theorem Started03.safeAll {c : Edhoc03.Ctx Sym} (h : Started03 ids n m1 c) : SafeAll L m1 := by
  obtain ⟨b, rfl⟩ := h.msg1
  simp only [safeAll_cons, safeAll_append]
  exact ⟨.lit b, safeAll_scalarmultBase _, safeAll_octet _⟩

/-- The ciphertext in message_2 of methods 0 to 3. -/
theorem Answered03.body {c : Edhoc03.Ctx Sym} {gX : Block Sym 32} {pt2 : List Sym}
    (h : Answered03 ids n m1 m2 c gX pt2) :
    (Event.answer03 m1 m2 c).body = wrap "E3KEY" c.prk2e c.th2 pt2 := by
  rw [Event.body, h.msg2, Block.drop_toList_append]

/-- Message_2 of methods 0 to 3 gives away no more than message_1. -/
theorem Answered03.safeAll {c : Edhoc03.Ctx Sym} {gX : Block Sym 32} {pt2 : List Sym}
    (h : Answered03 ids n m1 m2 c gX pt2) (mem : .answer03 m1 m2 c ∈ run)
    (h1 : SafeAll (ledger run) m1) : SafeAll (ledger run) m2 := by
  have th2 : SafeAll (ledger run) c.th2.toList := by
    rw [h.th2]
    exact safeAll_th2 (safeAll_scalarmultBase _) h1
  obtain ⟨auth, self⟩ := h.auth
  rw [h.msg2, safeAll_append]
  exact ⟨safeAll_scalarmultBase _,
    safeAll_wrapped mem rfl h.body (safeAll_selfAuth mem rfl th2 self)⟩

/-- Message_3 of methods 0 to 3 gives away no more than the messages before. -/
theorem Accepted03.safeAll {start : Nat} {c : Edhoc03.Ctx Sym} {gY : Block Sym 32}
    {pt2 pt3 : List Sym} (h : Accepted03 ids start m1 m2 m3 c gY pt2 pt3)
    (mem : .accept03 start m2 m3 c ∈ run) (h1 : SafeAll (ledger run) m1)
    (h2 : SafeAll (ledger run) m2) : SafeAll (ledger run) m3 := by
  rw [h.msg2, safeAll_append] at h2
  have th3 : SafeAll (ledger run) c.th3.toList := by
    rw [h.th3, h.th2]
    exact safeAll_sha256 (safeAll_append.mpr ⟨safeAll_th2 h2.1 h1, safeAll_of_wrap h2.2⟩)
  obtain ⟨auth, self⟩ := h.auth
  rw [h.msg3]
  exact safeAll_wrapped mem rfl h.msg3 (safeAll_selfAuth mem rfl th3 self)

/-- Message_1 of method 4 gives nothing away. -/
theorem Started4.safeAll {c : Edhoc4.Ctx Sym} (h : Started4 ids n m1 c)
    (mem : .start4 m1 c ∈ run) : SafeAll (ledger run) m1 := by
  have body : (Event.start4 m1 c).body = wrap "E4KEY" c.prk1e c.th1 [.lit 0x04, .lit 0x10] := by
    rw [Event.body, h.msg1, Block.drop_toList_append, Block.drop_toList_append]
  rw [h.msg1]
  simp only [safeAll_append]
  refine ⟨safeAll_xwingCt (safeAll_xwingPk _), safeAll_xwingPk _,
    safeAll_wrapped mem rfl body ?_⟩
  simp only [safeAll_cons, safeAll_nil, and_true]
  exact ⟨.lit _, .lit _⟩

/-- The ciphertext in message_2 of method 4. -/
theorem Answered4.body {c : Edhoc4.Ctx Sym} {pkX : Block Sym Edhoc4.xwingPk}
    {p : Edhoc4.Pt2 Sym} (h : Answered4 ids n m1 m2 c pkX p) :
    (Event.answer4 m1 m2 c).body = wrap "E4KEY" c.prk2e c.th2 p.write := by
  rw [Event.body, h.msg2, Block.drop_toList_append]

/-- Message_2 of method 4 gives away no more than message_1. -/
theorem Answered4.safeAll {c : Edhoc4.Ctx Sym} {pkX : Block Sym Edhoc4.xwingPk}
    {p : Edhoc4.Pt2 Sym} (h : Answered4 ids n m1 m2 c pkX p) (mem : .answer4 m1 m2 c ∈ run)
    (h1 : SafeAll (ledger run) m1) : SafeAll (ledger run) m2 := by
  have hpk : SafeAll (ledger run) pkX.toList := by
    obtain ⟨ctB, ct1, rfl⟩ := h.msg1
    simp only [safeAll_append] at h1
    exact h1.2.1
  have th2 : SafeAll (ledger run) c.th2.toList := by
    rw [h.th2]
    exact safeAll_th2_xwing (safeAll_xwingCt hpk) h1
  have id : SafeAll (ledger run) (idBlock (ids .responder)).toList := safeAll_idBlock _
  have mac : SafeAll (ledger run) p.mac.toList := by
    rw [h.mac, Edhoc4.computeMac, List.append_assoc]
    exact safeAll_mac mem rfl (by simp [macLengths])
  have pt2 : SafeAll (ledger run) p.write := by
    rw [h.pt2]
    simp only [Edhoc4.Pt2.write, safeAll_append]
    refine ⟨safeAll_xwingCt (safeAll_xwingPk _), safeAll_octet _, id,
      safeAll_out fun _ => .sigVk, mac, ?_⟩
    rw [mldsaSigBlock, Edhoc4.sigMessage, List.append_assoc]
    exact safeAll_signature mem rfl th2 (safeAll_append.mpr ⟨id, mac⟩)
  rw [h.msg2, safeAll_append]
  exact ⟨safeAll_xwingCt hpk, safeAll_wrapped mem rfl h.body pt2⟩

/-- Message_3 of method 4 gives away no more than the messages before. -/
theorem Accepted4.safeAll {start : Nat} {c : Edhoc4.Ctx Sym} {cte : Block Sym Edhoc4.xwingCt}
    {p2 : Edhoc4.Pt2 Sym} {p3 : Edhoc4.Pt3 Sym}
    (h : Accepted4 ids start n m1 m2 m3 c cte p2 p3) (mem : .accept4 start m2 m3 c ∈ run)
    (h1 : SafeAll (ledger run) m1) (h2 : SafeAll (ledger run) m2) :
    SafeAll (ledger run) m3 := by
  rw [h.msg2, safeAll_append] at h2
  have th3 : SafeAll (ledger run) c.th3.toList := by
    rw [h.th3, h.th2]
    exact safeAll_sha256 (safeAll_append.mpr ⟨safeAll_th2_xwing h2.1 h1, safeAll_of_wrap h2.2⟩)
  have id : SafeAll (ledger run) (idBlock (ids .initiator)).toList := safeAll_idBlock _
  have mac : SafeAll (ledger run) p3.mac.toList := by
    rw [h.mac3, Edhoc4.computeMac, List.append_assoc]
    refine safeAll_mac mem rfl ?_
    rw [List.length_append, List.Vector.toList_length, List.Vector.toList_length]
    decide
  have pt3 : SafeAll (ledger run) p3.write := by
    rw [h.pt3]
    simp only [Edhoc4.Pt3.write, safeAll_append]
    refine ⟨id, safeAll_xwingPk _, mac, safeAll_out fun _ => .sigVk, ?_⟩
    rw [mldsaSigBlock, Edhoc4.sigMessage, List.append_assoc]
    exact safeAll_signature mem rfl th3 (safeAll_append.mpr ⟨id, mac⟩)
  rw [h.msg3]
  exact safeAll_wrapped mem rfl h.msg3 pt3

/-- Message_4 gives nothing away. -/
theorem Finished4.safeAll {answer : Nat} {c c₀ : Edhoc4.Ctx Sym} {p3 : Edhoc4.Pt3 Sym}
    (h : Finished4 n c₀ m3 m4 c p3) (mem : .finish4 answer m3 m4 c ∈ run) :
    SafeAll (ledger run) m4 := by
  rw [h.msg4]
  exact safeAll_wrapped mem rfl h.msg4 (safeAll_xwingPk _)

end Messages

/-! ### The bound -/

section Bound

variable {ids : Ids} {run : List Event} {n : Nat} {e : Event}

theorem safeAll_publicKeys (ids : Ids) (party : Party) : SafeAll L (publicKeys ids party) := by
  simp only [publicKeys, safeAll_append]
  exact ⟨safeAll_out fun _ => .sigVk, safeAll_scalarmultBase _, safeAll_xwingPk _,
    safeAll_out fun _ => .sigVk, safeAll_idBlock _⟩

/-- After the leak the long-term secrets are known. -/
theorem safeAll_secretKeys (leaked : .leak ∈ run) (ids : Ids) (party : Party) :
    SafeAll (ledger run) (secretKeys ids party) := by
  have opened (n key : Nat) : SafeAll (ledger run) (fresh n (.longTerm party key)).toList :=
    safeAll_out fun _ => .rnd leaked
  simp only [secretKeys, safeAll_append]
  refine ⟨safeAll_out fun _ => .sigSk (opened _ _), opened _ _, ?_,
    safeAll_out fun _ => .sigSk (opened _ _)⟩
  show SafeAll (ledger run) (xwingSk (staticCoins party)).toList
  rw [xwingSk, Block.toList_cat, safeAll_append]
  exact ⟨safeAll_out fun _ => .kemSk (opened _ _), opened _ _⟩

/-- The message of an event is safe if everything the attacker could put together
before it is. -/
theorem Run.sent_safe (h : Run ids run) (at_n : run[n]? = some e)
    (before : ∀ {m}, Known ids (run.take n) m → SafeAll (ledger run) m) :
    SafeAll (ledger run) e.sent := by
  have mem := List.mem_of_getElem? at_n
  cases e with
  | start03 m1 c => exact (h.started03 at_n).safeAll
  | answer03 m1 m2 c =>
    obtain ⟨known, gX, pt2, answered⟩ := h.answered03 at_n
    exact answered.safeAll mem (before known)
  | accept03 start m2 m3 c =>
    obtain ⟨m1, c₀, -, at_start, known, gY, pt2, pt3, accepted⟩ := h.accepted03 at_n
    exact accepted.safeAll mem (h.started03 at_start).safeAll (before known)
  | finish03 answer m3 m4 c =>
    obtain ⟨m1, m2, c₀, -, -, -, pt3, finished⟩ := h.finished03 at_n
    exact finished.msg4 ▸ safeAll_nil
  | start4 m1 c => exact (h.started4 at_n).safeAll mem
  | answer4 m1 m2 c =>
    obtain ⟨known, pkX, p, answered⟩ := h.answered4 at_n
    exact answered.safeAll mem (before known)
  | accept4 start m2 m3 c =>
    obtain ⟨m1, c₀, -, at_start, known, cte, p2, p3, accepted⟩ := h.accepted4 at_n
    exact accepted.safeAll mem ((h.started4 at_start).safeAll (List.mem_of_getElem? at_start))
      (before known)
  | finish4 answer m3 m4 c =>
    obtain ⟨m1, m2, c₀, -, -, -, p3, finished⟩ := h.finished4 at_n
    exact finished.safeAll mem
  | close03 | close4 | leak => exact safeAll_nil

/-- From what is safe the attacker computes only what is safe. -/
theorem Known.safeAll {past : List Event} {m : List Sym} (h : Known ids past m)
    (seen : ∀ x, Seen ids past x → Safe (ledger run) x) : SafeAll (ledger run) m :=
  fun x mem => (h x mem).safe (fun _ => trivial) seen

/-- Everything the attacker has seen is safe, in every run. -/
theorem Run.safe (h : Run ids run) {x : Sym} (seen : Seen ids run x) : Safe (ledger run) x := by
  induction h generalizing x with
  | nil =>
    obtain ⟨party, mem⟩ | ⟨e, mem, -⟩ | ⟨leaked, -⟩ := seen
    · exact safeAll_publicKeys ids party x mem
    · cases mem
    · cases leaked
  | @snoc past e hpast step ih =>
    have old : past ⊆ past ++ [e] := List.subset_append_left _ _
    have before {y : Sym} (hy : Seen ids past y) : Safe (ledger (past ++ [e])) y :=
      (ih hy).mono (ledger_sub old)
    obtain ⟨party, mem⟩ | ⟨e', mem, sent⟩ | ⟨leaked, party, mem⟩ := seen
    · exact safeAll_publicKeys ids party x mem
    · rcases List.mem_append.mp mem with mem | mem
      · exact before (.inr (.inl ⟨e', mem, sent⟩))
      · obtain rfl := List.mem_singleton.mp mem
        refine (Run.snoc hpast step).sent_safe (n := past.length) (by simp) (fun known => ?_) x sent
        rw [List.take_left] at known
        exact known.safeAll fun y hy => before hy
    · exact safeAll_secretKeys leaked ids party x mem

/-- Whatever the attacker can put together is safe. -/
theorem Run.known_safe (h : Run ids run) {m : List Sym} (known : Known ids run m) :
    SafeAll (ledger run) m :=
  known.safeAll fun _ => h.safe

end Bound

end EdhocAuth.Attacker
