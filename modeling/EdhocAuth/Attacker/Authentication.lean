/-
Authentication against an active attacker, methods 0 to 4.

Whoever accepts message_2 or message_3 checks a proof over a transcript hash: a
signature, or a MAC under a PRK that contains a secret with the other side's static
key. As long as no long-term key has leaked, such a proof comes from an event bound
to that very transcript hash (`peerAuth_bound`, `mac_bound`). The length of the
hashed string tells which kind of event that is (`Run.th_length`), and its content
which messages it has seen. Then the ephemeral keys of both sides are honest, the
AEAD key is not safe, and the ciphertext is the one of that event as well.
-/

import EdhocAuth.Attacker.Ledger
import EdhocAuth.Lib.Correspondence

namespace EdhocAuth.Attacker

open Symbolic Primitives

variable {ids : Ids} {run : List Event} {n t : Nat} {e : Event} {m1 m2 m3 m4 : List Sym}

/-! ### Proofs come from events -/

/-- A string that starts with `th` and with the transcript hash of an event. -/
theorem th_of_prefix {th th' : Block Sym 32} {rest : List Sym}
    (h : th'.toList <+: th.toList ++ rest) : th' = th := by
  obtain ⟨rest', h⟩ := h
  exact (Block.append_inj h).1

/-- A safe MAC over `th` under a PRK that is not safe belongs to an event. -/
theorem mac_bound {prk th : Block Sym 32} {rest : List Sym}
    (hprk : ¬ SafeAll (ledger run) prk.toList)
    (h : SafeAll (ledger run) (primitives.hkdfExpand prk (th.toList ++ rest) 8).toList) :
    ∃ e ∈ run, e.th = some th := by
  rcases safe_hmac.mp (safe_of_mac h) with ⟨key, -⟩ | ⟨-, e, mem, th', bound, front⟩
  · exact absurd key hprk
  · rw [List.append_assoc] at front
    exact ⟨e, mem, th_of_prefix front ▸ bound⟩

/-- A safe ciphertext under a PRK that is not safe is the one of an event. -/
theorem wrap_bound {label : String} (five : label.toList.length = 5) {prk th : Block Sym 32}
    {pt : List Sym} (hprk : ¬ SafeAll (ledger run) prk.toList)
    (h : SafeAll (ledger run) (wrap label prk th pt)) :
    ∃ e ∈ run, e.th = some th ∧ e.body = wrap label prk th pt := by
  obtain ⟨k, n, eq, e, mem, th', bound, ad, body⟩ :=
    encrypted_of_safeAll_wrap (ledger_onlyMacs run) five hprk h
  obtain rfl := List.Vector.eq _ _ ad
  exact ⟨e, mem, bound, body.trans eq.symm⟩

/-- What a side accepts in methods 0 to 3 belongs to an event with the same transcript
hash. -/
theorem peerAuth_bound (kept : .leak ∉ run) {auth : Edhoc03.Auth} {party : Party}
    {prk th prk' : Block Sym 32} {idCred : Block Sym 3} {pt : List Sym}
    (h : Edhoc03.PeerAuth primitives auth (creds03 ids party).pub (ephCoins t) prk th prk'
      idCred pt)
    (safe : SafeAll (ledger run) pt) : ∃ e ∈ run, e.th = some th := by
  cases auth with
  | stat =>
    obtain ⟨⟨ss, mul, rfl⟩, rfl⟩ := h
    obtain rfl := Option.some.inj mul
    simp only [Edhoc03.AuthPt.write, safeAll_append, Edhoc03.computeMac, List.append_assoc] at safe
    refine mac_bound (fun hprk => ?_) safe.2.2
    exact not_safeAll_dh (not_safeAll_session (by decide)) (not_safeAll_longTerm kept (by decide))
      (safeAll_of_hkdfExtract (ledger_onlyMacs run) hprk).2
  | sig =>
    obtain ⟨rfl, sig, verified, rfl⟩ := h
    obtain ⟨seed, rnd, vk, rfl⟩ := of_decide_eq_true verified
    obtain rfl := (Sym.sigVk.inj (out_inj (by decide) vk)).2.1
    simp only [Edhoc03.AuthPt.write, safeAll_append] at safe
    obtain ⟨seed | ⟨e, mem, th', bound, front⟩, -⟩ := safe_sig.mp (safe.2.2.out_zero (by decide))
    · exact absurd seed (not_safeAll_longTerm kept (by decide))
    · rw [Edhoc03.sigMessage, List.append_assoc] at front
      exact ⟨e, mem, th_of_prefix front ▸ bound⟩

/-! ### Which event -/

/-- The lengths of the strings behind the transcript hash of an event. -/
def Event.thLengths : Event → List Nat
  | .answer03 .. => [Edhoc03.xPk + (32 + 1)]
  | .accept03 .. => [32 + 43, 32 + 99]
  | .start4 .. => [Edhoc4.xwingPk + Edhoc4.xwingCt]
  | .answer4 .. => [32 + (Edhoc4.xwingCt + 1)]
  | .accept4 .. => [32 + Edhoc4.pt2Len]
  | .finish4 .. => [32 + Edhoc4.pt3Len]
  | .start03 .. | .finish03 .. | .close03 .. | .close4 .. | .leak => []

/-- Symbolic hashes collide on equal inputs only. -/
theorem sha256_inj {a b : List Sym} (h : primitives.sha256 a = primitives.sha256 b) : a = b :=
  primitives_ideal.sha256 h

/-- PT2 and PT3 of methods 0 to 3 have one of two lengths. -/
theorem peerAuth_length {auth : Edhoc03.Auth} {peer : Edhoc03.Peer Sym}
    {ephSk prk th prk' : Block Sym 32} {idCred : Block Sym 3} {pt : List Sym}
    (h : Edhoc03.PeerAuth primitives auth peer ephSk prk th prk' idCred pt) :
    pt.length = 43 ∨ pt.length = 99 := by
  cases auth with
  | stat => exact .inl (h.2 ▸ Edhoc03.AuthPt.length_write _)
  | sig =>
    obtain ⟨-, sig, -, rfl⟩ := h
    exact .inr (Edhoc03.AuthPt.length_write _)

/-- An authentication plaintext of methods 0 to 3 has one of two lengths. -/
theorem selfAuth_length {auth : Edhoc03.Auth} {self : Edhoc03.Creds Sym}
    {g prk th prk' : Block Sym 32} {pt : List Sym}
    (h : Edhoc03.SelfAuth primitives auth self g prk th prk' pt) :
    pt.length = 43 ∨ pt.length = 99 := by
  cases auth with
  | stat => exact .inl (h.2 ▸ Edhoc03.AuthPt.length_write _)
  | sig =>
    obtain ⟨-, sig, -, rfl⟩ := h
    exact .inr (Edhoc03.AuthPt.length_write _)

/-- The string behind a transcript hash has one of the lengths of its event. -/
theorem Run.th_length (h : Run ids run) (at_n : run[n]? = some e) {hashed : List Sym}
    (bound : e.th = some (primitives.sha256 hashed)) : hashed.length ∈ e.thLengths := by
  cases e with
  | start03 | finish03 | close03 | close4 | leak => cases bound
  | answer03 m1 m2 c =>
    obtain ⟨-, gX, pt2, answered⟩ := h.answered03 at_n
    obtain rfl := sha256_inj (answered.th2.symm.trans (Option.some.inj bound))
    simp [Event.thLengths]
  | accept03 start m2 m3 c =>
    obtain ⟨m1, c₀, -, -, -, gY, pt2, pt3, accepted⟩ := h.accepted03 at_n
    obtain rfl := sha256_inj (accepted.th3.symm.trans (Option.some.inj bound))
    obtain ⟨auth, idCred, peer⟩ := accepted.peer
    rcases peerAuth_length peer with len | len <;> simp [Event.thLengths, len]
  | start4 m1 c =>
    obtain rfl := sha256_inj ((h.started4 at_n).th1.symm.trans (Option.some.inj bound))
    simp [Event.thLengths]
  | answer4 m1 m2 c =>
    obtain ⟨-, pkX, p, answered⟩ := h.answered4 at_n
    obtain rfl := sha256_inj (answered.th2.symm.trans (Option.some.inj bound))
    simp [Event.thLengths]
  | accept4 start m2 m3 c =>
    obtain ⟨m1, c₀, -, -, -, cte, p2, p3, accepted⟩ := h.accepted4 at_n
    obtain rfl := sha256_inj (accepted.th3.symm.trans (Option.some.inj bound))
    simp [Event.thLengths]
  | finish4 answer m3 m4 c =>
    obtain ⟨m1, m2, c₀, -, -, -, p3, finished⟩ := h.finished4 at_n
    obtain rfl := sha256_inj (finished.th4.symm.trans (Option.some.inj bound))
    simp [Event.thLengths]

/-! ### Methods 0 to 3 -/

/-- The event behind a transcript hash TH2 is the responder's answer to that message_1
with that ephemeral key. -/
theorem Run.answer03_of_th (h : Run ids run) (mem : e ∈ run) {gY : Block Sym 32}
    (bound : e.th = some (primitives.sha256 (gY.toList ++
      ((primitives.sha256 m1).toList ++ (octet 0x20 : Block Sym 1).toList)))) :
    ∃ t m2 c gX pt2, run[t]? = some (.answer03 m1 m2 c) ∧ e = .answer03 m1 m2 c ∧
      gY = ephPub t ∧ Answered03 ids t m1 m2 c gX pt2 := by
  obtain ⟨t, at_t⟩ := List.getElem?_of_mem mem
  have len := h.th_length at_t bound
  simp only [List.length_append, List.Vector.toList_length] at len
  cases e with
  | answer03 m1' m2 c =>
    obtain ⟨-, gX, pt2, answered⟩ := h.answered03 at_t
    have same := sha256_inj (answered.th2.symm.trans (Option.some.inj bound))
    obtain ⟨key, rest⟩ := Block.append_inj same
    obtain ⟨hash, -⟩ := Block.append_inj rest
    obtain rfl := sha256_inj hash
    exact ⟨t, m2, c, gX, pt2, at_t, rfl, key.symm, answered⟩
  | _ =>
    rw [Event.thLengths] at len
    exact absurd len (by decide)

/-- Both ends of an exchange hold the same secret, and it is not safe. -/
theorem not_safeAll_prk2e {L : List Event} {th : Block Sym 32} {a b : Nat} :
    ¬ SafeAll (ledger L) (primitives.hkdfExtract th (mulPoint (ephCoins a) (ephPub b))).toList :=
  fun safe => not_safeAll_dh (not_safeAll_session (by decide)) (not_safeAll_session (by decide))
    (safeAll_of_hkdfExtract (ledger_onlyMacs L) safe).2

/-- Message_2 was produced by a responder on the initiator's own message_1. -/
theorem Run.source_of_accept03 (h : Run ids run) (kept : .leak ∉ run.take n) {start : Nat}
    {c : Edhoc03.Ctx Sym} (at_n : run[n]? = some (.accept03 start m2 m3 c)) :
    ∃ m1 c₀ t c' gX pt2, run[start]? = some (.start03 m1 c₀) ∧ t < n ∧
      run[t]? = some (.answer03 m1 m2 c') ∧ Answered03 ids t m1 m2 c' gX pt2 ∧
      c.prk2e = primitives.hkdfExtract c.th2 (mulPoint (ephCoins start) (ephPub t)) := by
  obtain ⟨m1, c₀, -, at_start, known, gY, pt2, pt3, accepted⟩ := h.accepted03 at_n
  have hpast := h.take n
  have safe := hpast.known_safe known
  rw [accepted.msg2, safeAll_append] at safe
  obtain ⟨auth, idCred, peer⟩ := accepted.peer
  obtain ⟨e₁, mem₁, bound₁⟩ := peerAuth_bound kept peer (safeAll_of_wrap safe.2)
  rw [accepted.th2] at bound₁
  obtain ⟨t₁, -, -, -, -, -, -, key₁, -⟩ := hpast.answer03_of_th mem₁ bound₁
  have prk2e := accepted.prk2e
  rw [key₁] at prk2e
  obtain ⟨e₂, mem₂, bound₂, body⟩ :=
    wrap_bound (by decide) (prk2e ▸ not_safeAll_prk2e) safe.2
  rw [accepted.th2] at bound₂
  obtain ⟨t, m2', c', gX, pt2', at_t, rfl, key, answered⟩ := hpast.answer03_of_th mem₂ bound₂
  obtain ⟨lt, at_t⟩ := getElem?_of_take at_t
  obtain rfl : m2' = m2 := by
    rw [answered.msg2, accepted.msg2, ← answered.body, body, key]
  exact ⟨m1, c₀, t, c', gX, pt2', at_start, lt, at_t, answered, by rw [accepted.prk2e, key]⟩

/-- The event behind a transcript hash TH3 is the initiator's acceptance of that very
message_2, in answer to its own message_1. -/
theorem Run.accept03_of_th (h : Run ids run) (mem : e ∈ run) {answer : Nat} {c : Edhoc03.Ctx Sym}
    {gX : Block Sym 32} {pt2 : List Sym} (answered : Answered03 ids answer m1 m2 c gX pt2)
    (bound : e.th = some c.th3) :
    ∃ t start m3 c' c₀, run[t]? = some (.accept03 start m2 m3 c') ∧ e = .accept03 start m2 m3 c' ∧
      start < t ∧ run[start]? = some (.start03 m1 c₀) ∧
      c.prk2e = primitives.hkdfExtract c.th2 (mulPoint (ephCoins answer) (ephPub start)) := by
  obtain ⟨t, at_t⟩ := List.getElem?_of_mem mem
  rw [answered.th3] at bound
  have len := h.th_length at_t bound
  rw [List.length_append, List.Vector.toList_length] at len
  obtain ⟨auth, self⟩ := answered.auth
  have short := selfAuth_length self
  cases e with
  | accept03 start m2' m3 c' =>
    obtain ⟨m1', c₀, lt, at_start, -, gY, pt2', pt3, accepted⟩ := h.accepted03 at_t
    obtain ⟨th2, rfl⟩ :=
      Block.append_inj (sha256_inj (accepted.th3.symm.trans (Option.some.inj bound)))
    obtain ⟨rfl, rest⟩ :=
      Block.append_inj (sha256_inj (accepted.th2.symm.trans (th2.trans answered.th2)))
    obtain rfl := sha256_inj (Block.append_inj rest).1
    obtain ⟨b, msg1⟩ := (h.started03 at_start).msg1
    obtain ⟨b', cI, msg1'⟩ := answered.msg1
    obtain ⟨rfl, -⟩ := Block.append_inj (List.cons.inj (msg1'.symm.trans msg1)).2
    have prk2e : c'.prk2e = c.prk2e := by
      rw [accepted.prk2e, answered.prk2e, th2]
      exact congrArg _ (dh_comm _ _)
    obtain rfl : m2' = m2 := by rw [accepted.msg2, answered.msg2, prk2e, th2]
    exact ⟨t, start, m3, c', c₀, at_t, rfl, lt, at_start, answered.prk2e⟩
  | _ =>
    rw [Event.thLengths] at len
    rcases short with short | short
    · exact absurd (short ▸ len) (by decide)
    · exact absurd (short ▸ len) (by decide)

/-- The own authentication keeps the PRK or extracts from it. -/
theorem selfAuth_descends {auth : Edhoc03.Auth} {self : Edhoc03.Creds Sym}
    {g prk th prk' : Block Sym 32} {pt : List Sym}
    (h : Edhoc03.SelfAuth primitives auth self g prk th prk' pt) : Descends prk prk' := by
  cases auth with
  | stat =>
    obtain ⟨⟨ss, -, rfl⟩, -⟩ := h
    exact .inr ⟨ss, rfl⟩
  | sig => exact .inl h.1

/-- Message_3 was produced by an initiator that had accepted the responder's message_2. -/
theorem Run.source_of_finish03 (h : Run ids run) (kept : .leak ∉ run.take n) {answer : Nat}
    {c : Edhoc03.Ctx Sym} (at_n : run[n]? = some (.finish03 answer m3 m4 c)) :
    ∃ m1 m2 c₀ t start c' c₁, run[answer]? = some (.answer03 m1 m2 c₀) ∧ t < n ∧
      run[t]? = some (.accept03 start m2 m3 c') ∧ run[start]? = some (.start03 m1 c₁) ∧
      c₀.prk2e = primitives.hkdfExtract c₀.th2 (mulPoint (ephCoins answer) (ephPub start)) := by
  obtain ⟨m1, m2, c₀, -, at_answer, known, pt3, finished⟩ := h.finished03 at_n
  obtain ⟨-, gX, pt2, answered⟩ := h.answered03 at_answer
  have hpast := h.take n
  have safe := hpast.known_safe known
  rw [finished.msg3] at safe
  obtain ⟨auth, idCred, peer⟩ := finished.peer
  obtain ⟨e₁, mem₁, bound₁⟩ := peerAuth_bound kept peer (safeAll_of_wrap safe)
  obtain ⟨t₁, start₁, -, -, -, -, -, -, -, prk2e⟩ := hpast.accept03_of_th mem₁ answered bound₁
  obtain ⟨auth', self⟩ := answered.auth
  have secret : ¬ SafeAll (ledger (run.take n)) c₀.prk3e2m.toList :=
    (selfAuth_descends self).not_safeAll (ledger_onlyMacs _) (prk2e ▸ not_safeAll_prk2e)
  obtain ⟨e₂, mem₂, bound₂, body⟩ := wrap_bound (by decide) secret safe
  obtain ⟨t, start, m3', c', c₁, at_t, rfl, -, at_start, prk2e'⟩ :=
    hpast.accept03_of_th mem₂ answered bound₂
  obtain ⟨lt, at_t⟩ := getElem?_of_take at_t
  obtain rfl : m3' = m3 := body.trans finished.msg3.symm
  exact ⟨m1, m2, c₀, t, start, c', c₁, at_answer, lt, at_t, (getElem?_of_take at_start).2, prk2e'⟩

/-! ### Method 4 -/

/-- A transcript hash of message_2 is bound by the call that made this message. -/
theorem Run.answer4_of_th (h : Run ids run) (mem : e ∈ run) {cte : Block Sym Edhoc4.xwingCt}
    (bound : e.th = some (primitives.sha256 ((primitives.sha256 m1).toList ++
      (cte.toList ++ (octet 0x20 : Block Sym 1).toList)))) :
    ∃ t m2 c pkX p, run[t]? = some (.answer4 m1 m2 c) ∧ e = .answer4 m1 m2 c ∧
      cte = xwingCt (msg2Coins t).encE pkX ∧ Answered4 ids t m1 m2 c pkX p := by
  obtain ⟨t, at_t⟩ := List.getElem?_of_mem mem
  have len := h.th_length at_t bound
  simp only [List.length_append, List.Vector.toList_length] at len
  cases e with
  | answer4 m1' m2 c =>
    obtain ⟨-, pkX, p, answered⟩ := h.answered4 at_t
    have same := sha256_inj (answered.th2.symm.trans (Option.some.inj bound))
    obtain ⟨hash, rest⟩ := Block.append_inj same
    obtain ⟨key, -⟩ := Block.append_inj rest
    obtain rfl := sha256_inj hash
    exact ⟨t, m2, c, pkX, p, at_t, rfl, key.symm, answered⟩
  | _ =>
    rw [Event.thLengths] at len
    exact absurd len (by decide)

/-- The secret of an encapsulation to an honest ephemeral key is not safe. -/
theorem not_safeAll_prk2e_xwing {L : List Event} {th : Block Sym 32} {a b : Nat} :
    ¬ SafeAll (ledger L) (primitives.hkdfExtract th
      (xwingSs (msg2Coins a).encE (xwingPk (msg1Coins b).eph))).toList :=
  fun safe => not_safeAll_xwingSs (not_safeAll_session (by decide))
    (not_safeAll_session (by decide)) (safeAll_of_hkdfExtract (ledger_onlyMacs L) safe).2

/-- A responder that answered an initiator's message_1 has encapsulated to its ephemeral
key. -/
theorem Answered4.pkX_eq {c c₀ : Edhoc4.Ctx Sym} {pkX : Block Sym Edhoc4.xwingPk}
    {p : Edhoc4.Pt2 Sym} {start : Nat} (answered : Answered4 ids t m1 m2 c pkX p)
    (started : Started4 ids start m1 c₀) : pkX = xwingPk (msg1Coins start).eph := by
  obtain ⟨ctB, ct1, msg1⟩ := answered.msg1
  exact (Block.append_inj (Block.append_inj (msg1.symm.trans started.msg1)).2).1

/-- An accepted message_2 of method 4 comes from a responder on the same message_1. -/
theorem Run.source_of_accept4 (h : Run ids run) (kept : .leak ∉ run.take n) {start : Nat}
    {c : Edhoc4.Ctx Sym} (at_n : run[n]? = some (.accept4 start m2 m3 c)) :
    ∃ m1 c₀ t c', run[start]? = some (.start4 m1 c₀) ∧ t < n ∧
      run[t]? = some (.answer4 m1 m2 c') ∧
      c.prk2e = primitives.hkdfExtract c.th2
        (xwingSs (msg2Coins t).encE (xwingPk (msg1Coins start).eph)) := by
  obtain ⟨m1, c₀, -, at_start, known, cte, p2, p3, accepted⟩ := h.accepted4 at_n
  have hpast := h.take n
  have safe := hpast.known_safe known
  rw [accepted.msg2, safeAll_append] at safe
  -- MAC2 is keyed with the secret encapsulated to the responder's static key.
  have static : ¬ SafeAll (ledger (run.take n)) c.prk3e2m.toList := by
    rw [accepted.prk3e2m]
    exact fun prk => not_safeAll_xwingSs (not_safeAll_session (by decide))
      (not_safeAll_longTerm kept (by decide)) (safeAll_of_hkdfExtract (ledger_onlyMacs _) prk).2
  have mac := safeAll_of_wrap safe.2
  simp only [Edhoc4.Pt2.write, safeAll_append] at mac
  obtain ⟨-, -, -, -, mac, -⟩ := mac
  rw [← accepted.mac2, Edhoc4.computeMac, List.append_assoc] at mac
  obtain ⟨e₁, mem₁, bound₁⟩ := mac_bound static mac
  rw [accepted.th2] at bound₁
  obtain ⟨t₁, m2₁, c₁, pkX₁, p₁, at₁, -, key₁, answered₁⟩ := hpast.answer4_of_th mem₁ bound₁
  have open_eq {t : Nat} {c' : Edhoc4.Ctx Sym} {pkX : Block Sym Edhoc4.xwingPk}
      {p : Edhoc4.Pt2 Sym} {m2' : List Sym} (key : cte = xwingCt (msg2Coins t).encE pkX)
      (answered : Answered4 ids t m1 m2' c' pkX p) :
      c.prk2e = primitives.hkdfExtract c.th2
        (xwingSs (msg2Coins t).encE (xwingPk (msg1Coins start).eph)) := by
    rw [accepted.prk2e, key, answered.pkX_eq (h.started4 at_start), xwingOpen_xwingCt]
  obtain ⟨e₂, mem₂, bound₂, body⟩ :=
    wrap_bound (by decide) (open_eq key₁ answered₁ ▸ not_safeAll_prk2e_xwing) safe.2
  rw [accepted.th2] at bound₂
  obtain ⟨t, m2', c', pkX, p, at_t, rfl, key, answered⟩ := hpast.answer4_of_th mem₂ bound₂
  obtain ⟨lt, at_t⟩ := getElem?_of_take at_t
  obtain rfl : m2' = m2 := by
    rw [answered.msg2, accepted.msg2, ← answered.body, body, key]
  exact ⟨m1, c₀, t, c', at_start, lt, at_t, open_eq key answered⟩

/-- A transcript hash of message_3 is bound by the call that accepted this message_2. -/
theorem Run.accept4_of_th (h : Run ids run) (mem : e ∈ run) {answer : Nat} {c : Edhoc4.Ctx Sym}
    {pkX : Block Sym Edhoc4.xwingPk} {p : Edhoc4.Pt2 Sym}
    (answered : Answered4 ids answer m1 m2 c pkX p) (bound : e.th = some c.th3) :
    ∃ t start m3 c' c₀, run[t]? = some (.accept4 start m2 m3 c') ∧ e = .accept4 start m2 m3 c' ∧
      start < t ∧ run[start]? = some (.start4 m1 c₀) ∧
      c.prk2e = primitives.hkdfExtract c.th2
        (xwingSs (msg2Coins answer).encE (xwingPk (msg1Coins start).eph)) := by
  obtain ⟨t, at_t⟩ := List.getElem?_of_mem mem
  rw [answered.th3] at bound
  have len := h.th_length at_t bound
  rw [List.length_append, List.Vector.toList_length, Edhoc4.Pt2.length_write] at len
  cases e with
  | accept4 start m2' m3 c' =>
    obtain ⟨m1', c₀, lt, at_start, -, cte, p2, p3, accepted⟩ := h.accepted4 at_t
    obtain ⟨th2, text⟩ :=
      Block.append_inj (sha256_inj (accepted.th3.symm.trans (Option.some.inj bound)))
    obtain ⟨hash, rest⟩ :=
      Block.append_inj (sha256_inj (accepted.th2.symm.trans (th2.trans answered.th2)))
    obtain rfl := sha256_inj hash
    obtain ⟨rfl, -⟩ := Block.append_inj rest
    obtain rfl := answered.pkX_eq (h.started4 at_start)
    have prk2e : c'.prk2e = c.prk2e := by
      rw [accepted.prk2e, answered.prk2e, th2, xwingOpen_xwingCt]
    obtain rfl : m2' = m2 := by rw [accepted.msg2, answered.msg2, prk2e, th2, text]
    exact ⟨t, start, m3, c', c₀, at_t, rfl, lt, at_start, answered.prk2e⟩
  | _ =>
    rw [Event.thLengths] at len
    exact absurd len (by decide)

/-- An accepted message_3 of method 4 comes from an initiator on the same messages. -/
theorem Run.source_of_finish4 (h : Run ids run) (kept : .leak ∉ run.take n) {answer : Nat}
    {c : Edhoc4.Ctx Sym} (at_n : run[n]? = some (.finish4 answer m3 m4 c)) :
    ∃ m1 m2 c₀ t start c' c₁, run[answer]? = some (.answer4 m1 m2 c₀) ∧ t < n ∧
      run[t]? = some (.accept4 start m2 m3 c') ∧ run[start]? = some (.start4 m1 c₁) ∧
      c₀.prk2e = primitives.hkdfExtract c₀.th2
        (xwingSs (msg2Coins answer).encE (xwingPk (msg1Coins start).eph)) := by
  obtain ⟨m1, m2, c₀, -, at_answer, known, p3, finished⟩ := h.finished4 at_n
  obtain ⟨-, pkX, p, answered⟩ := h.answered4 at_answer
  have hpast := h.take n
  have safe := hpast.known_safe known
  rw [finished.msg3] at safe
  -- MAC3 is keyed with the secret encapsulated to the initiator's static key.
  have static : ¬ SafeAll (ledger (run.take n)) c.prk4e3m.toList := by
    rw [finished.prk4e3m, answered.ssA]
    exact fun prk => not_safeAll_xwingSs (not_safeAll_session (by decide))
      (not_safeAll_longTerm kept (by decide)) (safeAll_of_hkdfExtract (ledger_onlyMacs _) prk).2
  have mac := safeAll_of_wrap safe
  simp only [Edhoc4.Pt3.write, safeAll_append] at mac
  obtain ⟨-, -, mac, -⟩ := mac
  rw [← finished.mac3, Edhoc4.computeMac, List.append_assoc] at mac
  obtain ⟨e₁, mem₁, bound₁⟩ := mac_bound static mac
  obtain ⟨-, start₁, -, -, -, -, -, -, -, prk2e⟩ := hpast.accept4_of_th mem₁ answered bound₁
  have secret : ¬ SafeAll (ledger (run.take n)) c₀.prk3e2m.toList := by
    refine Descends.not_safeAll (ledger_onlyMacs _) (.inr ⟨_, answered.prk3e2m⟩) ?_
    exact prk2e ▸ not_safeAll_prk2e_xwing
  obtain ⟨e₂, mem₂, bound₂, body⟩ := wrap_bound (by decide) secret safe
  obtain ⟨t, start, m3', c', c₁, at_t, rfl, -, at_start, prk2e'⟩ :=
    hpast.accept4_of_th mem₂ answered bound₂
  obtain ⟨lt, at_t⟩ := getElem?_of_take at_t
  obtain rfl : m3' = m3 := body.trans finished.msg3.symm
  exact ⟨m1, m2, c₀, t, start, c', c₁, at_answer, lt, at_t, (getElem?_of_take at_start).2, prk2e'⟩

/-- PRK4e3m of an initiator that accepted message_2 before any leak is never safe. -/
theorem Run.not_safeAll_prk4e3m (h : Run ids run) (kept : .leak ∉ run.take n) {start : Nat}
    {c : Edhoc4.Ctx Sym} (at_n : run[n]? = some (.accept4 start m2 m3 c)) (L : List Event) :
    ¬ SafeAll (ledger L) c.prk4e3m.toList := by
  obtain ⟨-, -, t, -, -, -, -, prk2e⟩ := h.source_of_accept4 kept at_n
  obtain ⟨_, _, -, -, -, _, _, _, accepted⟩ := h.accepted4 at_n
  refine Descends.not_safeAll (ledger_onlyMacs _) (.inr accepted.prk4e3m) ?_
  refine Descends.not_safeAll (ledger_onlyMacs _) (.inr ⟨_, accepted.prk3e2m⟩) ?_
  exact prk2e ▸ not_safeAll_prk2e_xwing

/-- Message_4 was produced by a responder that accepted the initiator's message_3. -/
theorem Run.source_of_close4 (h : Run ids run) (kept : .leak ∉ run.take n) {accept : Nat}
    {c : Edhoc4.Ctx Sym} (at_n : run[n]? = some (.close4 accept m4 c)) :
    ∃ start m2 m3 c₀ t answer c', run[accept]? = some (.accept4 start m2 m3 c₀) ∧ t < n ∧
      run[t]? = some (.finish4 answer m3 m4 c') := by
  obtain ⟨start, m2, m3, c₀, lt, at_accept, known, pk, msg4, -⟩ := h.closed4 at_n
  obtain ⟨m1, c₁, -, -, -, cte, p2, p3, accepted⟩ := h.accepted4 at_accept
  have hpast := h.take n
  have safe := hpast.known_safe known
  have kept' : .leak ∉ run.take accept := fun mem =>
    kept (List.take_subset_take_left _ (by omega) mem)
  rw [msg4] at safe
  obtain ⟨e, mem, bound, body⟩ :=
    wrap_bound (by decide) (h.not_safeAll_prk4e3m kept' at_accept _) safe
  obtain ⟨t, at_t⟩ := List.getElem?_of_mem mem
  rw [accepted.th4] at bound
  have len := hpast.th_length at_t bound
  rw [List.length_append, List.Vector.toList_length, Edhoc4.Pt3.length_write] at len
  cases e with
  | finish4 answer m3' m4' c' =>
    obtain ⟨m1', m2', c₀', -, -, -, p3', finished⟩ := hpast.finished4 at_t
    obtain ⟨th3, text⟩ :=
      Block.append_inj (sha256_inj (finished.th4.symm.trans (Option.some.inj bound)))
    obtain rfl : p3' = p3 := by rw [← Edhoc4.Pt3.read_write p3', text, Edhoc4.Pt3.read_write]
    obtain ⟨lt, at_t⟩ := getElem?_of_take at_t
    have mac := finished.mac3.trans accepted.mac3
    rw [th3, accepted.pt3] at mac
    have prk4e3m := (primitives_ideal.hkdfExpand (by decide) mac).1
    obtain ⟨ssA, prk⟩ := accepted.prk4e3m
    have prk3e2m := (primitives_ideal.hkdfExtract
      (finished.prk4e3m.symm.trans (prk4e3m.trans prk))).1
    obtain rfl : m3' = m3 := by rw [finished.msg3, accepted.msg3, prk3e2m, th3]
    obtain rfl : m4' = m4 := body.trans msg4.symm
    exact ⟨start, m2, m3', c₀, t, answer, c', at_accept, lt, at_t⟩
  | _ =>
    rw [Event.thLengths] at len
    exact absurd len (by decide)

/-! ### Messages fix the context that sent them -/

/-- Ephemeral keys drawn at different times differ. -/
theorem ephPub_inj {a b : Nat} (h : ephPub a = ephPub b) : a = b := by
  have scalars := Multiset.singleton_inj.mp (point_inj h).2
  have octets := out_inj (by decide) (List.Vector.eq _ _ scalars)
  exact (Origin.session.inj (Sym.rnd.inj octets).1).1

/-- No message_1 is made twice. -/
theorem Run.start03_unique (h : Run ids run) {a b : Nat} {c c' : Edhoc03.Ctx Sym}
    (ha : run[a]? = some (.start03 m1 c)) (hb : run[b]? = some (.start03 m1 c')) : a = b := by
  obtain ⟨_, msg⟩ := (h.started03 ha).msg1
  obtain ⟨_, msg'⟩ := (h.started03 hb).msg1
  exact ephPub_inj (Block.append_inj (List.cons.inj (msg.symm.trans msg')).2).1

theorem Run.answer03_unique (h : Run ids run) {a b : Nat} {m1' : List Sym}
    {c c' : Edhoc03.Ctx Sym} (ha : run[a]? = some (.answer03 m1 m2 c))
    (hb : run[b]? = some (.answer03 m1' m2 c')) : a = b := by
  obtain ⟨-, _, _, answered⟩ := h.answered03 ha
  obtain ⟨-, _, _, answered'⟩ := h.answered03 hb
  exact ephPub_inj (Block.append_inj (answered.msg2.symm.trans answered'.msg2)).1

theorem Run.start4_unique (h : Run ids run) {a b : Nat} {c c' : Edhoc4.Ctx Sym}
    (ha : run[a]? = some (.start4 m1 c)) (hb : run[b]? = some (.start4 m1 c')) : a = b := by
  have rest := (Block.append_inj ((h.started4 ha).msg1.symm.trans (h.started4 hb).msg1)).2
  exact session_inj (by decide) (xwingPk_inj (Block.append_inj rest).1)

theorem Run.answer4_unique (h : Run ids run) {a b : Nat} {m1' : List Sym}
    {c c' : Edhoc4.Ctx Sym} (ha : run[a]? = some (.answer4 m1 m2 c))
    (hb : run[b]? = some (.answer4 m1' m2 c')) : a = b := by
  obtain ⟨-, _, _, answered⟩ := h.answered4 ha
  obtain ⟨-, _, _, answered'⟩ := h.answered4 hb
  have cts := (Block.append_inj (answered.msg2.symm.trans answered'.msg2)).1
  have scalars := Multiset.singleton_inj.mp (point_inj (Block.cat_inj cts).2).2
  exact session_inj (by decide) (List.Vector.eq _ _ scalars)

theorem Run.accept4_unique (h : Run ids run) {a b start start' : Nat} {m2' : List Sym}
    {c c' : Edhoc4.Ctx Sym} (ha : run[a]? = some (.accept4 start m2 m3 c))
    (hb : run[b]? = some (.accept4 start' m2' m3 c')) : a = b := by
  obtain ⟨_, _, -, -, -, _, _, p, accepted⟩ := h.accepted4 ha
  obtain ⟨_, _, -, -, -, _, _, p', accepted'⟩ := h.accepted4 hb
  have text := (wrap_inj (accepted.msg3.symm.trans accepted'.msg3)).2.2
  have same : p = p' := by rw [← Edhoc4.Pt3.read_write p, text, Edhoc4.Pt3.read_write]
  have keys := congrArg Edhoc4.Pt3.ead same
  rw [accepted.pt3, accepted'.pt3] at keys
  exact session_inj (by decide) (xwingPk_inj keys)

/-! ### Injective correspondences -/

/-- An initiator accepted message_2. -/
def Event.Accepts2 : Event → Prop
  | .accept03 .. | .accept4 .. => True
  | _ => False

def Event.Accepts3 : Event → Prop
  | .finish03 .. | .finish4 .. => True
  | _ => False

def Event.Accepts4 : Event → Prop
  | .close4 .. => True
  | _ => False

/-- The second event produced exactly the message_2 the first accepts, on exactly the
message_1 of the accepting context. -/
inductive Source2 (run : List Event) : Event → Event → Prop
  | classical {start : Nat} {m1 m2 m3 : List Sym} {c c₀ c' : Edhoc03.Ctx Sym} :
      run[start]? = some (.start03 m1 c₀) →
      Source2 run (.accept03 start m2 m3 c) (.answer03 m1 m2 c')
  | hybrid {start : Nat} {m1 m2 m3 : List Sym} {c c₀ c' : Edhoc4.Ctx Sym} :
      run[start]? = some (.start4 m1 c₀) →
      Source2 run (.accept4 start m2 m3 c) (.answer4 m1 m2 c')

/-- The second event produced exactly the message_3 the first accepts, on accepting the
message_2 of the accepting context, in answer to the message_1 both have seen. -/
inductive Source3 (run : List Event) : Event → Event → Prop
  | classical {answer start : Nat} {m1 m2 m3 m4 : List Sym} {c c₀ c' c₁ : Edhoc03.Ctx Sym} :
      run[answer]? = some (.answer03 m1 m2 c₀) → run[start]? = some (.start03 m1 c₁) →
      Source3 run (.finish03 answer m3 m4 c) (.accept03 start m2 m3 c')
  | hybrid {answer start : Nat} {m1 m2 m3 m4 : List Sym} {c c₀ c' c₁ : Edhoc4.Ctx Sym} :
      run[answer]? = some (.answer4 m1 m2 c₀) → run[start]? = some (.start4 m1 c₁) →
      Source3 run (.finish4 answer m3 m4 c) (.accept4 start m2 m3 c')

/-- The second event produced exactly the message_4 the first accepts, on accepting the
message_3 of the accepting context. -/
inductive Source4 (run : List Event) : Event → Event → Prop
  | hybrid {accept answer start : Nat} {m2 m3 m4 : List Sym} {c c₀ c' : Edhoc4.Ctx Sym} :
      run[accept]? = some (.accept4 start m2 m3 c₀) →
      Source4 run (.close4 accept m4 c) (.finish4 answer m3 m4 c')

structure Authentic (run : List Event) : Prop where
  message2 : InjectiveCorrespondence run Event.Accepts2 (Source2 run)
  message3 : InjectiveCorrespondence run Event.Accepts3 (Source3 run)
  message4 : InjectiveCorrespondence run Event.Accepts4 (Source4 run)

/-- Each accepted message_2 has a source of its own. -/
theorem Run.message2 (h : Run ids run) (kept : .leak ∉ run) :
    InjectiveCorrespondence run Event.Accepts2 (Source2 run) := by
  refine .intro (fun n e at_n acc => ?_) fun n n' e e' s at_n at_n' src src' => ?_
  · have kept' : .leak ∉ run.take n := fun mem => kept (List.mem_of_mem_take mem)
    cases e with
    | accept03 start m2 m3 c =>
      obtain ⟨m1, c₀, t, c', -, -, at_start, lt, at_t, -⟩ := h.source_of_accept03 kept' at_n
      exact ⟨t, _, lt, at_t, .classical at_start⟩
    | accept4 start m2 m3 c =>
      obtain ⟨m1, c₀, t, c', at_start, lt, at_t, -⟩ := h.source_of_accept4 kept' at_n
      exact ⟨t, _, lt, at_t, .hybrid at_start⟩
    | _ => exact acc.elim
  · cases src with
    | classical at_start =>
      cases src' with
      | classical at_start' =>
        obtain rfl := h.start03_unique at_start at_start'
        exact h.continues_unique at_n at_n' rfl rfl
    | hybrid at_start =>
      cases src' with
      | hybrid at_start' =>
        obtain rfl := h.start4_unique at_start at_start'
        exact h.continues_unique at_n at_n' rfl rfl

theorem Run.message3 (h : Run ids run) (kept : .leak ∉ run) :
    InjectiveCorrespondence run Event.Accepts3 (Source3 run) := by
  refine .intro (fun n e at_n acc => ?_) fun n n' e e' s at_n at_n' src src' => ?_
  · have kept' : .leak ∉ run.take n := fun mem => kept (List.mem_of_mem_take mem)
    cases e with
    | finish03 answer m3 m4 c =>
      obtain ⟨m1, m2, c₀, t, start, c', c₁, at_answer, lt, at_t, at_start, -⟩ :=
        h.source_of_finish03 kept' at_n
      exact ⟨t, _, lt, at_t, .classical at_answer at_start⟩
    | finish4 answer m3 m4 c =>
      obtain ⟨m1, m2, c₀, t, start, c', c₁, at_answer, lt, at_t, at_start, -⟩ :=
        h.source_of_finish4 kept' at_n
      exact ⟨t, _, lt, at_t, .hybrid at_answer at_start⟩
    | _ => exact acc.elim
  · cases src with
    | classical at_answer =>
      cases src' with
      | classical at_answer' =>
        obtain rfl := h.answer03_unique at_answer at_answer'
        exact h.continues_unique at_n at_n' rfl rfl
    | hybrid at_answer =>
      cases src' with
      | hybrid at_answer' =>
        obtain rfl := h.answer4_unique at_answer at_answer'
        exact h.continues_unique at_n at_n' rfl rfl

theorem Run.message4 (h : Run ids run) (kept : .leak ∉ run) :
    InjectiveCorrespondence run Event.Accepts4 (Source4 run) := by
  refine .intro (fun n e at_n acc => ?_) fun n n' e e' s at_n at_n' src src' => ?_
  · have kept' : .leak ∉ run.take n := fun mem => kept (List.mem_of_mem_take mem)
    cases e with
    | close4 accept m4 c =>
      obtain ⟨start, m2, m3, c₀, t, answer, c', at_accept, lt, at_t⟩ :=
        h.source_of_close4 kept' at_n
      exact ⟨t, _, lt, at_t, .hybrid at_accept⟩
    | _ => exact acc.elim
  · cases src with
    | hybrid at_accept =>
      cases src' with
      | hybrid at_accept' =>
        obtain rfl := h.accept4_unique at_accept at_accept'
        exact h.continues_unique at_n at_n' rfl rfl

/-- In every run without a leak, whoever accepts a message has a partner of its own that
produced exactly that message in the same handshake. -/
theorem authentication (h : Run ids run) (kept : .leak ∉ run) : Authentic run :=
  ⟨h.message2 kept, h.message3 kept, h.message4 kept⟩

/-- The exchange of `selftest.c` is a run without a leak. -/
theorem authentication_selftest :
    ∃ (run : List Event) (m4 : List Sym) (c : Edhoc4.Ctx Sym),
      Run selftestIds run ∧ run.length = 5 ∧ run[4]? = some (.close4 2 m4 c) ∧ Authentic run := by
  obtain ⟨x, -⟩ := Edhoc4.exchange_exists primitives_correct
    (Edhoc4.creds4_valid selftestIds .initiator) (Edhoc4.creds4_valid selftestIds .responder)
    Edhoc4.runCoins
  have valid := run_exchangeEvents x
  exact ⟨exchangeEvents x, x.m4, x.i₃, valid, rfl, rfl,
    authentication valid (by simp [exchangeEvents])⟩

end EdhocAuth.Attacker
