/-
Secrecy of the exported keys, with forward secrecy, methods 0 to 4.

A context that is done has a partner whose ephemeral key is honest, provided no
long-term key had leaked by then (`Authentication`). PRK2e then rests on two
ephemeral secrets, which no later event opens; every PRK after it is PRK2e or an
extraction under it, and MSK and EMSK are expansions under the last of them. So they
stay outside the bound on the attacker's knowledge in every continuation of the run,
also in one where all long-term keys of both parties leak.
-/

import EdhocAuth.Attacker.Authentication

namespace EdhocAuth.Attacker

open Symbolic Primitives

variable {ids : Ids} {run : List Event} {n : Nat} {e : Event} {m2 m3 m4 : List Sym}

/-! ### What a context has exported -/

def Event.done : Event → Bool
  | .start03 _ c | .answer03 _ _ c | .accept03 _ _ _ c | .finish03 _ _ _ c | .close03 _ _ c =>
      c.done
  | .start4 _ c | .answer4 _ _ c | .accept4 _ _ _ c | .finish4 _ _ _ c | .close4 _ _ c => c.done
  | .leak => false

def Event.exportedKeys : Event → List Sym
  | .start03 _ c | .answer03 _ _ c | .accept03 _ _ _ c | .finish03 _ _ _ c | .close03 _ _ c =>
    c.msk.toList ++ c.emsk.toList
  | .start4 _ c | .answer4 _ _ c | .accept4 _ _ _ c | .finish4 _ _ _ c | .close4 _ _ c =>
    c.msk.toList ++ c.emsk.toList
  | .leak => []

/-! ### PRK4e3m stays secret -/

/-- Checking the peer keeps the PRK or extracts from it. -/
theorem peerAuth_descends {auth : Edhoc03.Auth} {peer : Edhoc03.Peer Sym}
    {ephSk prk th prk' : Block Sym 32} {idCred : Block Sym 3} {pt : List Sym}
    (h : Edhoc03.PeerAuth primitives auth peer ephSk prk th prk' idCred pt) :
    Descends prk prk' := by
  cases auth with
  | stat =>
    obtain ⟨⟨ss, -, rfl⟩, -⟩ := h
    exact .inr ⟨ss, rfl⟩
  | sig => exact .inl h.1

/-- The exported keys of a context whose PRK4e3m is not safe. -/
theorem Exported.not_safe {L : Ledger} (only : L.OnlyMacs) {prk4e3m th4 : Block Sym 32}
    {msk emsk : Block Sym 64} (h : Exported prk4e3m th4 msk emsk)
    (hprk : ¬ SafeAll L prk4e3m.toList) {x : Sym} (mem : x ∈ msk.toList ++ emsk.toList) :
    ¬ Safe L x := by
  rw [h.msk, h.emsk] at mem
  exact not_safe_exported only hprk (List.mem_append.mp mem)

/-- The keys of an initiator of methods 0 to 3 that accepted before any leak. -/
theorem Run.accept03_not_safe (h : Run ids run) (kept : .leak ∉ run.take n) {start : Nat}
    {c : Edhoc03.Ctx Sym} (at_n : run[n]? = some (.accept03 start m2 m3 c)) {x : Sym}
    (mem : x ∈ c.msk.toList ++ c.emsk.toList) : ¬ Safe (ledger run) x := by
  have only := ledger_onlyMacs run
  obtain ⟨_, _, _, _, _, _, -, -, -, -, prk2e⟩ := h.source_of_accept03 kept at_n
  obtain ⟨_, _, -, -, -, _, _, _, accepted⟩ := h.accepted03 at_n
  obtain ⟨_, _, peer⟩ := accepted.peer
  obtain ⟨_, self⟩ := accepted.auth
  have prk3e2m := (peerAuth_descends peer).not_safeAll only (prk2e ▸ not_safeAll_prk2e)
  exact accepted.exported.not_safe only ((selfAuth_descends self).not_safeAll only prk3e2m) mem

/-- The keys of a responder of methods 0 to 3 that accepted before any leak. -/
theorem Run.finish03_not_safe (h : Run ids run) (kept : .leak ∉ run.take n) {answer : Nat}
    {c : Edhoc03.Ctx Sym} (at_n : run[n]? = some (.finish03 answer m3 m4 c)) {x : Sym}
    (mem : x ∈ c.msk.toList ++ c.emsk.toList) : ¬ Safe (ledger run) x := by
  have only := ledger_onlyMacs run
  obtain ⟨_, _, c₀, _, _, _, _, at_answer, -, -, -, prk2e⟩ := h.source_of_finish03 kept at_n
  obtain ⟨_, _, c₀', -, at_answer', -, _, finished⟩ := h.finished03 at_n
  obtain ⟨rfl, rfl, rfl⟩ := Event.answer03.inj (Option.some.inj (at_answer.symm.trans at_answer'))
  obtain ⟨-, _, _, answered⟩ := h.answered03 at_answer
  obtain ⟨_, self⟩ := answered.auth
  obtain ⟨_, _, peer⟩ := finished.peer
  have prk3e2m := (selfAuth_descends self).not_safeAll only (prk2e ▸ not_safeAll_prk2e)
  exact finished.exported.not_safe only ((peerAuth_descends peer).not_safeAll only prk3e2m) mem

/-- The keys of a responder of method 4 that accepted before any leak. -/
theorem Run.finish4_not_safe (h : Run ids run) (kept : .leak ∉ run.take n) {answer : Nat}
    {c : Edhoc4.Ctx Sym} (at_n : run[n]? = some (.finish4 answer m3 m4 c)) {x : Sym}
    (mem : x ∈ c.msk.toList ++ c.emsk.toList) : ¬ Safe (ledger run) x := by
  have only := ledger_onlyMacs run
  obtain ⟨_, _, c₀, _, _, _, _, at_answer, -, -, -, prk2e⟩ := h.source_of_finish4 kept at_n
  obtain ⟨_, _, c₀', -, at_answer', -, _, finished⟩ := h.finished4 at_n
  obtain ⟨rfl, rfl, rfl⟩ := Event.answer4.inj (Option.some.inj (at_answer.symm.trans at_answer'))
  obtain ⟨-, _, _, answered⟩ := h.answered4 at_answer
  have prk3e2m : ¬ SafeAll (ledger run) c₀.prk3e2m.toList :=
    Descends.not_safeAll only (.inr ⟨_, answered.prk3e2m⟩) (prk2e ▸ not_safeAll_prk2e_xwing)
  exact finished.exported.not_safe only
    (Descends.not_safeAll only (.inr ⟨_, finished.prk4e3m⟩) prk3e2m) mem

/-! ### Secrecy -/

/-- A prefix of a prefix holds no leak either. -/
theorem kept_before {k : Nat} (kept : .leak ∉ run.take n) (lt : k < n) : .leak ∉ run.take k :=
  fun mem => kept (List.take_subset_take_left _ (by omega) mem)

/-- No octet of the exported keys is safe if the context was done before any leak. -/
theorem Run.exportedKeys_not_safe (h : Run ids run) (at_n : run[n]? = some e)
    (done : e.done = true) (kept : .leak ∉ run.take n) {x : Sym} (mem : x ∈ e.exportedKeys) :
    ¬ Safe (ledger run) x := by
  cases e with
  | start03 m1 c => exact nomatch (h.started03 at_n).done.symm.trans done
  | answer03 m1 m2 c =>
    obtain ⟨-, _, _, answered⟩ := h.answered03 at_n
    exact nomatch answered.done.symm.trans done
  | accept03 start m2 m3 c => exact h.accept03_not_safe kept at_n mem
  | finish03 answer m3 m4 c => exact h.finish03_not_safe kept at_n mem
  | close03 accept m4 c =>
    obtain ⟨_, _, _, c₀, lt, at_accept, rfl⟩ := h.closed03 at_n
    exact h.accept03_not_safe (kept_before kept lt) at_accept mem
  | start4 m1 c => exact nomatch (h.started4 at_n).done.symm.trans done
  | answer4 m1 m2 c =>
    obtain ⟨-, _, _, answered⟩ := h.answered4 at_n
    exact nomatch answered.done.symm.trans done
  | accept4 start m2 m3 c =>
    obtain ⟨_, _, -, -, -, _, _, _, accepted⟩ := h.accepted4 at_n
    exact nomatch accepted.done.symm.trans done
  | finish4 answer m3 m4 c => exact h.finish4_not_safe kept at_n mem
  | close4 accept m4 c =>
    obtain ⟨_, _, _, c₀, lt, at_accept, -, _, -, rfl⟩ := h.closed4 at_n
    obtain ⟨_, _, -, -, -, _, _, _, accepted⟩ := h.accepted4 at_accept
    exact accepted.exported.not_safe (ledger_onlyMacs run)
      (h.not_safeAll_prk4e3m (kept_before kept lt) at_accept run) mem
  | leak => cases done

/-- In every run, the attacker never learns an octet of MSK or EMSK of a context that
was done before the long-term keys leaked, if they leaked at all. -/
theorem secrecy (h : Run ids run) (at_n : run[n]? = some e) (done : e.done = true)
    (kept : .leak ∉ run.take n) : ∀ x ∈ e.exportedKeys, ¬ Knows (Seen ids run) x := by
  intro x mem knows
  exact h.exportedKeys_not_safe at_n done kept mem
    (knows.safe (fun _ => trivial) fun _ seen => h.safe seen)

/-- An exchange of method 4 after which all long-term keys leak. -/
theorem secrecy_after_leak :
    ∃ (run : List Event) (m3 m4 : List Sym) (c : Edhoc4.Ctx Sym), Run selftestIds run ∧
      run[3]? = some (.finish4 1 m3 m4 c) ∧ c.done = true ∧
      (∀ party, ∀ x ∈ secretKeys selftestIds party, Knows (Seen selftestIds run) x) ∧
      ∀ x ∈ c.msk.toList ++ c.emsk.toList, ¬ Knows (Seen selftestIds run) x := by
  obtain ⟨x, agrees, -⟩ := Edhoc4.exchange_exists primitives_correct
    (Edhoc4.creds4_valid selftestIds .initiator) (Edhoc4.creds4_valid selftestIds .responder)
    Edhoc4.runCoins
  have valid : Run selftestIds (exchangeEvents x ++ [.leak]) := .snoc (run_exchangeEvents x) .leak
  refine ⟨_, x.m3, x.m4, x.r₂, valid, rfl, agrees.rDone, fun party y mem => ?_, ?_⟩
  · exact .seen (.inr (.inr ⟨by simp, party, mem⟩))
  · exact secrecy valid (e := .finish4 1 x.m3 x.m4 x.r₂) (n := 3) rfl agrees.rDone
      (by simp [exchangeEvents])

end EdhocAuth.Attacker
