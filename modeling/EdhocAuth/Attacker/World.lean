/-
Runs of the two honest parties on a network that belongs to the attacker.

A run is the list of the events so far, oldest first; the position of an event is
its time. An event is a successful call of a handler with the messages and the
context as of that call. The handlers are those of `edhoc03.c` and `edhoc4.c` over
perfect cryptography; every context starts from the credentials of its party and
the public keys provisioned for the other one.

* Any number of contexts run side by side, in both cores. A context makes its calls
  in protocol order, each at most once. A failed call is no event: the drivers end
  the handshake then, and here the context may even be tried again as it was.
* Every message handed to a handler is one the attacker can compute from the public
  keys and all messages sent before.
* All randomness of a call is fresh: it is named after the time of the call.
* `leak` hands all long-term secrets of both parties to the attacker.
-/

import EdhocAuth.Crypto.Knowledge
import EdhocAuth.Crypto.Parties
import EdhocAuth.Edhoc03.Spec
import EdhocAuth.Edhoc4.Honest

namespace EdhocAuth.Attacker

open Symbolic

/-! ### Events -/

/-- `start`, `answer` and `accept` are the times at which a context made its previous
call. -/
inductive Event where
  | start03 (m1 : List Sym) (ctx : Edhoc03.Ctx Sym)
  | answer03 (m1 m2 : List Sym) (ctx : Edhoc03.Ctx Sym)
  | accept03 (start : Nat) (m2 m3 : List Sym) (ctx : Edhoc03.Ctx Sym)
  | finish03 (answer : Nat) (m3 m4 : List Sym) (ctx : Edhoc03.Ctx Sym)
  | close03 (accept : Nat) (m4 : List Sym) (ctx : Edhoc03.Ctx Sym)
  | start4 (m1 : List Sym) (ctx : Edhoc4.Ctx Sym)
  | answer4 (m1 m2 : List Sym) (ctx : Edhoc4.Ctx Sym)
  | accept4 (start : Nat) (m2 m3 : List Sym) (ctx : Edhoc4.Ctx Sym)
  | finish4 (answer : Nat) (m3 m4 : List Sym) (ctx : Edhoc4.Ctx Sym)
  | close4 (accept : Nat) (m4 : List Sym) (ctx : Edhoc4.Ctx Sym)
  | leak

def Event.sent : Event → List Sym
  | .start03 m1 _ | .start4 m1 _ => m1
  | .answer03 _ m2 _ | .answer4 _ m2 _ => m2
  | .accept03 _ _ m3 _ | .accept4 _ _ m3 _ => m3
  | .finish03 _ _ m4 _ | .finish4 _ _ m4 _ => m4
  | .close03 .. | .close4 .. | .leak => []

/-- Event `e` continues the context whose previous call was at time `n`. -/
def Event.Continues (n : Nat) : Event → Prop
  | .accept03 k _ _ _ | .finish03 k _ _ _ | .close03 k _ _ => k = n
  | .accept4 k _ _ _ | .finish4 k _ _ _ | .close4 k _ _ => k = n
  | .start03 .. | .answer03 .. | .start4 .. | .answer4 .. | .leak => False

/-! ### What the attacker has seen -/

/-- What the two parties publish. -/
noncomputable def publicKeys (ids : Ids) (party : Party) : List Sym :=
  (creds03 ids party).sigVk.toList ++ ((creds03 ids party).dhPk.toList ++
    ((creds4 ids party).kemPk.toList ++ ((creds4 ids party).sigVk.toList ++
      (creds4 ids party).idCred.toList)))

/-- What the two parties keep for all their handshakes. -/
noncomputable def secretKeys (ids : Ids) (party : Party) : List Sym :=
  (creds03 ids party).sigSk.toList ++ ((creds03 ids party).dhSk.toList ++
    ((creds4 ids party).kemSk.toList ++ (creds4 ids party).sigSk.toList))

def Seen (ids : Ids) (past : List Event) (x : Sym) : Prop :=
  (∃ party, x ∈ publicKeys ids party) ∨ (∃ e ∈ past, x ∈ e.sent) ∨
    (.leak ∈ past ∧ ∃ party, x ∈ secretKeys ids party)

/-- The attacker can put `m` together. -/
def Known (ids : Ids) (past : List Event) (m : List Sym) : Prop :=
  ∀ x ∈ m, Knows (Seen ids past) x

/-! ### Contexts as the drivers set them up -/

noncomputable def initiator03 (ids : Ids) (method : Int) : Edhoc03.Ctx Sym :=
  Edhoc03.initInitiator method (creds03 ids .initiator) (creds03 ids .responder).pub

noncomputable def responder03 (ids : Ids) : Edhoc03.Ctx Sym :=
  Edhoc03.initResponder (creds03 ids .responder) (creds03 ids .initiator).pub

noncomputable def initiator4 (ids : Ids) : Edhoc4.Ctx Sym :=
  Edhoc4.initInitiator (creds4 ids .initiator) (creds4 ids .responder).kemPk

noncomputable def responder4 (ids : Ids) : Edhoc4.Ctx Sym :=
  Edhoc4.initResponder (creds4 ids .responder) (creds4 ids .initiator).kemPk

/-! ### Steps and runs -/

/-- The ephemeral key a call of methods 0 to 3 draws at time `t`. -/
def ephCoins (t : Nat) : Block Sym 32 := fresh 32 (.session t 0)

/-- The events that may come after `past`. -/
inductive Step (ids : Ids) (past : List Event) : Event → Prop
  | start03 {method : Int} {cap : Nat} {m1 : List Sym} {c : Edhoc03.Ctx Sym} :
      Edhoc03.iMakeMsg1 primitives (ephCoins past.length) cap (initiator03 ids method) =
        (.ok m1, c) →
      Step ids past (.start03 m1 c)
  | answer03 {cap : Nat} {m1 m2 : List Sym} {c : Edhoc03.Ctx Sym} : Known ids past m1 →
      Edhoc03.rHandleMsg1 primitives m1 (ephCoins past.length) cap (responder03 ids) =
        (.ok m2, c) →
      Step ids past (.answer03 m1 m2 c)
  | accept03 {cap start : Nat} {m1 m2 m3 : List Sym} {c₀ c : Edhoc03.Ctx Sym} :
      past[start]? = some (.start03 m1 c₀) → (∀ e ∈ past, ¬ e.Continues start) →
      Known ids past m2 → Edhoc03.iHandleMsg2 primitives m2 cap c₀ = (.ok m3, c) →
      Step ids past (.accept03 start m2 m3 c)
  | finish03 {answer : Nat} {m1 m2 m3 m4 : List Sym} {c₀ c : Edhoc03.Ctx Sym} :
      past[answer]? = some (.answer03 m1 m2 c₀) → (∀ e ∈ past, ¬ e.Continues answer) →
      Known ids past m3 → Edhoc03.rHandleMsg3 primitives m3 c₀ = (.ok m4, c) →
      Step ids past (.finish03 answer m3 m4 c)
  | close03 {accept start : Nat} {m2 m3 m4 : List Sym} {c₀ c : Edhoc03.Ctx Sym} :
      past[accept]? = some (.accept03 start m2 m3 c₀) → (∀ e ∈ past, ¬ e.Continues accept) →
      Known ids past m4 → Edhoc03.iHandleMsg4 m4 c₀ = (.ok (), c) →
      Step ids past (.close03 accept m4 c)
  | start4 {cap : Nat} {m1 : List Sym} {c : Edhoc4.Ctx Sym} :
      Edhoc4.iMakeMsg1 primitives (msg1Coins past.length) cap (initiator4 ids) = (.ok m1, c) →
      Step ids past (.start4 m1 c)
  | answer4 {cap : Nat} {m1 m2 : List Sym} {c : Edhoc4.Ctx Sym} : Known ids past m1 →
      Edhoc4.rHandleMsg1 primitives m1 (msg2Coins past.length) cap (responder4 ids) =
        (.ok m2, c) →
      Step ids past (.answer4 m1 m2 c)
  | accept4 {cap start : Nat} {m1 m2 m3 : List Sym} {c₀ c : Edhoc4.Ctx Sym} :
      past[start]? = some (.start4 m1 c₀) → (∀ e ∈ past, ¬ e.Continues start) →
      Known ids past m2 →
      Edhoc4.iHandleMsg2 primitives m2 (msg3Coins past.length) cap c₀ = (.ok m3, c) →
      Step ids past (.accept4 start m2 m3 c)
  | finish4 {cap answer : Nat} {m1 m2 m3 m4 : List Sym} {c₀ c : Edhoc4.Ctx Sym} :
      past[answer]? = some (.answer4 m1 m2 c₀) → (∀ e ∈ past, ¬ e.Continues answer) →
      Known ids past m3 →
      Edhoc4.rHandleMsg3 primitives m3 (msg4Coins past.length) cap c₀ = (.ok m4, c) →
      Step ids past (.finish4 answer m3 m4 c)
  | close4 {accept start : Nat} {m2 m3 m4 : List Sym} {c₀ c : Edhoc4.Ctx Sym} :
      past[accept]? = some (.accept4 start m2 m3 c₀) → (∀ e ∈ past, ¬ e.Continues accept) →
      Known ids past m4 → Edhoc4.iHandleMsg4 primitives m4 c₀ = (.ok (), c) →
      Step ids past (.close4 accept m4 c)
  | leak : Step ids past .leak

inductive Run (ids : Ids) : List Event → Prop
  | nil : Run ids []
  | snoc {past : List Event} {e : Event} : Run ids past → Step ids past e → Run ids (past ++ [e])

variable {ids : Ids} {run : List Event}

/-- Every event of a run was possible after the events before it. -/
theorem Run.step (h : Run ids run) {n : Nat} {e : Event} (mem : run[n]? = some e) :
    Run ids (run.take n) ∧ (run.take n).length = n ∧ Step ids (run.take n) e := by
  induction h with
  | nil => cases mem
  | @snoc past last hpast step ih =>
    by_cases old : n < past.length
    · rw [List.getElem?_append_left old] at mem
      rw [List.take_append_of_le_length (by omega)]
      exact ih mem
    · obtain rfl : n = past.length := by
        have := (List.getElem?_eq_some_iff.mp mem).1
        simp only [List.length_append, List.length_singleton] at this
        omega
      rw [List.getElem?_concat_length] at mem
      obtain rfl := Option.some.inj mem
      rw [List.take_left]
      exact ⟨hpast, rfl, step⟩

/-- The first events of a run are a run. -/
theorem Run.take (h : Run ids run) (n : Nat) : Run ids (run.take n) := by
  induction h with
  | nil => rw [List.take_nil]
           exact .nil
  | @snoc past last hpast step ih =>
    by_cases old : n ≤ past.length
    · rwa [List.take_append_of_le_length old]
    · rw [List.take_of_length_le]
      · exact .snoc hpast step
      · rw [List.length_append, List.length_singleton]
        omega

/-- A prefix of a run holds the events at the times before its end. -/
theorem getElem?_of_take {n k : Nat} {e : Event} (h : (run.take n)[k]? = some e) :
    k < n ∧ run[k]? = some e := by
  rw [List.getElem?_take] at h
  split at h
  · next lt => exact ⟨lt, h⟩
  · cases h

/-- No context makes its next call twice. -/
theorem Step.first {past : List Event} {e : Event} {k : Nat} (h : Step ids past e)
    (hk : e.Continues k) : ∀ x ∈ past, ¬ x.Continues k := by
  cases h with
  | start03 | answer03 | start4 | answer4 | leak => exact hk.elim
  | accept03 _ first | finish03 _ first | close03 _ first => exact hk ▸ first
  | accept4 _ first | finish4 _ first | close4 _ first => exact hk ▸ first

/-- Each context makes its next call at most once. -/
theorem Run.continues_unique (h : Run ids run) {n n' k : Nat} {e e' : Event}
    (he : run[n]? = some e) (he' : run[n']? = some e') (hk : e.Continues k)
    (hk' : e'.Continues k) : n = n' := by
  have before {a b : Nat} {x y : Event} (hx : run[a]? = some x) (hy : run[b]? = some y)
      (kx : x.Continues k) (ky : y.Continues k) : ¬ a < b := by
    intro lt
    obtain ⟨-, -, step⟩ := h.step hy
    have mem : x ∈ run.take b := by
      refine List.mem_of_getElem? (i := a) ?_
      rw [List.getElem?_take, if_pos lt, hx]
    exact step.first ky x mem kx
  have := before he he' hk hk'
  have := before he' he hk' hk
  omega

/-! ### Delivering messages unmodified -/

/-- What was sent can be delivered. -/
theorem known_sent {past : List Event} {e : Event} (mem : e ∈ past) : Known ids past e.sent :=
  fun _ sent => .seen (.inr (.inl ⟨e, mem, sent⟩))

def exchangeEvents (x : Edhoc4.Exchange primitives (creds4 ids .initiator)
    (creds4 ids .responder) Edhoc4.runCoins) : List Event :=
  [.start4 x.m1 x.i₁, .answer4 x.m1 x.m2 x.r₁, .accept4 0 x.m2 x.m3 x.i₂,
    .finish4 1 x.m3 x.m4 x.r₂, .close4 2 x.m4 x.i₃]

/-- An honest exchange is a run. -/
theorem run_exchangeEvents (x : Edhoc4.Exchange primitives (creds4 ids .initiator)
    (creds4 ids .responder) Edhoc4.runCoins) : Run ids (exchangeEvents x) := by
  have start : Run ids [.start4 x.m1 x.i₁] := .snoc .nil (.start4 x.makeMsg1)
  have answer : Run ids [.start4 x.m1 x.i₁, .answer4 x.m1 x.m2 x.r₁] :=
    .snoc start (.answer4 (known_sent (e := .start4 x.m1 x.i₁) (by simp)) x.handleMsg1)
  have accept : Run ids [.start4 x.m1 x.i₁, .answer4 x.m1 x.m2 x.r₁, .accept4 0 x.m2 x.m3 x.i₂] :=
    .snoc answer (.accept4 rfl (by simp [Event.Continues])
      (known_sent (e := .answer4 x.m1 x.m2 x.r₁) (by simp)) x.handleMsg2)
  have finish : Run ids [.start4 x.m1 x.i₁, .answer4 x.m1 x.m2 x.r₁, .accept4 0 x.m2 x.m3 x.i₂,
      .finish4 1 x.m3 x.m4 x.r₂] :=
    .snoc accept (.finish4 rfl (by simp [Event.Continues])
      (known_sent (e := .accept4 0 x.m2 x.m3 x.i₂) (by simp)) x.handleMsg3)
  exact .snoc finish (.close4 rfl (by simp [Event.Continues])
    (known_sent (e := .finish4 1 x.m3 x.m4 x.r₂) (by simp)) x.handleMsg4)

end EdhocAuth.Attacker
