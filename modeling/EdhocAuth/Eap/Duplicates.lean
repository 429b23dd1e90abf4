/-
The same request twice.

Nothing in the UE compares EAP identifiers: a request that arrives again is processed
again, on the state the first left behind. Whether that makes a difference depends on
the phase (`Ue.Repeatable`): it never does for a request that is refused, for a wire that
adds nothing to the reassembly, and for a single wire that ends the handshake; it always
does while a message is going out, while a message is growing, and when a handshake step
is made.
-/

import EdhocAuth.Eap.Conversations

namespace EdhocAuth.Eap

open Proc

/-! ### The same wire twice at a receiver -/

/-- Copying to the start of a buffer twice is copying once. -/
theorem memcpyAt_zero_again (buf data : List UInt8) :
    memcpyAt (memcpyAt buf 0 data) 0 data = memcpyAt buf 0 data := by
  simp [memcpyAt]

namespace Rx

variable {inp msg : List UInt8} {r r' r'' : Rx} {e : Edhoc4.Err}

/-- A wire that was admitted is admitted again while its message is in progress. -/
theorem Admits.again (admits : Admits inp r r') {t : Rx} (same : t.len = r'.len) :
    Admits inp t t := by
  have opened : t.len ≠ 0 := by
    rw [same]
    exact admits.opened
  cases admits with
  | opens announces _ => exact .repeats announces opened same
  | repeats announces _ total => exact .repeats announces opened (same.trans total)
  | continues plain nonempty _ => exact .continues plain nonempty opened

/-- A wire that is admitted is taken in. -/
theorem accept_of_admits (admits : Admits inp r r') :
    accept inp r = acceptPiece (hasFlag fragFlagMore (inp.headD 0)) (wirePayload inp) r' := by
  obtain ⟨-, outside, -⟩ | ⟨-, alone⟩ | ⟨t, admitted, other⟩ := accept_cases inp r
  · exact absurd admits (outside r')
  · exact absurd admits (alone.outside r')
  · rw [admitted, other.unique admits]

/-- A whole message for an idle receiver is delivered. -/
theorem accept_of_alone (alone : Alone inp r) :
    accept inp r = (.ok (some (wirePayload inp)), r) := by
  obtain ⟨-, -, other⟩ | ⟨delivered, -⟩ | ⟨t, -, admits⟩ := accept_cases inp r
  · exact absurd alone other
  · exact delivered
  · exact absurd admits (alone.outside t)

/-- A wire that is neither is rejected. -/
theorem accept_refused (outside : ∀ r', ¬ Admits inp r r') (other : ¬ Alone inp r) :
    ∃ e, accept inp r = (.error e, r) := by
  obtain ⟨failed, -, -⟩ | ⟨-, alone⟩ | ⟨t, -, admits⟩ := accept_cases inp r
  · exact failed
  · exact absurd alone other
  · exact absurd admits (outside t)

/-- A piece without payload that does not complete the message changes nothing. -/
theorem acceptPiece_nil {more : Bool} (wf : r.Wf) (unfinished : more = true ∨ r.pos < r.len) :
    (∃ e, acceptPiece more [] r = (.error e, r)) ∨ acceptPiece more [] r = (.ok none, r) := by
  have inside : r.pos + ([] : List UInt8).length ≤ r.len := wf.pos
  cases more with
  | true =>
    have asked := acceptPiece_more inside
    rw [put_nil] at asked
    exact .inr asked
  | false =>
    have gap : r.pos + ([] : List UInt8).length < r.len :=
      unfinished.resolve_left Bool.false_ne_true
    have failed := acceptPiece_short gap
    rw [put_nil] at failed
    exact .inl ⟨_, failed⟩

/-- The wire adds nothing to the message in progress, or would not fit a second time. -/
inductive Stutters (inp : List UInt8) (r : Rx) : Prop where
  | refused (outside : ∀ r', ¬ Admits inp r r') (other : ¬ Alone inp r)
  | tooLong {r' : Rx} (admits : Admits inp r r') (long : r'.len < r'.pos + (wirePayload inp).length)
  | empty {r' : Rx} (admits : Admits inp r r') (empty : wirePayload inp = [])
      (unfinished : hasFlag fragFlagMore (inp.headD 0) = true ∨ r'.pos < r'.len)
  | gap {r' : Rx} (admits : Admits inp r r') (last : hasFlag fragFlagMore (inp.headD 0) = false)
      (gap : r'.pos + (wirePayload inp).length < r'.len)
      (full : r'.len < r'.pos + (wirePayload inp).length + (wirePayload inp).length)

/-- The wire is rejected both times, or acknowledged both times, and the second time
changes nothing. -/
def SameTwice (inp : List UInt8) (r r' : Rx) : Prop :=
  ((∃ e, accept inp r = (.error e, r')) ∧ ∃ e, accept inp r' = (.error e, r')) ∨
    (accept inp r = (.ok none, r') ∧ accept inp r' = (.ok none, r'))

/-- A wire that adds nothing has the same outcome twice. -/
theorem Stutters.same_twice (wf : r.Wf) (stutters : Stutters inp r) : ∃ r', SameTwice inp r r' := by
  cases stutters with
  | refused outside other =>
    obtain ⟨e, failed⟩ := accept_refused outside other
    exact ⟨r, .inl ⟨⟨e, failed⟩, e, failed⟩⟩
  | @tooLong t admits long =>
    refine ⟨t, .inl ⟨⟨.buf, ?_⟩, .buf, ?_⟩⟩
    · rw [accept_of_admits admits, acceptPiece_tooLong long]
    · rw [accept_of_admits (admits.again rfl), acceptPiece_tooLong long]
  | @empty t admits empty unfinished =>
    have first := accept_of_admits admits
    have second := accept_of_admits (admits.again (t := t) rfl)
    rw [empty] at first second
    obtain ⟨e, failed⟩ | asked := acceptPiece_nil (admits.wf wf) unfinished
    · exact ⟨t, .inl ⟨⟨e, first.trans failed⟩, e, second.trans failed⟩⟩
    · exact ⟨t, .inr ⟨first.trans asked, second.trans asked⟩⟩
  | @gap t admits last gap full =>
    refine ⟨t.put (wirePayload inp), .inl ⟨⟨.parse, ?_⟩, .buf, ?_⟩⟩
    · rw [accept_of_admits admits, last, acceptPiece_short gap]
    · rw [accept_of_admits (admits.again (t := t.put (wirePayload inp)) rfl)]
      exact acceptPiece_tooLong full

section SameTwice

variable (same : SameTwice inp r r')
include same

/-- A wire with the same outcome twice completes no message. -/
theorem SameTwice.not_message : accept inp r ≠ (.ok (some msg), r'') := by
  intro delivered
  obtain ⟨⟨e, failed⟩, -⟩ | ⟨asked, -⟩ := same
  · cases (Prod.mk.inj (failed.symm.trans delivered)).1
  · cases (Prod.mk.inj (asked.symm.trans delivered)).1

/-- What is acknowledged is acknowledged again. -/
theorem SameTwice.part (first : accept inp r = (.ok none, r'')) :
    accept inp r'' = (.ok none, r'') := by
  obtain ⟨⟨e, failed⟩, -⟩ | ⟨asked, asked'⟩ := same
  · cases (Prod.mk.inj (failed.symm.trans first)).1
  · rw [← (Prod.mk.inj (asked.symm.trans first)).2]
    exact asked'

/-- What is rejected is rejected again. -/
theorem SameTwice.rejected (first : accept inp r = (.error e, r'')) :
    ∃ e', accept inp r'' = (.error e', r'') := by
  obtain ⟨⟨e, failed⟩, again⟩ | ⟨asked, -⟩ := same
  · rw [← (Prod.mk.inj (failed.symm.trans first)).2]
    exact again
  · cases (Prod.mk.inj (asked.symm.trans first)).1

/-- A piece with more to come is acknowledged twice only if it is empty. -/
theorem SameTwice.part_empty (admits : Admits inp r r'')
    (fits : r''.pos + (wirePayload inp).length ≤ r''.len)
    (more : hasFlag fragFlagMore (inp.headD 0) = true) : wirePayload inp = [] := by
  by_contra nonempty
  have first := accept_of_admits admits
  rw [more, acceptPiece_more fits] at first
  have second := accept_of_admits (admits.again (t := r''.put (wirePayload inp)) rfl)
  rw [same.part first, more] at second
  by_cases fits' : (r''.put (wirePayload inp)).pos + (wirePayload inp).length ≤ r''.len
  · rw [acceptPiece_more fits'] at second
    exact put_ne nonempty (Prod.mk.inj second).2.symm
  · rw [acceptPiece_tooLong (not_le.mp fits')] at second
    cases (Prod.mk.inj second).1

/-- Only wires of this kind do. -/
theorem SameTwice.stutters : Stutters inp r := by
  obtain ⟨-, outside, other⟩ | ⟨delivered, -⟩ | ⟨t, admitted, admits⟩ := accept_cases inp r
  · exact .refused outside other
  · exact absurd delivered same.not_message
  · cases flag : hasFlag fragFlagMore (inp.headD 0) with
    | true =>
      by_cases fits : t.pos + (wirePayload inp).length ≤ t.len
      · exact .empty admits (same.part_empty admits fits flag) (.inl flag)
      · exact .tooLong admits (not_le.mp fits)
    | false =>
      rw [flag] at admitted
      rcases lt_trichotomy (t.pos + (wirePayload inp).length) t.len with gap | all | long
      · by_cases empty : wirePayload inp = []
        · refine .empty admits empty (.inr ?_)
          rw [empty] at gap
          exact gap
        · -- the piece has been added: the second time it must not fit
          rw [acceptPiece_short gap] at admitted
          obtain ⟨e, failed⟩ := same.rejected admitted
          have second := accept_of_admits (admits.again (t := t.put (wirePayload inp)) rfl)
          rw [failed, flag] at second
          rcases lt_trichotomy ((t.put (wirePayload inp)).pos + (wirePayload inp).length)
            (t.put (wirePayload inp)).len with gap' | all | full
          · rw [acceptPiece_short gap'] at second
            exact absurd (Prod.mk.inj second).2.symm (put_ne empty)
          · rw [acceptPiece_last all] at second
            cases (Prod.mk.inj second).1
          · exact .gap admits flag gap full
      · rw [acceptPiece_last all] at admitted
        exact absurd admitted same.not_message
      · exact .tooLong admits long

end SameTwice

/-- A wire that is a whole message for an idle receiver, if it is the last of one. -/
def Single (inp : List UInt8) : Prop :=
  hasFlag fragFlagLen (inp.headD 0) = false ∨ (wirePayload inp).length = totalLen inp

/-- How a wire completes a message. -/
theorem message_cases (delivered : accept inp r = (.ok (some msg), r')) :
    (Alone inp r ∧ r' = r) ∨
      ∃ t, Admits inp r t ∧ t.pos + (wirePayload inp).length = t.len ∧
        hasFlag fragFlagMore (inp.headD 0) = false ∧
        r' = { t.put (wirePayload inp) with len := 0, pos := 0 } := by
  obtain ⟨⟨e, failed⟩, -, -⟩ | ⟨passed, alone⟩ | ⟨t, admitted, admits⟩ := accept_cases inp r
  · cases (Prod.mk.inj (failed.symm.trans delivered)).1
  · exact .inl ⟨alone, (Prod.mk.inj (delivered.symm.trans passed)).2⟩
  · rw [delivered] at admitted
    cases flag : hasFlag fragFlagMore (inp.headD 0) with
    | true =>
      rw [flag] at admitted
      by_cases fits : t.pos + (wirePayload inp).length ≤ t.len
      · rw [acceptPiece_more fits] at admitted
        cases (Prod.mk.inj admitted).1
      · rw [acceptPiece_tooLong (not_le.mp fits)] at admitted
        cases (Prod.mk.inj admitted).1
    | false =>
      rw [flag] at admitted
      rcases lt_trichotomy (t.pos + (wirePayload inp).length) t.len with gap | all | long
      · rw [acceptPiece_short gap] at admitted
        cases (Prod.mk.inj admitted).1
      · rw [acceptPiece_last all] at admitted
        exact .inr ⟨t, admits, all, rfl, (Prod.mk.inj admitted).2⟩
      · rw [acceptPiece_tooLong long] at admitted
        cases (Prod.mk.inj admitted).1

/-- Only a wire with the more flag is acknowledged. -/
theorem more_of_part (asked : accept inp r = (.ok none, r')) :
    hasFlag fragFlagMore (inp.headD 0) = true := by
  obtain ⟨⟨e, failed⟩, -, -⟩ | ⟨passed, -⟩ | ⟨t, admitted, -⟩ := accept_cases inp r
  · cases (Prod.mk.inj (failed.symm.trans asked)).1
  · cases (Prod.mk.inj (passed.symm.trans asked)).1
  · rw [asked] at admitted
    by_contra last
    rw [eq_false_of_ne_true last] at admitted
    rcases lt_trichotomy (t.pos + (wirePayload inp).length) t.len with gap | all | long
    · rw [acceptPiece_short gap] at admitted
      cases (Prod.mk.inj admitted).1
    · rw [acceptPiece_last all] at admitted
      cases (Prod.mk.inj admitted).1
    · rw [acceptPiece_tooLong long] at admitted
      cases (Prod.mk.inj admitted).1

/-- Only a wire without it completes a message. -/
theorem last_of_message (delivered : accept inp r = (.ok (some msg), r')) :
    hasFlag fragFlagMore (inp.headD 0) = false := by
  obtain ⟨alone, -⟩ | ⟨t, -, -, last, -⟩ := message_cases delivered
  · exact alone.last
  · exact last

/-- After a wire that completed a message the same wire completes one again, and changes
nothing, just when it is a single one. -/
theorem Single.message_again (single : Single inp)
    (delivered : accept inp r = (.ok (some msg), r')) :
    ∃ msg', accept inp r' = (.ok (some msg'), r') := by
  obtain ⟨alone, rfl⟩ | ⟨t, admits, all, last, after⟩ := message_cases delivered
  · exact ⟨_, accept_of_alone alone⟩
  · have closed : r'.len = 0 := by rw [after]
    have plain (plain : hasFlag fragFlagLen (inp.headD 0) = false) (nonempty : inp ≠ []) :
        ∃ msg', accept inp r' = (.ok (some msg'), r') :=
      ⟨_, accept_of_alone ⟨nonempty, plain, last, closed⟩⟩
    have announced (announces : Announces inp) (total : t.len = totalLen inp) :
        ∃ msg', accept inp r' = (.ok (some msg'), r') := by
      have size : (wirePayload inp).length = totalLen inp := by
        rcases single with plain | size
        · exact absurd announces.flag (ne_true_of_eq_false plain)
        · exact size
      have start : t.pos = 0 := by omega
      have second := accept_of_admits (.opens announces closed)
      rw [last, acceptPiece_last ((Nat.zero_add _).trans size)] at second
      refine ⟨_, second.trans (congrArg (Prod.mk _) ?_)⟩
      rw [after]
      show Rx.mk (memcpyAt (memcpyAt t.buf t.pos _) 0 _) 0 0 = Rx.mk (memcpyAt t.buf t.pos _) 0 0
      rw [start, memcpyAt_zero_again]
    cases admits with
    | opens announces _ => exact announced announces rfl
    | repeats announces _ total => exact announced announces total
    | continues flag nonempty _ => exact plain flag nonempty

/-- A wire that completes a message twice is a whole message. -/
theorem single_of_message_again (delivered : accept inp r = (.ok (some msg), r'))
    {msg' : List UInt8} (again : accept inp r' = (.ok (some msg'), r'')) : Single inp := by
  obtain ⟨alone, rfl⟩ | ⟨t, admits, all, last, after⟩ := message_cases delivered
  · exact .inl alone.plain
  · have closed : r'.len = 0 := by rw [after]
    obtain ⟨alone, -⟩ | ⟨s, admits', all', -, -⟩ := message_cases again
    · exact .inl alone.plain
    · cases admits' with
      | opens announces _ =>
        refine .inr ?_
        have size : 0 + (wirePayload inp).length = totalLen inp := all'
        omega
      | repeats _ opened _ => exact absurd closed opened
      | continues _ _ opened => exact absurd closed opened
end Rx

/-! ### The same request twice at the UE -/

/-- The requests that make no difference when they arrive twice. -/
inductive Ue.Repeatable (P : Primitives UInt8) (data : List UInt8) (u : Ue) : Prop where
  | refused (silent : ¬ u.outPos < u.outLen) (round : u.round = .idle) (other : data ≠ [0x01])
  | stutters (silent : ¬ u.outPos < u.outLen) (later : u.round ≠ .idle)
      (stutters : Rx.Stutters data (Ue.rxPart.get u))
  | acknowledged (silent : ¬ u.outPos < u.outLen) (round : u.round = .complete)
      {msg : List UInt8} {r : Rx} (parsed : Rx.accept data (Ue.rxPart.get u) = (.ok (some msg), r))
      (single : Rx.Single data)
  | completed (silent : ¬ u.outPos < u.outLen) (round : u.round = .msg3Sent)
      {msg : List UInt8} {r : Rx} (parsed : Rx.accept data (Ue.rxPart.get u) = (.ok (some msg), r))
      {c : Edhoc4.Ctx UInt8} (handled : Edhoc4.iHandleMsg4 P msg u.ctx = (.ok (), c))
      (single : Rx.Single data)

def Ue.CannotStart (P : Primitives UInt8) (coins : UeCoins) (data : List UInt8) (u : Ue) : Prop :=
  data = [0x01] ∧ ∃ e c, Edhoc4.iMakeMsg1 P coins.msg1 Edhoc4.maxMsg
    (Edhoc4.initInitiator u.creds u.peerPub) = (.error e, c)

section Twice

variable {P : Primitives UInt8} {coins coins' : UeCoins} {data : List UInt8} {u v : Ue}
  {out : Except SmCause (List UInt8)}

/-- A repeatable request is answered in the same way, and the second time changes nothing. -/
theorem Ue.Repeatable.again (wf : u.Wf) (repeatable : u.Repeatable P data) :
    settle (answerEdhoc P coins' data (settle (answerEdhoc P coins data u)).2) =
      settle (answerEdhoc P coins data u) := by
  cases repeatable with
  | refused silent round other =>
    have step (c : UeCoins) : settle (answerEdhoc P c data u) = _ :=
      (UeStep.refused silent round other).run
    rw [step, step]
  | stutters silent later stutters =>
    obtain ⟨r, ⟨⟨e, failed⟩, e', failed'⟩ | ⟨asked, asked'⟩⟩ := stutters.same_twice wf.rx
    · rw [(UeStep.rejected silent later failed).run]
      exact (UeStep.rejected (u := Ue.rxPart.set r u) silent later failed').run
    · rw [(UeStep.part silent later asked).run]
      exact (UeStep.part (u := Ue.rxPart.set r u) silent later asked').run
  | @acknowledged silent round msg r parsed single =>
    obtain ⟨msg', parsed'⟩ := single.message_again parsed
    rw [(UeStep.acknowledged silent round parsed).run]
    exact (UeStep.acknowledged (u := Ue.rxPart.set r u) silent round parsed').run
  | @completed silent round msg r parsed c handled single =>
    obtain ⟨msg', parsed'⟩ := single.message_again parsed
    rw [(UeStep.completed silent round parsed handled).run]
    exact (UeStep.acknowledged (u := { Ue.rxPart.set r u with ctx := c, round := .complete }) silent
      rfl parsed').run

/-- While a message is going out, every request moves it on. -/
theorem UeStep.moves (step : UeStep P coins data u out v) (left : u.outPos < u.outLen) :
    v.outPos ≠ u.outPos := by
  cases step with
  | sends _ =>
    have progress : 0 < fragLen u.outPos (u.outLen - u.outPos) := fragLen_pos (by omega)
    rw [encodeEdhocFragment, if_neg (by omega)]
    show u.outPos + fragLen u.outPos (u.outLen - u.outPos) ≠ u.outPos
    omega
  | refused silent _ _ => exact absurd left silent
  | started silent _ _ _ => exact absurd left silent
  | notStarted silent _ _ _ => exact absurd left silent
  | rejected silent _ _ => exact absurd left silent
  | part silent _ _ => exact absurd left silent
  | answered silent _ _ _ => exact absurd left silent
  | notAnswered silent _ _ _ => exact absurd left silent
  | completed silent _ _ _ => exact absurd left silent
  | notCompleted silent _ _ _ => exact absurd left silent
  | acknowledged silent _ _ => exact absurd left silent

/-- In round -1 only a start request that cannot be served runs out of resources. -/
theorem UeStep.cannotStart (step : UeStep P coins data u (.error .insufficientResources) v)
    (round : u.round = .idle) : u.CannotStart P coins data := by
  cases step with
  | notStarted _ _ start failed => exact ⟨start, _, _, failed⟩
  | notAnswered _ other _ _ => exact nomatch round.symm.trans other
  | notCompleted _ other _ _ => exact nomatch round.symm.trans other

/-- What a request does in a later round: it is rejected, acknowledged as a part, or
completes a message; only in round 3 does a message leave the round as it is. -/
theorem UeStep.of_later (step : UeStep P coins data u out v) (silent : ¬ u.outPos < u.outLen)
    (later : u.round ≠ .idle) :
    (∃ e r, Rx.accept data (Ue.rxPart.get u) = (.error e, r) ∧
      out = .error .invalidMandatoryInformation ∧ v = Ue.rxPart.set r u) ∨
    (∃ r, Rx.accept data (Ue.rxPart.get u) = (.ok none, r) ∧ out = .ok [0x00] ∧
      v = Ue.rxPart.set r u) ∨
    (∃ msg r, Rx.accept data (Ue.rxPart.get u) = (.ok (some msg), r) ∧
      ((u.round = .complete ∧ out = .ok [0x00]) ∨ v.round ≠ u.round)) := by
  cases step with
  | sends left => exact absurd left silent
  | refused _ round _ => exact absurd round later
  | started _ round _ _ => exact absurd round later
  | notStarted _ round _ _ => exact absurd round later
  | rejected _ _ parsed => exact .inl ⟨_, _, parsed, rfl, rfl⟩
  | part _ _ parsed => exact .inr (.inl ⟨_, parsed, rfl, rfl⟩)
  | answered _ round parsed _ =>
    exact .inr (.inr ⟨_, _, parsed, .inr fun same => nomatch same.trans round⟩)
  | notAnswered _ _ parsed _ => exact .inr (.inr ⟨_, _, parsed, .inr fun same => later same.symm⟩)
  | completed _ round parsed _ =>
    exact .inr (.inr ⟨_, _, parsed, .inr fun same => nomatch same.trans round⟩)
  | notCompleted _ _ parsed _ => exact .inr (.inr ⟨_, _, parsed, .inr fun same => later same.symm⟩)
  | acknowledged _ round parsed => exact .inr (.inr ⟨_, _, parsed, .inl ⟨round, rfl⟩⟩)

theorem Ue.rxPart_of_set_eq {r : Rx} (same : Ue.rxPart.set r u = u) : r = Ue.rxPart.get u := by
  have inside := congrArg Ue.rxPart.get same
  rw [Ue.rxPart.get_set] at inside
  exact inside

/-- A request that leaves the UE as it is in a later round is rejected or acknowledged
without a trace, or it is a message after the handshake. -/
theorem UeStep.of_fixed (step : UeStep P coins data u out v) (same : v = u)
    (silent : ¬ u.outPos < u.outLen) (later : u.round ≠ .idle) :
    (∃ e, Rx.accept data (Ue.rxPart.get u) = (.error e, Ue.rxPart.get u) ∧
      out = .error .invalidMandatoryInformation) ∨
    (Rx.accept data (Ue.rxPart.get u) = (.ok none, Ue.rxPart.get u) ∧ out = .ok [0x00]) ∨
    (∃ msg r, Rx.accept data (Ue.rxPart.get u) = (.ok (some msg), r) ∧ u.round = .complete ∧
      out = .ok [0x00]) := by
  rcases step.of_later silent later with ⟨e, r, parsed, answer, state⟩ |
    ⟨r, parsed, answer, state⟩ |
    ⟨msg, r, parsed, ⟨round, answer⟩ | round⟩
  · rw [Ue.rxPart_of_set_eq (state.symm.trans same)] at parsed
    exact .inl ⟨e, parsed, answer⟩
  · rw [Ue.rxPart_of_set_eq (state.symm.trans same)] at parsed
    exact .inr (.inl ⟨parsed, answer⟩)
  · exact .inr (.inr ⟨msg, r, parsed, round, answer⟩)
  · rw [same] at round
    exact absurd rfl round

/-- A fragment with something in it is no acknowledgement. -/
theorem encodeEdhocFragment_ne_ack (left : u.outPos < u.outLen) (fits : u.outLen ≤ u.out.length) :
    (encodeEdhocFragment u.out u.outLen u.outPos).1 ≠ [0x00] := by
  have bound := fragLen_le u.outPos (u.outLen - u.outPos)
  have progress : 0 < fragLen u.outPos (u.outLen - u.outPos) := fragLen_pos (by omega)
  rw [encodeEdhocFragment, if_neg (by omega)]
  intro same
  have tail := congrArg List.length (List.cons.inj same).2
  rw [List.length_append, List.length_take, List.length_drop] at tail
  have none : ([] : List UInt8).length = 0 := rfl
  omega

/-- Only repeatable requests, and start requests that cannot be served, are answered twice
in the same way with the second time changing nothing. -/
theorem UeStep.repeatable {out' : Except SmCause (List UInt8)} {w : Ue} (wf : u.Wf)
    (first : UeStep P coins data u out v) (second : UeStep P coins' data v out' w)
    (sameOut : out' = out) (sameState : w = v) :
    u.Repeatable P data ∨ u.CannotStart P coins' data := by
  cases first with
  | sends left =>
    have later : u.round ≠ .idle := by
      intro round
      obtain ⟨none_left, -⟩ := wf.idle round
      omega
    by_cases more : (encodeEdhocFragment u.out u.outLen u.outPos).2 < u.outLen
    · exact absurd (congrArg Ue.outPos sameState) (second.moves more)
    · rcases second.of_fixed sameState more later with ⟨e, -, answer⟩ | ⟨-, answer⟩ |
        ⟨_, _, -, -, answer⟩
      · cases answer.symm.trans sameOut
      · exact absurd (Except.ok.inj (sameOut.symm.trans answer))
          (encodeEdhocFragment_ne_ack left wf.out)
      · exact absurd (Except.ok.inj (sameOut.symm.trans answer))
          (encodeEdhocFragment_ne_ack left wf.out)
  | refused silent round other => exact .inl (.refused silent round other)
  | started silent round start made =>
    have several := iMakeMsg1_several made
    exact absurd (congrArg Ue.outPos sameState) (second.moves ((Nat.zero_add _).trans_lt several))
  | notStarted silent round start failed =>
    subst sameOut
    exact .inr (second.cannotStart rfl)
  | rejected silent later parsed =>
    rcases second.of_fixed sameState silent later with ⟨e, parsed', -⟩ | ⟨-, answer⟩ |
      ⟨_, _, -, -, answer⟩
    · exact .inl (.stutters silent later (Rx.SameTwice.stutters (.inl ⟨⟨_, parsed⟩, e, parsed'⟩)))
    · cases answer.symm.trans sameOut
    · cases answer.symm.trans sameOut
  | part silent later parsed =>
    rcases second.of_fixed sameState silent later with ⟨e, -, answer⟩ | ⟨parsed', -⟩ |
      ⟨_, _, parsed', -, -⟩
    · cases answer.symm.trans sameOut
    · exact .inl (.stutters silent later (Rx.SameTwice.stutters (.inr ⟨parsed, parsed'⟩)))
    · exact absurd (Rx.more_of_part parsed) (ne_true_of_eq_false (Rx.last_of_message parsed'))
  | @answered silent round msg r parsed m3 c handled =>
    by_cases more : 0 + pieceLen m3 0 < m3.length
    · exact absurd (congrArg Ue.outPos sameState) (second.moves more)
    · rcases second.of_fixed sameState more UeRound.noConfusion with ⟨e, -, answer⟩ | ⟨parsed', -⟩ |
        ⟨_, _, -, complete, -⟩
      · cases answer.symm.trans sameOut
      · exact absurd (Rx.more_of_part parsed') (ne_true_of_eq_false (Rx.last_of_message parsed))
      · cases complete
  | notAnswered silent round parsed failed =>
    subst sameOut
    exact .inr (second.cannotStart rfl)
  | completed silent round parsed handled =>
    rcases second.of_fixed sameState silent UeRound.noConfusion with ⟨e, -, answer⟩ | ⟨parsed', -⟩ |
      ⟨_, _, parsed', -, -⟩
    · cases answer.symm.trans sameOut
    · exact absurd (Rx.more_of_part parsed') (ne_true_of_eq_false (Rx.last_of_message parsed))
    · exact .inl (.completed silent round parsed handled
        (Rx.single_of_message_again parsed parsed'))
  | notCompleted silent round parsed failed =>
    subst sameOut
    exact .inr (second.cannotStart rfl)
  | acknowledged silent round parsed =>
    have later : u.round ≠ .idle := by
      rw [round]
      decide
    rcases second.of_fixed sameState silent later with ⟨e, -, answer⟩ | ⟨parsed', -⟩ |
      ⟨_, _, parsed', -, -⟩
    · cases answer.symm.trans sameOut
    · exact absurd (Rx.more_of_part parsed') (ne_true_of_eq_false (Rx.last_of_message parsed))
    · exact .inl (.acknowledged silent round parsed (Rx.single_of_message_again parsed parsed'))

end Twice

/-! ### The same command twice -/

/-- The second delivery of a command gets the reply of the first and changes nothing. -/
def SameAgain (P : Primitives UInt8) (cfg : UeConfig) (coins coins' : UeCoins) (cmd : Command)
    (u : Ue) : Prop :=
  receivePduSessionAuthenticationCommand P cfg coins' cmd
      (receivePduSessionAuthenticationCommand P cfg coins cmd u).2 =
    receivePduSessionAuthenticationCommand P cfg coins cmd u

section Command

variable {P : Primitives UInt8} {cfg : UeConfig} {coins coins' : UeCoins} {h : Header}
  {data : List UInt8} {u v : Ue}

def Header.reply (h : Header) : Except SmCause (List UInt8) → UeReply
  | .ok answer => .complete h.psi h.pti h.id (.edhoc answer)
  | .error c => .status h.psi h.pti c

/-- A reply determines the outcome. -/
theorem Header.reply_inj {a b : Except SmCause (List UInt8)} (same : h.reply a = h.reply b) :
    a = b := by
  cases a with
  | error c =>
    cases b with
    | error c' => rw [(UeReply.status.inj same).2.2]
    | ok answer => cases same
  | ok answer =>
    cases b with
    | error c => cases same
    | ok answer' => rw [EapAnswer.edhoc.inj (UeReply.complete.inj same).2.2.2]

/-- A command with EDHOC data gets the reply to what it carries. -/
theorem command_edhoc (h : Header) (coins : UeCoins) (data : List UInt8) (u : Ue) :
    receivePduSessionAuthenticationCommand P cfg coins (h.command data) u =
      (h.reply (receiveEdhoc P cfg.files coins data u).1,
        (receiveEdhoc P cfg.files coins data u).2) := by
  cases received : receiveEdhoc P cfg.files coins data u with
  | mk out v =>
    cases out with
    | error c => exact command_edhoc_error P cfg received
    | ok answer => exact command_edhoc_ok P cfg received

/-- The second delivery changes nothing just if the data has the same outcome again. -/
theorem sameAgain_iff : SameAgain P cfg coins coins' (h.command data) u ↔
    receiveEdhoc P cfg.files coins' data (receiveEdhoc P cfg.files coins data u).2 =
      receiveEdhoc P cfg.files coins data u := by
  unfold SameAgain
  rw [command_edhoc, command_edhoc]
  constructor
  · intro same
    obtain ⟨reply, state⟩ := Prod.mk.inj same
    exact Prod.ext (Header.reply_inj reply) state
  · intro same
    rw [same]

/-- A failed load fails again, and a successful one is remembered. -/
theorem ensureEdhocProvisioned_error {files : UeFiles}
    (failed : ensureEdhocProvisioned files u = (.error (), v)) :
    ensureEdhocProvisioned files v = (.error (), v) := by
  rcases ensureEdhocProvisioned_cases files u with ⟨-, same⟩ | ⟨-, -, same⟩ |
    ⟨fresh, c, creds, ⟨e, pub⟩, same⟩ | ⟨-, c, p, -, -, same⟩
  · cases (Prod.mk.inj (failed.symm.trans same)).1
  · obtain rfl := (Prod.mk.inj (failed.symm.trans same)).2
    exact same
  · obtain rfl := (Prod.mk.inj (failed.symm.trans same)).2
    rcases ensureEdhocProvisioned_cases files { u with creds := c } with ⟨loaded, -⟩ |
      ⟨-, ⟨e', creds'⟩, -⟩ | ⟨-, c', creds', -, again⟩ | ⟨-, c', p, -, pub', -⟩
    · exact absurd loaded fresh
    · cases creds'.symm.trans creds
    · rw [again, Except.ok.inj (creds'.symm.trans creds)]
    · cases pub'.symm.trans pub
  · cases (Prod.mk.inj (failed.symm.trans same)).1

theorem ensureEdhocProvisioned_ok {files : UeFiles}
    (ok : ensureEdhocProvisioned files u = (.ok (), v)) : v.provisioned = true := by
  rcases ensureEdhocProvisioned_cases files u with ⟨loaded, same⟩ | ⟨-, -, same⟩ |
    ⟨-, c, -, -, same⟩ | ⟨-, c, p, -, -, same⟩
  · rw [(Prod.mk.inj (ok.symm.trans same)).2]
    exact loaded
  · cases (Prod.mk.inj (ok.symm.trans same)).1
  · cases (Prod.mk.inj (ok.symm.trans same)).1
  · rw [(Prod.mk.inj (ok.symm.trans same)).2]

theorem UeStep.provisioned {out : Except SmCause (List UInt8)}
    (step : UeStep P coins data u out v) :
    v.provisioned = u.provisioned := by
  cases step <;> rfl

/-- The first delivery provisions the UE, so the second meets what the first left. -/
theorem receiveEdhoc_twice (provisioned : ensureEdhocProvisioned cfg.files u = (.ok (), v)) :
    receiveEdhoc P cfg.files coins' data (receiveEdhoc P cfg.files coins data u).2 =
      settle (answerEdhoc P coins' data (settle (answerEdhoc P coins data v)).2) := by
  rw [receiveEdhoc_eq_settle provisioned]
  apply receiveEdhoc_eq_settle
  apply ensureEdhocProvisioned_again
  exact (answerEdhoc_step P coins data v).provisioned.trans (ensureEdhocProvisioned_ok provisioned)

/-- In every state of every run: a repeated EAP-EDHOC request, whatever the randomness, gets
the same reply and changes nothing if the files cannot be loaded or the request is
repeatable; and if it gets the same reply and changes nothing, then it is repeatable, or a
start request for which message_1 cannot be made. -/
theorem duplicate_requests (P : Primitives UInt8) (cfg : UeConfig) (inputs : List NasInput)
    (h : Header) (data : List UInt8) (coins coins' : UeCoins) :
    ((∀ v, ensureEdhocProvisioned cfg.files (Ue.after P cfg inputs) = (.ok (), v) →
        v.Repeatable P data) →
      SameAgain P cfg coins coins' (h.command data) (Ue.after P cfg inputs)) ∧
    (SameAgain P cfg coins coins' (h.command data) (Ue.after P cfg inputs) →
      ∀ v, ensureEdhocProvisioned cfg.files (Ue.after P cfg inputs) = (.ok (), v) →
        v.Repeatable P data ∨ v.CannotStart P coins' data) := by
  have wf : (Ue.after P cfg inputs).Wf := Ue.after_wf P cfg inputs
  generalize Ue.after P cfg inputs = u at wf ⊢
  have session := ensureEdhocProvisioned_keeps_session cfg.files u
  rw [sameAgain_iff]
  constructor
  · intro repeatable
    cases provisioned : ensureEdhocProvisioned cfg.files u with
    | mk out v =>
      rw [provisioned] at session
      cases out with
      | error e =>
        have first :
            receiveEdhoc P cfg.files coins data u = (.error .insufficientResources, v) := by
          rw [receiveEdhoc, provisioned]
        rw [first, receiveEdhoc, ensureEdhocProvisioned_error provisioned]
      | ok _ =>
        rw [receiveEdhoc_twice provisioned, receiveEdhoc_eq_settle provisioned]
        exact (repeatable v provisioned).again (wf.of_session session)
  · intro same v provisioned
    rw [provisioned] at session
    rw [receiveEdhoc_twice provisioned, receiveEdhoc_eq_settle provisioned] at same
    have first := answerEdhoc_step P coins data v
    have second := answerEdhoc_step P coins' data (settle (answerEdhoc P coins data v)).2
    obtain ⟨out, state⟩ := Prod.ext_iff.mp same
    exact UeStep.repeatable (wf.of_session session) first second out state

end Command

section Demo

open Transparent (primitives primitives_correct creds)

/-- Before a handshake, whatever is not a start request may arrive twice. -/
theorem demo_refused_twice : SameAgain primitives demoConfig demoCoins.ue demoCoins.ue
    (Header.command ⟨1, 7, 0⟩ [0x00]) (Ue.after primitives demoConfig []) := by
  refine (duplicate_requests primitives demoConfig []
    ⟨1, 7, 0⟩ [0x00] _ _).1 fun v provisioned => ?_
  obtain rfl := (Prod.mk.inj (demo_deployed.provision.symm.trans provisioned)).2
  exact .refused (lt_irrefl 0) rfl (by decide)

/-- The start request may not: the second one gets the second fragment of message_1. -/
theorem start_twice_differs : ¬ SameAgain primitives demoConfig demoCoins.ue demoCoins.ue
    (Header.command ⟨1, 7, 0⟩ [0x01]) (Ue.after primitives demoConfig []) := by
  rw [sameAgain_iff]
  intro same
  obtain ⟨m1, i, made, -⟩ := Edhoc4.exchange_staged primitives_correct demo_deployed.ueValid
    demo_deployed.serverValid demoCoins.ue.msg1
  have first : receiveEdhoc primitives demoConfig.files demoCoins.ue [0x01]
      (Ue.after primitives demoConfig []) = _ := demo_deployed.ready.receive_start made
  have several := iMakeMsg1_several made
  have sends : Sends m1 (0 + pieceLen m1 0) (memcpyAt nasSmInit.out 0 m1) m1.length
      (0 + pieceLen m1 0) := ⟨take_memcpyAt_zero _ _, rfl, rfl⟩
  rw [first, receiveEdhoc_sends rfl sends (by omega)] at same
  have moved : 0 + pieceLen m1 0 + pieceLen m1 (0 + pieceLen m1 0) = 0 + pieceLen m1 0 :=
    congrArg Ue.outPos (Prod.mk.inj same).2
  have progress : 0 < pieceLen m1 (0 + pieceLen m1 0) := pieceLen_pos (by omega)
  omega

end Demo

end EdhocAuth.Eap
