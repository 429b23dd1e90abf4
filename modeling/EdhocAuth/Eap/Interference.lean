/-
One `NasSm` for all PDU sessions.

The handshake context, the round and both fragment buffers of the UE are shared by its PDU
sessions, so a command for one session can answer or break the conversation of another.
It does neither if it meets the UE in a state where it leaves what is live of the members
alone (`Ue.Unmoved`). Two runs are compared that differ by such commands: their states are
`Ue.Alike` all the time, and alike states give the same answers.
-/

import EdhocAuth.Eap.Duplicates

namespace EdhocAuth.Eap

open Proc

/-! ### Receivers that no wire tells apart -/

namespace Rx

variable {inp : List UInt8} {r r' s : Rx}

/-- The octets behind the position play no part. -/
structure Alike (r s : Rx) : Prop where
  len : r.len = s.len
  pos : r.pos = s.pos
  buf : r.buf.take r.pos = s.buf.take s.pos

theorem Alike.refl (r : Rx) : r.Alike r := ⟨rfl, rfl, rfl⟩

theorem Alike.symm (alike : r.Alike s) : s.Alike r :=
  ⟨alike.len.symm, alike.pos.symm, alike.buf.symm⟩

theorem Alike.trans {t : Rx} (first : r.Alike s) (second : s.Alike t) : r.Alike t :=
  ⟨first.len.trans second.len, first.pos.trans second.pos, first.buf.trans second.buf⟩

theorem Alike.of_closed (first : r.Idle) (second : s.Idle) : r.Alike s := by
  refine ⟨first.len.trans second.len.symm, first.pos.trans second.pos.symm, ?_⟩
  rw [first.pos, second.pos, List.take_zero, List.take_zero]

/-- Receivers that are alike take in a piece alike. -/
theorem Alike.put (alike : r.Alike s) (wf : r.Wf) (wf' : s.Wf) (piece : List UInt8) :
    (r.put piece).Alike (s.put piece) := by
  refine ⟨alike.len, congrArg (· + piece.length) alike.pos, ?_⟩
  rw [wf.taken, wf'.taken, alike.buf]

/-- They admit the same wires. -/
theorem Alike.admits (alike : r.Alike s) (admits : Admits inp r r') :
    ∃ s', Admits inp s s' ∧ r'.Alike s' := by
  cases admits with
  | opens announces closed =>
    exact ⟨_, .opens announces (alike.len.symm.trans closed), rfl, rfl, rfl⟩
  | repeats announces opened same =>
    rw [alike.len] at opened same
    exact ⟨s, .repeats announces opened same, alike⟩
  | continues plain nonempty opened =>
    rw [alike.len] at opened
    exact ⟨s, .continues plain nonempty opened, alike⟩

/-- They deliver the same whole messages. -/
theorem Alike.alone (alike : r.Alike s) (alone : Alone inp r) : Alone inp s :=
  ⟨alone.nonempty, alone.plain, alone.last, alike.len.symm.trans alone.closed⟩

/-- The same result, up to the error code. -/
def SameResult (a b : Except Edhoc4.Err (Option (List UInt8)) × Rx) : Prop :=
  a.1.toOption = b.1.toOption ∧ a.2.Alike b.2

/-- They give the same result for a piece. -/
theorem Alike.acceptPiece (alike : r.Alike s) (wf : r.Wf) (wf' : s.Wf) (more : Bool)
    (piece : List UInt8) : SameResult (acceptPiece more piece r) (acceptPiece more piece s) := by
  have put := alike.put wf wf' piece
  rcases lt_trichotomy (r.pos + piece.length) r.len with gap | all | long
  · have gap' := gap
    rw [alike.pos, alike.len] at gap'
    cases more with
    | true =>
      rw [acceptPiece_more gap.le, acceptPiece_more gap'.le]
      exact ⟨rfl, put⟩
    | false =>
      rw [acceptPiece_short gap, acceptPiece_short gap']
      exact ⟨rfl, put⟩
  · have all' := all
    rw [alike.pos, alike.len] at all'
    cases more with
    | true =>
      rw [acceptPiece_more all.le, acceptPiece_more all'.le]
      exact ⟨rfl, put⟩
    | false =>
      have message : (r.put piece).buf.take r.len = (s.put piece).buf.take s.len := by
        rw [← all, ← all']
        exact put.buf
      rw [acceptPiece_last all, acceptPiece_last all', message]
      exact ⟨rfl, .of_closed ⟨rfl, rfl⟩ ⟨rfl, rfl⟩⟩
  · have long' := long
    rw [alike.pos, alike.len] at long'
    rw [acceptPiece_tooLong long, acceptPiece_tooLong long']
    exact ⟨rfl, alike⟩

/-- No wire tells them apart. -/
theorem Alike.accept (alike : r.Alike s) (wf : r.Wf) (wf' : s.Wf) (inp : List UInt8) :
    SameResult (accept inp r) (accept inp s) := by
  obtain ⟨⟨e, failed⟩, outside, other⟩ | ⟨delivered, alone⟩ | ⟨r', admitted, admits⟩ :=
    accept_cases inp r
  · obtain ⟨⟨e', failed'⟩, -, -⟩ | ⟨-, alone⟩ | ⟨s', -, admits⟩ := accept_cases inp s
    · rw [failed, failed']
      exact ⟨rfl, alike⟩
    · exact absurd (alike.symm.alone alone) other
    · obtain ⟨r', admits', -⟩ := alike.symm.admits admits
      exact absurd admits' (outside r')
  · rw [delivered, accept_of_alone (alike.alone alone)]
    exact ⟨rfl, alike⟩
  · obtain ⟨s', admits', alike'⟩ := alike.admits admits
    rw [admitted, accept_of_admits admits']
    exact alike'.acceptPiece (admits.wf wf) (admits'.wf wf') _ _

/-- What one acknowledges or delivers the other does. -/
theorem Alike.accept_ok (alike : r.Alike s) (wf : r.Wf) (wf' : s.Wf) {got : Option (List UInt8)}
    (parsed : Rx.accept inp r = (.ok got, r')) :
    ∃ s', Rx.accept inp s = (.ok got, s') ∧ r'.Alike s' := by
  have same := alike.accept wf wf' inp
  rw [parsed] at same
  generalize Rx.accept inp s = out at same
  obtain ⟨out, s'⟩ := out
  cases out with
  | error e => cases same.1
  | ok got' =>
    exact ⟨s', congrArg (fun g => (Except.ok g, s')) (Option.some.inj same.1).symm, same.2⟩

/-- What one rejects the other does. -/
theorem Alike.accept_error (alike : r.Alike s) (wf : r.Wf) (wf' : s.Wf) {e : Edhoc4.Err}
    (parsed : Rx.accept inp r = (.error e, r')) :
    ∃ e' s', Rx.accept inp s = (.error e', s') ∧ r'.Alike s' := by
  have same := alike.accept wf wf' inp
  rw [parsed] at same
  generalize Rx.accept inp s = out at same
  obtain ⟨out, s'⟩ := out
  cases out with
  | error e' => exact ⟨e', s', rfl, same.2⟩
  | ok got' => cases same.1

end Rx

/-! ### States that no request tells apart -/

/-- The context plays no part in round -1, nor do the keys in the members: they are read
from the files again, or they are those in the files. -/
structure Ue.Alike (u w : Ue) : Prop where
  round : u.round = w.round
  ctx : u.round ≠ .idle → u.ctx = w.ctx
  rx : (Ue.rxPart.get u).Alike (Ue.rxPart.get w)
  out : u.out = w.out
  outLen : u.outLen = w.outLen
  outPos : u.outPos = w.outPos

section Alike

variable {P : Primitives UInt8} {coins : UeCoins} {data : List UInt8} {u v w : Ue}
  {out : Except SmCause (List UInt8)}

theorem Ue.Alike.refl (u : Ue) : u.Alike u := ⟨rfl, fun _ => rfl, .refl _, rfl, rfl, rfl⟩

theorem Ue.Alike.symm (alike : u.Alike w) : w.Alike u := by
  refine ⟨alike.round.symm, fun later => ?_, alike.rx.symm, alike.out.symm, alike.outLen.symm,
    alike.outPos.symm⟩
  rw [← alike.round] at later
  exact (alike.ctx later).symm

theorem Ue.Alike.trans {t : Ue} (first : u.Alike w) (second : w.Alike t) : u.Alike t := by
  refine ⟨first.round.trans second.round, fun later => ?_, first.rx.trans second.rx,
    first.out.trans second.out, first.outLen.trans second.outLen,
    first.outPos.trans second.outPos⟩
  have later' := later
  rw [first.round] at later'
  exact (first.ctx later).trans (second.ctx later')

/-- UEs with one session are alike. -/
theorem Ue.Alike.of_session (same : w.session = u.session) : u.Alike w := by
  simp only [Ue.session, Prod.mk.injEq] at same
  obtain ⟨ctx, round, rx, out, outLen, outPos⟩ := same
  refine ⟨round.symm, fun _ => ctx.symm, ?_, out.symm, outLen.symm, outPos.symm⟩
  rw [rx]
  exact .refl _

/-- A UE that differs from another only in what is not live, and holds the same keys. -/
structure Ue.Twin (u w : Ue) : Prop where
  alike : u.Alike w
  creds : u.creds = w.creds
  peerPub : u.peerPub = w.peerPub
  wf : u.Wf
  wf' : w.Wf

/-- Every case for one of two such UEs is a case for the other, with the same answer. -/
theorem UeStep.twin (step : UeStep P coins data u out v) (twin : u.Twin w) :
    ∃ t, UeStep P coins data w out t ∧ v.Alike t := by
  obtain ⟨alike, creds, peerPub, wf, wf'⟩ := twin
  have silent' (silent : ¬ u.outPos < u.outLen) : ¬ w.outPos < w.outLen := by
    rw [← alike.outPos, ← alike.outLen]
    exact silent
  cases step with
  | sends left =>
    have fragment : encodeEdhocFragment u.out u.outLen u.outPos =
        encodeEdhocFragment w.out w.outLen w.outPos := by
      rw [alike.out, alike.outLen, alike.outPos]
    rw [alike.outLen, alike.outPos] at left
    rw [fragment]
    exact ⟨_, .sends left, alike.round, alike.ctx, alike.rx, alike.out, alike.outLen, rfl⟩
  | refused silent round other =>
    exact ⟨w, .refused (silent' silent) (alike.round.symm.trans round) other, alike⟩
  | started silent round start made =>
    rw [creds, peerPub] at made
    refine ⟨_, .started (silent' silent) (alike.round.symm.trans round) start made, rfl,
      fun _ => rfl, alike.rx, ?_, rfl, rfl⟩
    exact congrArg (memcpyAt · 0 _) alike.out
  | notStarted silent round start failed =>
    rw [creds, peerPub] at failed
    exact ⟨_, .notStarted (silent' silent) (alike.round.symm.trans round) start failed, rfl,
      fun later => absurd rfl later, .of_closed ⟨rfl, rfl⟩ ⟨rfl, rfl⟩, alike.out, rfl, rfl⟩
  | rejected silent later parsed =>
    obtain ⟨e, s, parsed', rx⟩ := alike.rx.accept_error wf.rx wf'.rx parsed
    exact ⟨_, .rejected (silent' silent) (alike.round ▸ later) parsed', alike.round, alike.ctx, rx,
      alike.out, alike.outLen, alike.outPos⟩
  | part silent later parsed =>
    obtain ⟨s, parsed', rx⟩ := alike.rx.accept_ok wf.rx wf'.rx parsed
    exact ⟨_, .part (silent' silent) (alike.round ▸ later) parsed', alike.round, alike.ctx, rx,
      alike.out, alike.outLen, alike.outPos⟩
  | answered silent round parsed handled =>
    obtain ⟨s, parsed', rx⟩ := alike.rx.accept_ok wf.rx wf'.rx parsed
    rw [alike.ctx (by rw [round]; decide)] at handled
    exact ⟨_, .answered (silent' silent) (alike.round.symm.trans round) parsed' handled, rfl,
      fun _ => rfl, rx, congrArg (memcpyAt · 0 _) alike.out, rfl, rfl⟩
  | notAnswered silent round parsed failed =>
    obtain ⟨s, parsed', -⟩ := alike.rx.accept_ok wf.rx wf'.rx parsed
    rw [alike.ctx (by rw [round]; decide)] at failed
    exact ⟨_, .notAnswered (silent' silent) (alike.round.symm.trans round) parsed' failed, rfl,
      fun later => absurd rfl later, .of_closed ⟨rfl, rfl⟩ ⟨rfl, rfl⟩, alike.out, rfl, rfl⟩
  | completed silent round parsed handled =>
    obtain ⟨s, parsed', rx⟩ := alike.rx.accept_ok wf.rx wf'.rx parsed
    rw [alike.ctx (by rw [round]; decide)] at handled
    exact ⟨_, .completed (silent' silent) (alike.round.symm.trans round) parsed' handled, rfl,
      fun _ => rfl, rx, alike.out, alike.outLen, alike.outPos⟩
  | notCompleted silent round parsed failed =>
    obtain ⟨s, parsed', -⟩ := alike.rx.accept_ok wf.rx wf'.rx parsed
    rw [alike.ctx (by rw [round]; decide)] at failed
    exact ⟨_, .notCompleted (silent' silent) (alike.round.symm.trans round) parsed' failed, rfl,
      fun later => absurd rfl later, .of_closed ⟨rfl, rfl⟩ ⟨rfl, rfl⟩, alike.out, rfl, rfl⟩
  | acknowledged silent round parsed =>
    obtain ⟨s, parsed', rx⟩ := alike.rx.accept_ok wf.rx wf'.rx parsed
    exact ⟨_, .acknowledged (silent' silent) (alike.round.symm.trans round) parsed', alike.round,
      alike.ctx, rx, alike.out, alike.outLen, alike.outPos⟩

end Alike

/-! ### Requests that leave no trace -/

namespace Rx

/-- The wire leaves the receiver as it is and completes no message. -/
inductive Unmoved (inp : List UInt8) (r : Rx) : Prop where
  | refused (outside : ∀ r', ¬ Admits inp r r') (other : ¬ Alone inp r)
  | tooLong (admits : Admits inp r r) (long : r.len < r.pos + (wirePayload inp).length)
  | empty (admits : Admits inp r r) (empty : wirePayload inp = [])
      (unfinished : hasFlag fragFlagMore (inp.headD 0) = true ∨ r.pos < r.len)

/-- A wire that does not move the receiver is rejected, or acknowledged without effect. -/
theorem Unmoved.accept {inp : List UInt8} {r : Rx} (wf : r.Wf) (unmoved : Unmoved inp r) :
    (∃ e, Rx.accept inp r = (.error e, r)) ∨ Rx.accept inp r = (.ok none, r) := by
  cases unmoved with
  | refused outside other => exact .inl (accept_refused outside other)
  | tooLong admits long =>
    exact .inl ⟨_, (accept_of_admits admits).trans (acceptPiece_tooLong long)⟩
  | empty admits empty unfinished =>
    have accepted := accept_of_admits admits
    rw [empty] at accepted
    obtain ⟨e, failed⟩ | asked := acceptPiece_nil wf unfinished
    · exact .inl ⟨e, accepted.trans failed⟩
    · exact .inr (accepted.trans asked)

end Rx

/-- The request leaves what is live of a provisioned UE as it is: nothing is going out, and
in round -1 it is no start or message_1 cannot be made, in a later round the wire adds
nothing to the reassembly, and after the handshake it may be a message in one wire that
meets an idle receiver. -/
inductive Ue.Unmoved (P : Primitives UInt8) (coins : UeCoins) (data : List UInt8) (u : Ue) :
    Prop where
  | refused (silent : ¬ u.outPos < u.outLen) (round : u.round = .idle) (other : data ≠ [0x01])
  | cannotStart (silent : ¬ u.outPos < u.outLen) (round : u.round = .idle)
      (cannot : u.CannotStart P coins data)
  | unmoved (silent : ¬ u.outPos < u.outLen) (later : u.round ≠ .idle)
      (unmoved : Rx.Unmoved data (Ue.rxPart.get u))
  | alone (silent : ¬ u.outPos < u.outLen) (round : u.round = .complete)
      (alone : Rx.Alone data (Ue.rxPart.get u))
  | announced (silent : ¬ u.outPos < u.outLen) (round : u.round = .complete)
      (idle : (Ue.rxPart.get u).Idle) (announces : Rx.Announces data)
      (last : hasFlag fragFlagMore (data.headD 0) = false)
      (size : (wirePayload data).length = Rx.totalLen data)

section Unmoved

variable {P : Primitives UInt8} {coins : UeCoins} {data : List UInt8} {u : Ue}

/-- Data that does not move the UE leaves it alike. -/
theorem Ue.Unmoved.leaves_alike (wf : u.Wf) (unmoved : u.Unmoved P coins data) :
    u.Alike (settle (answerEdhoc P coins data u)).2 := by
  cases unmoved with
  | refused silent round other =>
    rw [(UeStep.refused silent round other).run]
    exact .refl u
  | cannotStart silent round cannot =>
    obtain ⟨start, e, c, failed⟩ := cannot
    obtain ⟨outLen, outPos, idle⟩ := wf.idle round
    rw [(UeStep.notStarted silent round start failed).run]
    exact ⟨round, fun later => absurd round later, .of_closed idle ⟨rfl, rfl⟩, rfl, outLen, outPos⟩
  | unmoved silent later unmoved =>
    obtain ⟨e, failed⟩ | asked := unmoved.accept wf.rx
    · rw [(UeStep.rejected silent later failed).run]
      exact .refl u
    · rw [(UeStep.part silent later asked).run]
      exact .refl u
  | alone silent round alone =>
    rw [(UeStep.acknowledged silent round (Rx.accept_of_alone alone)).run]
    exact .refl u
  | announced silent round idle announces last size =>
    have delivered := Rx.accept_of_admits (.opens announces idle.len)
    rw [last, Rx.acceptPiece_last ((Nat.zero_add _).trans size)] at delivered
    rw [(UeStep.acknowledged silent round delivered).run]
    exact ⟨rfl, fun _ => rfl, .of_closed idle ⟨rfl, rfl⟩, rfl, rfl, rfl⟩

/-- An admitted wire that leaves the receiver alike comes in the middle of a message. -/
theorem Rx.Admits.of_len {inp : List UInt8} {r t : Rx} (admits : Rx.Admits inp r t)
    (same : r.len = t.len) : t = r := by
  apply admits.of_open
  rw [same]
  exact admits.opened

/-- A rejected wire that leaves the receiver alike does not move it. -/
theorem Rx.Step.unmoved_of_error {inp : List UInt8} {r r' : Rx} {e : Edhoc4.Err}
    (step : Rx.Step inp r (.error e) r') (alike : r.Alike r') : Rx.Unmoved inp r := by
  cases step with
  | refused outside other => exact .refused outside other
  | tooLong admits long =>
    obtain rfl := admits.of_len alike.len
    exact .tooLong admits long
  | short admits gap last =>
    obtain rfl := admits.of_len alike.len
    have still : (wirePayload inp).length = 0 := Nat.left_eq_add.mp alike.pos
    exact .empty admits (List.length_eq_zero_iff.mp still) (.inr (by omega))

/-- An acknowledged wire that leaves the receiver alike does not move it. -/
theorem Rx.Step.unmoved_of_part {inp : List UInt8} {r r' : Rx}
    (step : Rx.Step inp r (.ok none) r') (alike : r.Alike r') : Rx.Unmoved inp r := by
  cases step with
  | part admits fits more =>
    obtain rfl := admits.of_len alike.len
    have still : (wirePayload inp).length = 0 := Nat.left_eq_add.mp alike.pos
    exact .empty admits (List.length_eq_zero_iff.mp still) (.inl more)

/-- Data that leaves the UE alike does not move it. -/
theorem Ue.Alike.unmoved (alike : u.Alike (settle (answerEdhoc P coins data u)).2) :
    u.Unmoved P coins data := by
  have step := answerEdhoc_step P coins data u
  unfold IsStep at step
  generalize (settle (answerEdhoc P coins data u)).1 = out at step
  generalize (settle (answerEdhoc P coins data u)).2 = v at step alike
  cases step with
  | sends left =>
    have moved := UeStep.moves (UeStep.sends left : UeStep P coins data u _ _) left
    exact absurd alike.outPos.symm moved
  | refused silent round other => exact .refused silent round other
  | started silent round start made => exact nomatch round.symm.trans alike.round
  | notStarted silent round start failed => exact .cannotStart silent round ⟨start, _, _, failed⟩
  | rejected silent later parsed =>
    have step := Rx.accept_step data (Ue.rxPart.get u)
    rw [parsed] at step
    exact .unmoved silent later (Rx.Step.unmoved_of_error step alike.rx)
  | part silent later parsed =>
    have step := Rx.accept_step data (Ue.rxPart.get u)
    rw [parsed] at step
    exact .unmoved silent later (Rx.Step.unmoved_of_part step alike.rx)
  | answered silent round parsed handled => exact nomatch round.symm.trans alike.round
  | notAnswered silent round parsed failed => exact nomatch round.symm.trans alike.round
  | completed silent round parsed handled => exact nomatch round.symm.trans alike.round
  | notCompleted silent round parsed failed => exact nomatch round.symm.trans alike.round
  | acknowledged silent round parsed =>
    obtain ⟨alone, -⟩ | ⟨t, admits, all, last, after⟩ := Rx.message_cases parsed
    · exact .alone silent round alone
    · have closed : (Ue.rxPart.get u).len = 0 := alike.rx.len.trans (by rw [after]; rfl)
      have start : (Ue.rxPart.get u).pos = 0 := alike.rx.pos.trans (by rw [after]; rfl)
      have announces := admits.of_closed closed
      obtain rfl := admits.unique (.opens announces closed)
      exact .announced silent round ⟨closed, start⟩ announces last ((Nat.zero_add _).symm.trans all)

/-- Exactly these requests leave a UE that no later request tells from the one before. -/
theorem Ue.alike_iff_unmoved (wf : u.Wf) :
    u.Alike (settle (answerEdhoc P coins data u)).2 ↔ u.Unmoved P coins data :=
  ⟨Ue.Alike.unmoved, Ue.Unmoved.leaves_alike wf⟩

end Unmoved

/-! ### Requests to a UE that may not be provisioned -/

section Provisioning

variable {P : Primitives UInt8} {files : UeFiles} {coins : UeCoins} {data : List UInt8} {u w : Ue}

/-- What holds of every state in every run. -/
structure Ue.Sound (files : UeFiles) (u : Ue) : Prop where
  wf : u.Wf
  keys : u.Keys files

/-- Every reachable UE stays sound. -/
theorem receiveEdhoc_sound (sound : u.Sound files) :
    (receiveEdhoc P files coins data u).2.Sound files :=
  ⟨receiveEdhoc_wf sound.wf, receiveEdhoc_keys sound.keys coins data⟩

/-- Provisioning gives a UE the keys in the files and leaves the rest alone; it fails for
all UEs or for none. -/
theorem Ue.Sound.provision (sound : u.Sound files) :
    (∃ v, ensureEdhocProvisioned files u = (.ok (), v) ∧ files.Hold (v.creds, v.peerPub) ∧
      v.session = u.session) ∨
    (∃ v, ensureEdhocProvisioned files u = (.error (), v) ∧ (∀ keys, ¬ files.Hold keys) ∧
      v.session = u.session) := by
  rcases ensureEdhocProvisioned_cases files u with ⟨loaded, same⟩ | ⟨-, ⟨e, failed⟩, same⟩ |
    ⟨-, c, -, ⟨e, failed⟩, same⟩ | ⟨-, c, p, creds, pub, same⟩
  · exact .inl ⟨u, same, sound.keys.loaded loaded, rfl⟩
  · exact .inr ⟨u, same, fun keys hold => (nomatch failed.symm.trans hold.1), rfl⟩
  · exact .inr ⟨_, same, fun keys hold => (nomatch failed.symm.trans hold.2), rfl⟩
  · exact .inl ⟨_, same, ⟨creds, pub⟩, rfl⟩

/-- Alike UEs answer a request alike. -/
theorem Ue.Alike.receive (alike : u.Alike w) (sound : u.Sound files) (sound' : w.Sound files)
    (coins : UeCoins) (data : List UInt8) :
    (receiveEdhoc P files coins data u).1 = (receiveEdhoc P files coins data w).1 ∧
      (receiveEdhoc P files coins data u).2.Alike (receiveEdhoc P files coins data w).2 := by
  rcases sound.provision with ⟨v, provisioned, hold, session⟩ | ⟨v, failed, none, session⟩
  · rcases sound'.provision with ⟨t, provisioned', hold', session'⟩ | ⟨t, -, none, -⟩
    · obtain ⟨creds, peerPub⟩ := Prod.mk.inj (hold.unique hold')
      have alike' :=
        ((Ue.Alike.of_session session).symm.trans alike).trans (Ue.Alike.of_session session')
      have twin : v.Twin t :=
        ⟨alike', creds, peerPub, sound.wf.of_session session, sound'.wf.of_session session'⟩
      rw [receiveEdhoc_eq_settle provisioned, receiveEdhoc_eq_settle provisioned']
      obtain ⟨t', step, alike''⟩ := UeStep.twin (answerEdhoc_step P coins data v) twin
      rw [step.run]
      exact ⟨rfl, alike''⟩
    · exact absurd hold (none _)
  · rcases sound'.provision with ⟨t, -, hold', -⟩ | ⟨t, failed', -, session'⟩
    · exact absurd hold' (none _)
    · have first : receiveEdhoc P files coins data u = (.error .insufficientResources, v) := by
        rw [receiveEdhoc, failed]
      have second : receiveEdhoc P files coins data w = (.error .insufficientResources, t) := by
        rw [receiveEdhoc, failed']
      rw [first, second]
      exact ⟨rfl, ((Ue.Alike.of_session session).symm.trans alike).trans
        (Ue.Alike.of_session session')⟩

/-- A sound UE is left alike by data that does not move it. -/
theorem Ue.Sound.unmoved (sound : u.Sound files)
    (unmoved : ∀ v, ensureEdhocProvisioned files u = (.ok (), v) → v.Unmoved P coins data) :
    u.Alike (receiveEdhoc P files coins data u).2 := by
  rcases sound.provision with ⟨v, provisioned, -, session⟩ | ⟨v, failed, -, session⟩
  · rw [receiveEdhoc_eq_settle provisioned]
    exact (Ue.Alike.of_session session).trans
      ((Ue.alike_iff_unmoved (sound.wf.of_session session)).mpr (unmoved v provisioned))
  · have answer : receiveEdhoc P files coins data u = (.error .insufficientResources, v) := by
      rw [receiveEdhoc, failed]
    rw [answer]
    exact Ue.Alike.of_session session

end Provisioning

/-! ### Two PDU sessions -/

section Sessions

variable (P : Primitives UInt8) (cfg : UeConfig)

/-- What the UE replies to a sequence of commands, each with its randomness. -/
def Ue.replies : List (UeCoins × Command) → Ue → List UeReply
  | [], _ => []
  | (coins, cmd) :: cmds, u =>
    (receivePduSessionAuthenticationCommand P cfg coins cmd u).1 ::
      Ue.replies cmds (receivePduSessionAuthenticationCommand P cfg coins cmd u).2

/-- The EAP payload of a reply for PDU session `b`. -/
def UeReply.payloadFor (b : Nat) : UeReply → Option (UInt8 × EapAnswer)
  | .complete psi _ id eap => if psi = b then some (id, eap) else none
  | .status _ _ _ => none

/-- The EAP payloads sent for PDU session `b`, in order. -/
def payloadsFor (b : Nat) (replies : List UeReply) : List (UInt8 × EapAnswer) :=
  replies.filterMap (UeReply.payloadFor b)

/-- The command leaves what is live of the members as it is. -/
def Command.Unmoved (coins : UeCoins) (cmd : Command) (u : Ue) : Prop :=
  ∀ id data v, cmd.eap = some (id, .edhoc data) →
    ensureEdhocProvisioned cfg.files u = (.ok (), v) → v.Unmoved P coins data

/-- Every command for PDU session `a` does, in the state it meets. -/
def QuietFor (a : Nat) : List (UeCoins × Command) → Ue → Prop
  | [], _ => True
  | (coins, cmd) :: cmds, u =>
    (cmd.psi = a → cmd.Unmoved P cfg coins u) ∧
      QuietFor a cmds (receivePduSessionAuthenticationCommand P cfg coins cmd u).2

variable {P cfg} {u w : Ue}

/-- Every command leaves a sound UE sound. -/
theorem command_sound (sound : u.Sound cfg.files) (coins : UeCoins) (cmd : Command) :
    (receivePduSessionAuthenticationCommand P cfg coins cmd u).2.Sound cfg.files := by
  obtain same | ⟨id, data, -, same⟩ := command_state P cfg coins cmd u
  · rw [same]
    exact sound
  · rw [same]
    exact receiveEdhoc_sound sound

/-- Alike UEs reply to a command alike. -/
theorem Ue.Alike.command (alike : u.Alike w) (sound : u.Sound cfg.files)
    (sound' : w.Sound cfg.files) (coins : UeCoins) (cmd : Command) :
    (receivePduSessionAuthenticationCommand P cfg coins cmd u).1 =
        (receivePduSessionAuthenticationCommand P cfg coins cmd w).1 ∧
      (receivePduSessionAuthenticationCommand P cfg coins cmd u).2.Alike
        (receivePduSessionAuthenticationCommand P cfg coins cmd w).2 := by
  obtain ⟨psi, pti, _ | ⟨id, data | _ | _⟩⟩ := cmd
  · exact ⟨rfl, alike⟩
  · obtain ⟨answer, alike'⟩ := alike.receive (P := P) sound sound' coins data
    show (receivePduSessionAuthenticationCommand P cfg coins
      (Header.command ⟨psi, pti, id⟩ data) u).1 =
      (receivePduSessionAuthenticationCommand P cfg coins
        (Header.command ⟨psi, pti, id⟩ data) w).1 ∧ _
    rw [command_edhoc, command_edhoc, answer]
    refine ⟨rfl, ?_⟩
    show (receivePduSessionAuthenticationCommand P cfg coins
      (Header.command ⟨psi, pti, id⟩ data) u).2.Alike
      (receivePduSessionAuthenticationCommand P cfg coins (Header.command ⟨psi, pti, id⟩ data) w).2
    rw [command_edhoc, command_edhoc]
    exact alike'
  · exact ⟨rfl, alike⟩
  · exact ⟨rfl, alike⟩

/-- A command that leaves no trace. -/
theorem Command.Unmoved.alike {coins : UeCoins} {cmd : Command} (sound : u.Sound cfg.files)
    (unmoved : cmd.Unmoved P cfg coins u) :
    u.Alike (receivePduSessionAuthenticationCommand P cfg coins cmd u).2 := by
  obtain same | ⟨id, data, eap, same⟩ := command_state P cfg coins cmd u
  · rw [same]
    exact .refl u
  · rw [same]
    exact sound.unmoved fun v provisioned => unmoved id data v eap provisioned

/-- A reply to a command of another session carries no payload for this one. -/
theorem reply_psi (P : Primitives UInt8) (cfg : UeConfig) (coins : UeCoins) (cmd : Command) (u : Ue)
    {b : Nat} (other : cmd.psi ≠ b) :
    (receivePduSessionAuthenticationCommand P cfg coins cmd u).1.payloadFor b = none := by
  obtain ⟨psi, pti, _ | ⟨id, data | _ | _⟩⟩ := cmd
  · rfl
  · show (receivePduSessionAuthenticationCommand P cfg coins (Header.command ⟨psi, pti, id⟩ data)
      u).1.payloadFor b = none
    rw [command_edhoc]
    cases (receiveEdhoc P cfg.files coins data u).1 with
    | error c => rfl
    | ok answer => exact if_neg other
  · exact if_neg other
  · exact if_neg other

/-- The commands for `a` can be left out one by one. -/
theorem payloads_without {a b : Nat} (distinct : a ≠ b) (cmds : List (UeCoins × Command))
    (alike : u.Alike w) (sound : u.Sound cfg.files) (sound' : w.Sound cfg.files)
    (quiet : QuietFor P cfg a cmds u) :
    payloadsFor b (Ue.replies P cfg cmds u) =
      payloadsFor b (Ue.replies P cfg (cmds.filter fun c => decide (c.2.psi ≠ a)) w) := by
  induction cmds generalizing u w with
  | nil => rfl
  | cons c cmds ih =>
    obtain ⟨coins, cmd⟩ := c
    obtain ⟨here, rest⟩ := quiet
    by_cases mine : cmd.psi = a
    · have silent := reply_psi P cfg coins cmd u (mine.symm ▸ distinct)
      rw [List.filter_cons_of_neg (by simp [mine])]
      show List.filterMap _ (_ :: _) = _
      rw [List.filterMap_cons_none silent]
      exact ih ((Command.Unmoved.alike sound (here mine)).symm.trans alike)
        (command_sound sound coins cmd)
        sound' rest
    · obtain ⟨same, alike'⟩ := alike.command (P := P) sound sound' coins cmd
      rw [List.filter_cons_of_pos (by simp [mine])]
      have tail := ih alike' (command_sound sound coins cmd) (command_sound sound' coins cmd) rest
      show List.filterMap _ (_ :: _) = List.filterMap _ (_ :: _)
      rw [same]
      cases payload : (receivePduSessionAuthenticationCommand P cfg coins cmd w).1.payloadFor b with
      | none =>
        rw [List.filterMap_cons_none payload, List.filterMap_cons_none payload]
        exact tail
      | some p =>
        rw [List.filterMap_cons_some payload, List.filterMap_cons_some payload]
        exact congrArg (p :: ·) tail

end Sessions

theorem nasSmInit_sound (files : UeFiles) : nasSmInit.Sound files :=
  ⟨nasSmInit_wf, nasSmInit_keys files⟩

/-- In every interleaving in which each command for PDU session `a` leaves what is live of
the shared members alone, PDU session `b` gets the payloads it would get without them. -/
theorem sessions_do_not_interfere (P : Primitives UInt8) (cfg : UeConfig) {a b : Nat}
    (distinct : a ≠ b) (cmds : List (UeCoins × Command)) (quiet : QuietFor P cfg a cmds nasSmInit) :
    payloadsFor b (Ue.replies P cfg cmds nasSmInit) =
      payloadsFor b (Ue.replies P cfg (cmds.filter fun c => decide (c.2.psi ≠ a)) nasSmInit) :=
  payloads_without distinct cmds (.refl _) (nasSmInit_sound _) (nasSmInit_sound _) quiet

section Demo

open Transparent (primitives primitives_correct creds)

/-- A request for session 1 that is refused, and then the start of session 2. -/
theorem demo_sessions_do_not_interfere :
    payloadsFor 2 (Ue.replies primitives demoConfig
      [(demoCoins.ue, ⟨1, 7, some (0, .edhoc [0x00])⟩),
        (demoCoins.ue, ⟨2, 8, some (1, .edhoc [0x01])⟩)]
      nasSmInit) =
    payloadsFor 2 (Ue.replies primitives demoConfig
      [(demoCoins.ue, ⟨2, 8, some (1, .edhoc [0x01])⟩)] nasSmInit) := by
  refine sessions_do_not_interfere primitives demoConfig (a := 1) (b := 2) (by decide) _ ?_
  refine ⟨fun _ id data v eap provisioned => ?_, fun mine => absurd mine (by decide), trivial⟩
  obtain rfl := (Prod.mk.inj (demo_deployed.provision.symm.trans provisioned)).2
  obtain rfl : [0x00] = data := EapBody.edhoc.inj (Prod.mk.inj (Option.some.inj eap)).2
  exact .refused (lt_irrefl 0) rfl (by decide)

/-- The start of session 2 after the start of session 1 gets the second fragment of the
message_1 that was made for session 1. -/
theorem start_for_other_session_interferes :
    payloadsFor 2 (Ue.replies primitives demoConfig
      [(demoCoins.ue, ⟨1, 7, some (0, .edhoc [0x01])⟩),
        (demoCoins.ue, ⟨2, 8, some (1, .edhoc [0x01])⟩)]
      nasSmInit) ≠
    payloadsFor 2 (Ue.replies primitives demoConfig
      [(demoCoins.ue, ⟨2, 8, some (1, .edhoc [0x01])⟩)] nasSmInit) := by
  obtain ⟨m1, i, made, -⟩ := Edhoc4.exchange_staged primitives_correct demo_deployed.ueValid
    demo_deployed.serverValid demoCoins.ue.msg1
  have several := iMakeMsg1_several made
  let started : Ue := { loadedUe (creds 1) (creds 2).kemPk with ctx := i }.queued .msg1Sent m1
  have sends : Sends m1 (0 + pieceLen m1 0) started.out started.outLen started.outPos :=
    ⟨take_memcpyAt_zero _ _, rfl, rfl⟩
  have start (h : Header) :
      receivePduSessionAuthenticationCommand primitives demoConfig demoCoins.ue
      (h.command [0x01]) nasSmInit = (.complete h.psi h.pti h.id (.edhoc (frag m1 0)), started) :=
    command_edhoc_ok primitives demoConfig (demo_deployed.ready.receive_start made)
  have next (h : Header) : ∃ u, receivePduSessionAuthenticationCommand primitives demoConfig
      demoCoins.ue (h.command [0x01]) started =
        (.complete h.psi h.pti h.id (.edhoc (frag m1 (0 + pieceLen m1 0))), u) :=
    ⟨_, command_edhoc_ok primitives demoConfig (receiveEdhoc_sends rfl sends (by omega))⟩
  obtain ⟨u, second⟩ := next ⟨2, 8, 1⟩
  have first := start ⟨1, 7, 0⟩
  have alone := start ⟨2, 8, 1⟩
  unfold Header.command at first second alone
  rw [Ue.replies, Ue.replies, Ue.replies, Ue.replies, first, second, alone]
  intro same
  have wires : frag m1 (0 + pieceLen m1 0) = frag m1 0 :=
    EapAnswer.edhoc.inj (Prod.mk.inj (List.cons.inj same).1).2
  have flag := frag_zero_flag several
  rw [← wires, frag_later_flag (Nat.add_pos_right 0 (pieceLen_pos (by omega)))] at flag
  cases flag

end Demo

end EdhocAuth.Eap
