/-
Acknowledgements during reassembly.

A receiver answers a frame with the MORE flag by an acknowledgement, and waits for the next.
It compares the end of the piece with the announced length, but asks neither whether there is a
piece nor whether anything is left to come: a frame without octets, or one that fills the message,
is acknowledged as well (`Rx.Stalls`). Without such frames every acknowledgement moves the
position, and a message ends after fewer than 8192 of them.
-/

import EdhocAuth.Eap.Assembly
import EdhocAuth.Eap.Requests
import EdhocAuth.Eap.Rotation

namespace EdhocAuth.Eap

open Proc

def isAck {ε : Type} : Except ε (Option (List UInt8)) → Bool
  | .ok none => true
  | _ => false

def isMessage {ε : Type} : Except ε (Option (List UInt8)) → Bool
  | .ok (some _) => true
  | _ => false

@[simp] theorem isAck_mapError {ε δ : Type} (f : ε → δ) (out : Except ε (Option (List UInt8))) :
    isAck (out.mapError f) = isAck out := by
  cases out with
  | error _ => rfl
  | ok got => cases got <;> rfl

@[simp] theorem isMessage_mapError {ε δ : Type} (f : ε → δ)
    (out : Except ε (Option (List UInt8))) : isMessage (out.mapError f) = isMessage out := by
  cases out with
  | error _ => rfl
  | ok got => cases got <;> rfl

namespace Rx

variable {ε : Type} {inp : List UInt8} {r r' : Rx}

/-- If the frame that turned `r` into `r'` is acknowledged, it has moved the position, and
something is left to come. -/
def Progress (out : Except ε (Option (List UInt8))) (r r' : Rx) : Prop :=
  isAck out = true → r.pos < r'.pos ∧ r'.pos < r'.len

/-- What is left in the position of an idle receiver: nothing, in every run. -/
def stale (r : Rx) : Nat := if r.len = 0 then r.pos else 0

/-- A frame that promises more and fits, but brings nothing or leaves nothing to come. -/
def Stalls (inp : List UInt8) (r : Rx) : Prop :=
  hasFlag fragFlagMore (inp.headD 0) = true ∧
    ∃ r', Admits inp r r' ∧ r'.pos + (wirePayload inp).length ≤ r'.len ∧
      ((wirePayload inp).length ≤ r.stale ∨ r'.pos + (wirePayload inp).length = r'.len)

/-- A length field takes away what was left in the position. -/
theorem Admits.pos_add_stale (admits : Admits inp r r') : r'.pos + r.stale = r.pos := by
  cases admits with
  | opens _ closed =>
    show 0 + r.stale = r.pos
    rw [stale, if_pos closed, Nat.zero_add]
  | repeats _ opened _ => rw [stale, if_neg opened, Nat.add_zero]
  | continues _ _ opened => rw [stale, if_neg opened, Nat.add_zero]

/-- A frame makes progress just when it does not stall. -/
theorem Step.progress_iff {out : Except Edhoc4.Err (Option (List UInt8))}
    (step : Step inp r out r') : Progress out r r' ↔ ¬ Stalls inp r := by
  cases step with
  | refused outside _ =>
    exact ⟨fun _ stalls => outside _ stalls.2.choose_spec.1, fun _ ack => nomatch ack⟩
  | alone alone =>
    exact ⟨fun _ stalls => alone.outside _ stalls.2.choose_spec.1, fun _ ack => nomatch ack⟩
  | tooLong admits long =>
    constructor
    · rintro - ⟨-, s, admits', fits, -⟩
      obtain rfl := admits.unique admits'
      exact absurd fits (not_le.mpr long)
    · intro _ ack
      cases ack
  | whole _ _ last =>
    exact ⟨fun _ stalls => Bool.noConfusion (last.symm.trans stalls.1), fun _ ack => nomatch ack⟩
  | short _ _ last =>
    exact ⟨fun _ stalls => Bool.noConfusion (last.symm.trans stalls.1), fun _ ack => nomatch ack⟩
  | @part s admits fits more =>
    have left := admits.pos_add_stale
    constructor
    · rintro progress ⟨-, t, admits', -, stalls⟩
      obtain rfl := admits.unique admits'
      obtain ⟨moved, open_end⟩ : r.pos < s.pos + (wirePayload inp).length ∧
          s.pos + (wirePayload inp).length < s.len := progress rfl
      omega
    · intro flows _
      have moved : ¬ ((wirePayload inp).length ≤ r.stale ∨
          s.pos + (wirePayload inp).length = s.len) :=
        fun stalls => flows ⟨more, s, admits, fits, stalls⟩
      show r.pos < s.pos + (wirePayload inp).length ∧ s.pos + (wirePayload inp).length < s.len
      omega

/-! ### One message -/

/-- A receiver inside its buffer has left nothing behind. -/
theorem Wf.stale (wf : r.Wf) : r.stale = 0 := by
  by_cases closed : r.len = 0
  · rw [Rx.stale, if_pos closed]
    exact Nat.eq_zero_of_le_zero (closed ▸ wf.pos)
  · rw [Rx.stale, if_neg closed]

/-- Being admitted moves nothing yet. -/
theorem Wf.admits_pos (wf : r.Wf) (admits : Admits inp r r') : r'.pos = r.pos := by
  have left := admits.pos_add_stale
  rwa [wf.stale, Nat.add_zero] at left

/-- As long as no message is complete the position does not go back. -/
theorem Step.pos_le {out : Except Edhoc4.Err (Option (List UInt8))} (step : Step inp r out r')
    (wf : r.Wf) (unfinished : isMessage out = false) : r.pos ≤ r'.pos := by
  cases step with
  | refused _ _ => exact le_refl _
  | alone _ => cases unfinished
  | tooLong admits _ => exact (wf.admits_pos admits).ge
  | part admits _ _ => exact (wf.admits_pos admits).ge.trans (Nat.le_add_right _ _)
  | whole _ _ _ => cases unfinished
  | short admits _ _ => exact (wf.admits_pos admits).ge.trans (Nat.le_add_right _ _)

/-- Frames of one message, none of which stalls. -/
def Flows (inp : List UInt8) (r : Rx) : Prop :=
  ¬ Stalls inp r ∧ isMessage (accept inp r).1 = false

/-- Frames that do not stall and do not complete a message are acknowledged fewer than 8192
times. -/
theorem Wf.acks_lt (wf : r.Wf) {frames : List (List UInt8)}
    (flows : Along accept Flows frames r) : (feed accept frames r).1.countP isAck < 8192 := by
  have bound : Edhoc4.maxMsg = 8192 := rfl
  have room := countP_feed_le Wf Flows (fun r => 8191 - r.pos) isAck
    (fun inp r wf => (accept_step inp r).wf wf) ?_ ?_ wf flows
  · omega
  · intro inp r wf flows ack
    obtain ⟨moved, inside⟩ := (accept_step inp r).progress_iff.mpr flows.1 ack
    have small := ((accept_step inp r).wf wf).len
    omega
  · intro inp r wf flows
    have forward := (accept_step inp r).pos_le wf flows.2
    omega

/-- A MORE frame without a payload is acknowledged any number of times. -/
theorem feed_empty_more (opened : r.len ≠ 0) (inside : r.pos ≤ r.len) (n : Nat) :
    feed accept (List.replicate n [0x40]) r = (List.replicate n (.ok none), r) := by
  have one : accept [0x40] r = (.ok none, r) := by
    have fits : r.pos + ([] : List UInt8).length ≤ r.len := inside
    show accept (fragWire true false 0 []) r = _
    rw [accept_plain, acceptRest_of_open opened, acceptPiece_more fits, put_nil]
  induction n with
  | zero => rfl
  | succ n ih => exact feed_cons one ih

end Rx

/-! ### Both programs -/

/-- Every frame meets a receiver that does not stall on it, and none completes a message. -/
def OneMessage {σ ε : Type} (receive : List UInt8 → Proc σ ε (Option (List UInt8)))
    (rx : σ → Rx) (frames : List (List UInt8)) (s : σ) : Prop :=
  Along receive (fun frame s => ¬ Rx.Stalls frame (rx s) ∧ isMessage (receive frame s).1 = false)
    frames s

section Acts

variable {σ ε : Type} {receive : List UInt8 → Proc σ ε (Option (List UInt8))}
  {rx : Part σ Rx} {f : Edhoc4.Err → ε}

/-- A frame brings the message on just if it does not stall. -/
theorem progress_iff (acts : ∀ frame, rx.Acts f (receive frame) (Rx.accept frame))
    (frame : List UInt8) (s : σ) :
    Rx.Progress (receive frame s).1 (rx.get s) (rx.get (receive frame s).2) ↔
      ¬ Rx.Stalls frame (rx.get s) := by
  rw [← (Rx.accept_step frame (rx.get s)).progress_iff, acts frame s]
  simp [Rx.Progress, rx.get_set]

/-- The frames of one message bring it on, each in its turn. -/
theorem OneMessage.flows (acts : ∀ frame, rx.Acts f (receive frame) (Rx.accept frame))
    {frames : List (List UInt8)} {s : σ} (one : OneMessage receive rx.get frames s) :
    Along Rx.accept Rx.Flows frames (rx.get s) := by
  induction frames generalizing s with
  | nil => exact trivial
  | cons frame frames ih =>
    obtain ⟨⟨flows, unfinished⟩, rest⟩ := one
    rw [acts frame s] at unfinished
    have next := ih rest
    rw [acts frame s, rx.get_set] at next
    exact ⟨⟨flows, (isMessage_mapError f _).symm.trans unfinished⟩, next⟩

/-- The frames of one message are acknowledged less often than it may have octets. -/
theorem OneMessage.acks_lt (acts : ∀ frame, rx.Acts f (receive frame) (Rx.accept frame))
    {frames : List (List UInt8)} {s : σ} (wf : (rx.get s).Wf)
    (one : OneMessage receive rx.get frames s) :
    (feed receive frames s).1.countP isAck < 8192 := by
  have few := wf.acks_lt (one.flows acts)
  rw [Part.Acts.feed acts, List.countP_map]
  have same : isAck ∘ Except.mapError f = isAck := funext fun out => isAck_mapError f out
  rw [same]
  exact few

end Acts

/-- In every state of the server and of the UE, a frame makes progress just when it does not
stall. In every run, from the start on, the position of an idle receiver is 0, and the frames of one
message that do not stall are acknowledged fewer than 8192 times. -/
theorem acknowledged_progress_iff (s : Session) (u : Ue) (frame : List UInt8)
    (before : List (List UInt8)) (P : Primitives UInt8) (cfg : UeConfig) (inputs : List NasInput) :
    (Rx.Progress (edhocConsumeIncoming frame s).1 (Session.rxPart.get s)
        (Session.rxPart.get (edhocConsumeIncoming frame s).2) ↔
      ¬ Rx.Stalls frame (Session.rxPart.get s)) ∧
    (Rx.Progress (parseEdhocWire frame u).1 (Ue.rxPart.get u)
        (Ue.rxPart.get (parseEdhocWire frame u).2) ↔
      ¬ Rx.Stalls frame (Ue.rxPart.get u)) ∧
    ((Session.rxPart.get (feed edhocConsumeIncoming before modSessionInit).2).stale = 0 ∧
      ∀ frames, OneMessage edhocConsumeIncoming Session.rxPart.get frames
          (feed edhocConsumeIncoming before modSessionInit).2 →
        (feed edhocConsumeIncoming frames
          (feed edhocConsumeIncoming before modSessionInit).2).1.countP isAck < 8192) ∧
    ((Ue.rxPart.get (Ue.after P cfg inputs)).stale = 0 ∧
      ∀ frames, OneMessage parseEdhocWire Ue.rxPart.get frames (Ue.after P cfg inputs) →
        (feed parseEdhocWire frames (Ue.after P cfg inputs)).1.countP isAck < 8192) := by
  have server : (Session.rxPart.get (feed edhocConsumeIncoming before modSessionInit).2).Wf :=
    feed_inv (fun frame s wf => (edhocConsumeIncoming_step frame s).wf wf) wf_modSessionInit before
  have ue := (Ue.after_wf P cfg inputs).rx
  exact ⟨progress_iff edhocConsumeIncoming_acts frame s, progress_iff parseEdhocWire_acts frame u,
    ⟨server.stale, fun frames one => one.acks_lt edhocConsumeIncoming_acts server⟩,
    ⟨ue.stale, fun frames one => one.acks_lt parseEdhocWire_acts ue⟩⟩

section Demo

open Transparent (primitives)

/-- Two frames of a message of three octets, at the server and at the UE. -/
theorem acknowledged_progress_two_frames :
    (feed edhocConsumeIncoming [[0xC0, 0, 3, 7], [0x40, 8]] modSessionInit).1.countP isAck < 8192 ∧
    (feed parseEdhocWire [[0xC0, 0, 3, 7], [0x40, 8]]
      (Ue.after primitives demoConfig [])).1.countP isAck < 8192 := by
  have all (s : Session) (u : Ue) (frame : List UInt8) :=
    acknowledged_progress_iff s u frame [] primitives demoConfig []
  have server (s : Session) (frame : List UInt8) :=
    (all s (Ue.after primitives demoConfig []) frame).1
  have ue (u : Ue) (frame : List UInt8) := (all modSessionInit u frame).2.1
  obtain ⟨-, -, ⟨-, serverRun⟩, ⟨-, ueRun⟩⟩ :=
    all modSessionInit (Ue.after primitives demoConfig []) []
  refine ⟨serverRun _ ⟨⟨(server _ _).mp ?_, rfl⟩, ⟨(server _ _).mp ?_, rfl⟩, trivial⟩,
    ueRun _ ⟨⟨(ue _ _).mp ?_, rfl⟩, ⟨(ue _ _).mp ?_, rfl⟩, trivial⟩⟩
  all_goals exact fun _ => by decide

/-- A message of three octets whose first frame has brought one, at the server and at the UE. A MORE
frame without a payload is acknowledged and leaves the position where it is, one with the two
octets that are left is acknowledged with nothing to come, and 8192 empty ones are acknowledged one
after the other. -/
theorem empty_more_frames_acknowledged :
    ¬ Rx.Progress (edhocConsumeIncoming [0x40] (edhocConsumeIncoming [0xC0, 0, 3, 7]
          modSessionInit).2).1
        (Session.rxPart.get (edhocConsumeIncoming [0xC0, 0, 3, 7] modSessionInit).2)
        (Session.rxPart.get (edhocConsumeIncoming [0x40]
          (edhocConsumeIncoming [0xC0, 0, 3, 7] modSessionInit).2).2) ∧
    ¬ Rx.Progress (edhocConsumeIncoming [0x40, 8, 9] (edhocConsumeIncoming [0xC0, 0, 3, 7]
          modSessionInit).2).1
        (Session.rxPart.get (edhocConsumeIncoming [0xC0, 0, 3, 7] modSessionInit).2)
        (Session.rxPart.get (edhocConsumeIncoming [0x40, 8, 9]
          (edhocConsumeIncoming [0xC0, 0, 3, 7] modSessionInit).2).2) ∧
    (feed edhocConsumeIncoming (List.replicate 8192 [0x40])
      (edhocConsumeIncoming [0xC0, 0, 3, 7] modSessionInit).2).1.countP isAck = 8192 ∧
    ¬ Rx.Progress (parseEdhocWire [0x40] (parseEdhocWire [0xC0, 0, 3, 7]
          (Ue.after primitives demoConfig [])).2).1
        (Ue.rxPart.get (parseEdhocWire [0xC0, 0, 3, 7] (Ue.after primitives demoConfig [])).2)
        (Ue.rxPart.get (parseEdhocWire [0x40]
          (parseEdhocWire [0xC0, 0, 3, 7] (Ue.after primitives demoConfig [])).2).2) ∧
    (feed parseEdhocWire (List.replicate 8192 [0x40])
      (parseEdhocWire [0xC0, 0, 3, 7] (Ue.after primitives demoConfig [])).2).1.countP isAck =
        8192 := by
  have acked {ε : Type} (out : Except ε (Option (List UInt8))) (n : Nat) (ack : isAck out = true) :
      (List.replicate n out).countP isAck = n := by
    rw [List.countP_replicate, if_pos ack]
  refine ⟨fun progress => absurd (progress rfl).1 (by decide),
    fun progress => absurd (progress rfl).2 (by decide), ?_,
    fun progress => absurd (progress rfl).1 (by decide), ?_⟩
  · rw [Part.Acts.feed edhocConsumeIncoming_acts,
      Rx.feed_empty_more (r := Session.rxPart.get _) (by decide) (by decide), List.map_replicate]
    exact acked _ _ rfl
  · rw [Part.Acts.feed parseEdhocWire_acts,
      Rx.feed_empty_more (r := Ue.rxPart.get _) (by decide) (by decide), List.map_replicate]
    exact acked _ _ rfl

end Demo

end EdhocAuth.Eap
