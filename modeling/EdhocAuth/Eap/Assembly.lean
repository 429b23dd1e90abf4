/-
What the server has reassembled.

`edhoc_consume_incoming` is fed with any frames from the start of a session on. Its cursors stay
inside the buffer whatever the frames are, also after it has rejected some (`Rx.Step.wf`).
While it has rejected none, the octets in front of the position are the payloads of the frames
since the length was announced: `Rx.Assembled` is the invariant, and `server_reassembly` what
it means for the messages that are delivered.
-/

import EdhocAuth.Eap.Reassembly

namespace EdhocAuth.Eap

open Proc

namespace Rx

variable {inp : List UInt8} {since : List (List UInt8)} {r r' : Rx} {out : Option (List UInt8)}

def payloads (frames : List (List UInt8)) : List UInt8 := frames.flatMap wirePayload

/-- The receiver has taken in the payloads of the frames `since` the first of them announced the
length of the message. -/
structure Assembled (since : List (List UInt8)) (r : Rx) : Prop where
  closed : r.len = 0 → r.pos = 0 ∧ since = []
  opened :
    r.len ≠ 0 → ∃ first rest, since = first :: rest ∧ Announces first ∧ totalLen first = r.len
  buf : r.buf.take r.pos = payloads since

/-- The frames since the length was set from 0, after one more frame that turns `r` into `r'`. -/
def track (r r' : Rx) (since : List (List UInt8)) (inp : List UInt8) : List (List UInt8) :=
  if r'.len = 0 then [] else if r.len = 0 then [inp] else since ++ [inp]

/-- An idle receiver has taken in nothing. -/
theorem Assembled.idle {r : Rx} (idle : r.Idle) : Assembled [] r := by
  refine ⟨fun _ => ⟨idle.pos, rfl⟩, fun opened => absurd idle.len opened, ?_⟩
  rw [idle.pos]
  rfl

/-- A frame that is admitted opens a message or belongs to the open one. -/
theorem Assembled.admits (here : Assembled since r) (admits : Admits inp r r') :
    ∃ before first rest, track r (r'.put (wirePayload inp)) since inp = before ++ [inp] ∧
      before ++ [inp] = first :: rest ∧ Announces first ∧ totalLen first = r'.len ∧
      r'.buf.take r'.pos = payloads before ∧ (r.len ≠ 0 → before = since) := by
  have opened : (r'.put (wirePayload inp)).len ≠ 0 := admits.opened
  by_cases closed : r.len = 0
  · have announces := admits.of_closed closed
    refine ⟨[], inp, [], ?_, rfl, announces, ?_, ?_, fun some => absurd closed some⟩
    · rw [track, if_neg opened, if_pos closed]
      rfl
    · cases admits with
      | opens _ _ => rfl
      | repeats _ opened _ => exact absurd closed opened
      | continues _ _ opened => exact absurd closed opened
    · cases admits with
      | opens _ _ => rfl
      | repeats _ opened _ => exact absurd closed opened
      | continues _ _ opened => exact absurd closed opened
  · obtain rfl := admits.of_open closed
    obtain ⟨first, rest, rfl, announces, total⟩ := here.opened closed
    refine ⟨first :: rest, first, rest ++ [inp], ?_, rfl, announces, total, here.buf, fun _ => rfl⟩
    rw [track, if_neg opened, if_neg closed]

/-- One more frame adds its payload. -/
theorem payloads_concat (before : List (List UInt8)) (inp : List UInt8) :
    payloads (before ++ [inp]) = payloads before ++ wirePayload inp := by
  simp [payloads]

/-- What an accepted frame leaves, and what it delivers in the middle of a message. -/
theorem Step.assembled (step : Step inp r (.ok out) r') (here : Assembled since r) (wf : r.Wf) :
    Assembled (track r r' since inp) r' ∧
      ∀ msg, out = some msg → r.len ≠ 0 →
        msg = payloads since ++ wirePayload inp ∧
          ∃ first rest, since = first :: rest ∧ Announces first ∧ totalLen first = msg.length := by
  cases step with
  | alone alone =>
    refine ⟨?_, fun msg _ opened => absurd alone.closed opened⟩
    rw [track, if_pos alone.closed]
    exact .idle ⟨alone.closed, (here.closed alone.closed).1⟩
  | @part s admits fits more =>
    refine ⟨?_, fun msg none => nomatch none⟩
    obtain ⟨before, first, rest, tracked, parts, announces, total, taken, -⟩ := here.admits admits
    rw [tracked]
    refine ⟨fun closed => absurd closed admits.opened,
      fun _ => ⟨first, rest, parts, announces, total⟩, ?_⟩
    rw [(admits.wf wf).taken, taken, payloads_concat]
  | @whole s admits fits last =>
    have idle : Assembled [] { s.put (wirePayload inp) with len := 0, pos := 0 } := .idle ⟨rfl, rfl⟩
    refine ⟨by rw [track, if_pos rfl]; exact idle, ?_⟩
    rintro msg delivered opened
    obtain ⟨before, -, -, -, -, -, -, taken, same⟩ := here.admits admits
    obtain rfl := same opened
    obtain rfl := admits.of_open opened
    have whole := (admits.wf wf).taken (wirePayload inp)
    rw [show (s.put (wirePayload inp)).pos = s.len from fits, taken] at whole
    obtain ⟨first, rest, parts, announces, total⟩ := here.opened opened
    have size : msg.length = s.len := by
      rw [← Option.some.inj delivered]
      apply List.length_take_of_le
      rw [((admits.wf wf).put fits.le).buf]
      exact wf.len
    refine ⟨?_, first, rest, parts, announces, total.trans size.symm⟩
    rw [← Option.some.inj delivered]
    exact whole

/-- What a frame does to the buffer: nothing, or its payload is copied to a place inside it. -/
theorem Step.copies {out : Except Edhoc4.Err (Option (List UInt8))} (step : Step inp r out r')
    (wf : r.Wf) :
    r'.buf = r.buf ∨
      ∃ pos, pos + (wirePayload inp).length ≤ Edhoc4.maxMsg ∧
        r'.buf = memcpyAt r.buf pos (wirePayload inp) := by
  have same {s : Rx} (admits : Admits inp r s) : s.buf = r.buf := by
    cases admits with
    | opens _ _ => rfl
    | repeats _ _ _ => rfl
    | continues _ _ _ => rfl
  have copy {s : Rx} (admits : Admits inp r s) (fits : s.pos + (wirePayload inp).length ≤ s.len) :
      ∃ pos, pos + (wirePayload inp).length ≤ Edhoc4.maxMsg ∧
        (s.put (wirePayload inp)).buf = memcpyAt r.buf pos (wirePayload inp) :=
    ⟨s.pos, fits.trans (admits.wf wf).len,
      congrArg (memcpyAt · s.pos (wirePayload inp)) (same admits)⟩
  cases step with
  | refused _ _ => exact .inl rfl
  | alone _ => exact .inl rfl
  | tooLong admits _ => exact .inl (same admits)
  | part admits fits _ => exact .inr (copy admits fits)
  | whole admits fits _ => exact .inr (copy admits fits.le)
  | short admits gap _ => exact .inr (copy admits gap.le)

end Rx

/-! ### The server -/

/-- A session and the frames since `in_len` was last set from 0, after one more frame. -/
def assembleStep (st : Session × List (List UInt8)) (frame : List UInt8) :
    Session × List (List UInt8) :=
  let s := (edhocConsumeIncoming frame st.1).2
  (s, if s.inLen = 0 then [] else if st.1.inLen = 0 then [frame] else st.2 ++ [frame])

def assembleRun (frames : List (List UInt8)) : Session × List (List UInt8) :=
  frames.foldl assembleStep (modSessionInit, [])

def NoneRejected (frames : List (List UInt8)) (s : Session) : Prop :=
  ∀ result ∈ (feed edhocConsumeIncoming frames s).1, ∃ out, result = .ok out

section Run

variable {frame : List UInt8} {frames : List (List UInt8)} {s : Session}
    {st : Session × List (List UInt8)}

/-- A call of the server is a step of the receiver. -/
theorem edhocConsumeIncoming_step (frame : List UInt8) (s : Session) :
    Rx.Step frame (Session.rxPart.get s) (edhocConsumeIncoming frame s).1
      (Session.rxPart.get (edhocConsumeIncoming frame s).2) := by
  have same : Except.mapError id (Rx.accept frame (Session.rxPart.get s)).1 =
      (Rx.accept frame (Session.rxPart.get s)).1 := by
    cases (Rx.accept frame (Session.rxPart.get s)).1 <;> rfl
  rw [edhocConsumeIncoming_acts frame s, same]
  exact Rx.accept_step frame (Session.rxPart.get s)

theorem wf_modSessionInit : (Session.rxPart.get modSessionInit).Wf :=
  ⟨Nat.le_refl 0, Nat.zero_le _, List.length_replicate⟩

/-- Every frame keeps the receiver within its buffer. -/
theorem wf_run (wf : (Session.rxPart.get st.1).Wf) :
    (Session.rxPart.get (frames.foldl assembleStep st).1).Wf := by
  induction frames generalizing st with
  | nil => exact wf
  | cons frame frames ih => exact ih ((edhocConsumeIncoming_step frame st.1).wf wf)

/-- Over any frames, the receiver holds the payloads since the length was set. -/
theorem assembled_run (wf : (Session.rxPart.get st.1).Wf)
    (here : Rx.Assembled st.2 (Session.rxPart.get st.1)) (accepted : NoneRejected frames st.1) :
    Rx.Assembled (frames.foldl assembleStep st).2
      (Session.rxPart.get (frames.foldl assembleStep st).1) := by
  induction frames generalizing st with
  | nil => exact here
  | cons frame frames ih =>
    obtain ⟨⟨out, first⟩, rest⟩ := List.forall_mem_cons.mp accepted
    have step := edhocConsumeIncoming_step frame st.1
    rw [first] at step
    exact ih (step.wf wf) (step.assembled here wf).1 rest

end Run

/-- The buffer of the server after any frames from the start of a session. The cursors are inside
it, and a call copies nothing, or the payload of its frame to a place inside. If no frame has been
rejected, the octets in front of the position are the payloads since the length was set, and a
message of several frames is these and the last payload, with the length that its first frame
announced. -/
theorem server_reassembly (frames : List (List UInt8)) :
    (assembleRun frames).1.inPos ≤ (assembleRun frames).1.inLen ∧
    (assembleRun frames).1.inLen ≤ 8192 ∧
      (assembleRun frames).1.inBuf.length = 8192 ∧
      (∀ frame, (edhocConsumeIncoming frame (assembleRun frames).1).2.inBuf =
        (assembleRun frames).1.inBuf ∨ ∃ pos, pos + (wirePayload frame).length ≤ 8192 ∧
          (edhocConsumeIncoming frame (assembleRun frames).1).2.inBuf =
            memcpyAt (assembleRun frames).1.inBuf pos (wirePayload frame)) ∧
      (NoneRejected frames modSessionInit →
        (assembleRun frames).1.inBuf.take (assembleRun frames).1.inPos =
            (assembleRun frames).2.flatMap wirePayload ∧
          ∀ frame msg, (edhocConsumeIncoming frame (assembleRun frames).1).1 = .ok (some msg) →
            (assembleRun frames).1.inLen ≠ 0 →
            msg = (assembleRun frames).2.flatMap wirePayload ++ wirePayload frame ∧
              ∃ first rest, (assembleRun frames).2 = first :: rest ∧ Rx.Announces first ∧
                Rx.totalLen first = msg.length) := by
  have wf : (Session.rxPart.get (assembleRun frames).1).Wf := wf_run wf_modSessionInit
  refine ⟨wf.pos, wf.len, wf.buf, ?_, ?_⟩
  · intro frame
    exact (edhocConsumeIncoming_step frame (assembleRun frames).1).copies wf
  · intro accepted
    have here : Rx.Assembled (assembleRun frames).2 (Session.rxPart.get (assembleRun frames).1) :=
      assembled_run wf_modSessionInit (Rx.Assembled.idle ⟨rfl, rfl⟩) accepted
    refine ⟨here.buf, ?_⟩
    intro frame msg delivered opened
    have step := edhocConsumeIncoming_step frame (assembleRun frames).1
    rw [delivered] at step
    exact (step.assembled here wf).2 msg rfl opened

/-- A message of two frames. -/
theorem server_reassembly_two :
    NoneRejected [[0xC0, 0, 3, 7, 8]] modSessionInit ∧
      (edhocConsumeIncoming [0, 9] (assembleRun [[0xC0, 0, 3, 7, 8]]).1).1 = .ok (some [7, 8, 9]) ∧
      ([7, 8, 9] : List UInt8) =
        (assembleRun [[0xC0, 0, 3, 7, 8]]).2.flatMap wirePayload ++ wirePayload [0, 9] := by
  have accepted : NoneRejected [[0xC0, 0, 3, 7, 8]] modSessionInit := by
    intro result mem
    exact ⟨none, List.mem_singleton.mp mem⟩
  have delivered :
    (edhocConsumeIncoming [0, 9] (assembleRun [[0xC0, 0, 3, 7, 8]]).1).1 = .ok (some [7, 8, 9]) :=
    rfl
  have opened : (assembleRun [[0xC0, 0, 3, 7, 8]]).1.inLen ≠ 0 := by decide
  have assembled := (server_reassembly [[0xC0, 0, 3, 7, 8]]).2.2.2.2 accepted
  exact ⟨accepted, delivered, (assembled.2 [0, 9] [7, 8, 9] delivered opened).1⟩

end EdhocAuth.Eap
