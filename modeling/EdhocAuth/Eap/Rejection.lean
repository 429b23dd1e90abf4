/-
Wires that `ParseEdhocWire` rejects.

It takes over the length field and the piece of a wire before its last checks, and the
caller returns from a parse error without the reset it makes after a protocol error. So
some rejected wires leave a trace in the reassembly state (`Rx.Poisons`): those that open
a message which they do not fit, and last pieces that leave a gap.
-/

import EdhocAuth.Eap.Rotation
import EdhocAuth.Eap.Requests
import EdhocAuth.Eap.RoundTrip

namespace EdhocAuth.Eap

open Proc

/-! ### One rejected wire -/

namespace Rx

variable {inp : List UInt8} {r r' : Rx} {e : Edhoc4.Err}

/-- If this wire is rejected, then only after it has changed the receiver: it announces a
valid length while the receiver is idle, or it adds octets to the message in progress. -/
def Poisons (inp : List UInt8) (r : Rx) : Prop :=
  (r.len = 0 ∧ Announces inp) ∨
    (Admits inp r r ∧ wirePayload inp ≠ [] ∧ r.pos + (wirePayload inp).length ≤ r.len)

/-- A wire that is admitted and rejected leaves a message in progress. -/
theorem Step.error_opened (step : Step inp r (.error e) r') (admits : ∃ t, Admits inp r t) :
    r'.len ≠ 0 := by
  cases step with
  | refused outside _ =>
    obtain ⟨t, admits⟩ := admits
    exact absurd admits (outside t)
  | tooLong admits _ => exact admits.opened
  | short admits _ _ => exact admits.opened

/-- An idle receiver admits nothing but a valid length field. -/
theorem Step.error_closed (step : Step inp r (.error e) r') (closed : r.len = 0)
    (silent : ¬ Announces inp) : r' = r := by
  cases step with
  | refused _ _ => rfl
  | tooLong admits _ => exact absurd (admits.of_closed closed) silent
  | short admits _ _ => exact absurd (admits.of_closed closed) silent

/-- A rejected wire leaves the receiver unchanged or idle just when it does not poison it. -/
theorem Step.error_iff (step : Step inp r (.error e) r') :
    (r' = r ∨ r'.Idle) ↔ ¬ Poisons inp r := by
  by_cases closed : r.len = 0
  · have poisons : Poisons inp r ↔ Announces inp := by
      constructor
      · rintro (⟨-, announces⟩ | ⟨admits, -, -⟩)
        · exact announces
        · exact admits.of_closed closed
      · exact fun announces => .inl ⟨closed, announces⟩
    rw [poisons]
    constructor
    · rintro kept announces
      have opened := step.error_opened ⟨_, .opens announces closed⟩
      rcases kept with rfl | idle
      · exact opened closed
      · exact opened idle.len
    · exact fun silent => .inl (step.error_closed closed silent)
  · have poisons : Poisons inp r ↔ Admits inp r r ∧ wirePayload inp ≠ [] ∧
        r.pos + (wirePayload inp).length ≤ r.len := by
      constructor
      · rintro (⟨closed', -⟩ | here)
        · exact absurd closed' closed
        · exact here
      · exact .inr
    rw [poisons]
    cases step with
    | refused outside _ => exact ⟨fun _ here => outside _ here.1, fun _ => .inl rfl⟩
    | tooLong admits long =>
      obtain rfl := admits.of_open closed
      exact ⟨fun _ here => absurd here.2.2 (not_le.mpr long), fun _ => .inl rfl⟩
    | short admits gap _ =>
      obtain rfl := admits.of_open closed
      by_cases empty : wirePayload inp = []
      · refine ⟨fun _ here => here.2.1 empty, fun _ => .inl ?_⟩
        rw [empty]
        exact put_nil _
      · refine ⟨fun kept => ?_, fun silent => absurd ⟨admits, empty, gap.le⟩ silent⟩
        rcases kept with same | idle
        · exact absurd same (put_ne empty)
        · exact absurd idle.len closed

/-! ### Any number of rejected wires -/

def AllRejected {ε α : Type} (rs : List (Except ε α)) : Prop := ∀ r ∈ rs, ∃ e, r = .error e

/-- A wire that is rejected is rejected in one of the ways of `Step`. -/
theorem accept_error {inp : List UInt8} {r : Rx} (rejected : ∃ e, (accept inp r).1 = .error e) :
    ∃ e, Step inp r (.error e) (accept inp r).2 := by
  obtain ⟨e, failed⟩ := rejected
  have step := accept_step inp r
  rw [IsStep, failed] at step
  exact ⟨e, step⟩

/-- Rejections never close a message in progress. -/
theorem Step.error_stays_open (step : Step inp r (.error e) r') (opened : r.len ≠ 0) :
    r'.len ≠ 0 := by
  cases step with
  | refused _ _ => exact opened
  | tooLong admits _ => exact admits.opened
  | short admits _ _ => exact admits.opened

/-- Rejected wires do not close a receiver that waits for more. -/
theorem feed_rejected_open {wires : List (List UInt8)}
    (rejected : AllRejected (feed accept wires r).1) (opened : r.len ≠ 0) :
    (feed accept wires r).2.len ≠ 0 := by
  induction wires generalizing r with
  | nil => exact opened
  | cons inp wires ih =>
    obtain ⟨e, step⟩ := accept_error (rejected _ (.head _))
    exact ih (fun x mem => rejected x (.tail _ mem)) (step.error_stays_open opened)

/-- Wires rejected from an idle receiver on leave it as it was, or one of them announces a
length and leaves a message in progress. -/
theorem Idle.feed_rejected {wires : List (List UInt8)} (idle : r.Idle)
    (rejected : AllRejected (feed accept wires r).1) :
    ((∀ inp ∈ wires, ¬ Announces inp) ∧ (feed accept wires r).2 = r) ∨
      (¬ (∀ inp ∈ wires, ¬ Announces inp) ∧ (feed accept wires r).2.len ≠ 0) := by
  induction wires with
  | nil => exact .inl ⟨fun _ mem => (List.not_mem_nil mem).elim, rfl⟩
  | cons inp wires ih =>
    obtain ⟨e, step⟩ := accept_error (rejected _ (.head _))
    have rest : AllRejected (feed accept wires (accept inp r).2).1 :=
      fun x mem => rejected x (.tail _ mem)
    by_cases announces : Announces inp
    · refine .inr ⟨fun none => none inp (.head _) announces, ?_⟩
      show (feed accept wires (accept inp r).2).2.len ≠ 0
      exact feed_rejected_open rest (step.error_opened ⟨_, .opens announces idle.len⟩)
    · have same : (accept inp r).2 = r := step.error_closed idle.len announces
      rw [same] at rest
      show ((∀ x ∈ inp :: wires, _) ∧ (feed accept wires (accept inp r).2).2 = r) ∨
        (_ ∧ (feed accept wires (accept inp r).2).2.len ≠ 0)
      rw [same]
      rcases ih rest with ⟨silent, kept⟩ | ⟨some_announces, opened⟩
      · exact .inl ⟨List.forall_mem_cons.mpr ⟨announces, silent⟩, kept⟩
      · exact .inr ⟨fun none => some_announces (List.forall_mem_cons.mp none).2, opened⟩

/-- A receiver in the middle of a message does not take in the empty message. -/
theorem not_delivers_empty (wf : r.Wf) (opened : r.len ≠ 0) :
    (accept [0x00] r).1 ≠ .ok (some []) := by
  intro delivered
  have step := accept_step [0x00] r
  rw [IsStep, delivered] at step
  generalize (accept [0x00] r).2 = r' at step
  generalize got : (Except.ok (some []) : Except Edhoc4.Err (Option (List UInt8))) = out at step
  cases step with
  | refused _ _ => cases got
  | alone alone => exact opened alone.closed
  | tooLong _ _ => cases got
  | part _ _ _ => cases got
  | whole admits fits _ =>
    have empty := congrArg List.length (Option.some.inj (Except.ok.inj got)).symm
    have after := (admits.wf wf).put fits.le
    have bound := (admits.wf wf).len
    rw [List.length_take, after.buf] at empty
    have some_octets := admits.opened
    have none : ([] : List UInt8).length = 0 := rfl
    omega
  | short _ _ _ => cases got

end Rx

/-! ### The UE -/

/-- Every well-formed sequence of wires that comes next is put together. -/
def Ue.DeliversAll (u : Ue) : Prop :=
  ∀ (msg : List UInt8) (ws : List (List UInt8)), msg.length ≤ 8192 → Fragments msg false 0 ws →
    ∃ u', feed parseEdhocWire ws u = (results ws.length msg, u') ∧ (Ue.rxPart.get u').Idle

section Ue

variable {u : Ue}

/-- An idle UE delivers every message. -/
theorem Ue.deliversAll_of_idle (idle : (Ue.rxPart.get u).Idle) : u.DeliversAll := by
  intro msg ws fits fragments
  obtain ⟨r', fed, idle'⟩ := fragments.feed fits idle
  refine ⟨Ue.rxPart.set r' u, ?_, idle'⟩
  rw [Part.Acts.feed parseEdhocWire_acts, fed, results_mapError]

/-- A UE that waits for more does not. -/
theorem Ue.not_deliversAll_of_open (wf : (Ue.rxPart.get u).Wf) (opened : u.inLen ≠ 0) :
    ¬ u.DeliversAll := by
  intro all
  have empty : Fragments [] false 0 [fragWire false false 0 []] :=
    .last (le_refl 0) (fun _ => rfl) (by simp)
  obtain ⟨u', fed, -⟩ := all [] _ (Nat.zero_le _) empty
  rw [Part.Acts.feed parseEdhocWire_acts] at fed
  have first : (Rx.accept [0x00] (Ue.rxPart.get u)).1.mapError (fun _ => ()) = .ok (some []) :=
    (List.cons.inj (Prod.mk.inj fed).1).1
  apply Rx.not_delivers_empty wf opened
  generalize (Rx.accept [0x00] (Ue.rxPart.get u)).1 = got at first ⊢
  cases got with
  | error e => cases first
  | ok msg => exact congrArg Except.ok (Except.ok.inj first)

/-- A wire that the UE rejects is rejected in one of the ways of `Step`. -/
theorem parse_error {data : List UInt8} {u' : Ue}
    (rejected : parseEdhocWire data u = (.error (), u')) :
    ∃ e, Rx.Step data (Ue.rxPart.get u) (.error e) (Ue.rxPart.get u') := by
  have acts := (parseEdhocWire_acts data u).symm.trans rejected
  have step := Rx.accept_step data (Ue.rxPart.get u)
  generalize Rx.accept data (Ue.rxPart.get u) = out at acts step
  obtain ⟨out, r'⟩ := out
  obtain ⟨failed, rfl⟩ := Prod.mk.inj acts
  cases out with
  | error e => exact ⟨e, step⟩
  | ok got => cases failed

/-- Rejected wires at a UE are rejected wires at its receiver. -/
theorem feed_parse_rejected {frames : List (List UInt8)}
    (rejected : ∀ x ∈ (feed parseEdhocWire frames u).1, x = .error ()) :
    Rx.AllRejected (feed Rx.accept frames (Ue.rxPart.get u)).1 := by
  intro x mem
  rw [Part.Acts.feed parseEdhocWire_acts] at rejected
  have failed := rejected _ (List.mem_map_of_mem mem)
  cases x with
  | error e => exact ⟨e, rfl⟩
  | ok got => cases failed

/-- Fed with frames, the UE is the common receiver. -/
theorem feed_parse_receiver (frames : List (List UInt8)) :
    Ue.rxPart.get (feed parseEdhocWire frames u).2 =
      (feed Rx.accept frames (Ue.rxPart.get u)).2 := by
  rw [Part.Acts.feed parseEdhocWire_acts]
  rfl

end Ue

/-- In every state of every run: a rejected wire leaves the reassembly state unchanged or
idle just when it does not poison it; and after wires that were rejected from an idle
state on, every message is still delivered just when none of them announced a length. -/
theorem rejection_leaves_no_trace_iff (P : Primitives UInt8) (cfg : UeConfig)
    (inputs : List NasInput) :
    (∀ data u', parseEdhocWire data (Ue.after P cfg inputs) = (.error (), u') →
      ((Ue.rxPart.get u' = Ue.rxPart.get (Ue.after P cfg inputs) ∨ (Ue.rxPart.get u').Idle) ↔
        ¬ Rx.Poisons data (Ue.rxPart.get (Ue.after P cfg inputs)))) ∧
    ((Ue.rxPart.get (Ue.after P cfg inputs)).Idle → ∀ frames : List (List UInt8),
      (∀ x ∈ (feed parseEdhocWire frames (Ue.after P cfg inputs)).1, x = .error ()) →
      ((feed parseEdhocWire frames (Ue.after P cfg inputs)).2.DeliversAll ↔
        ∀ frame ∈ frames, ¬ Rx.Announces frame)) := by
  have wf : (Ue.after P cfg inputs).Wf := Ue.after_wf P cfg inputs
  generalize Ue.after P cfg inputs = u at wf ⊢
  constructor
  · intro data u' rejected
    obtain ⟨e, step⟩ := parse_error rejected
    exact step.error_iff
  · intro idle frames rejected
    have receiver := feed_parse_receiver (u := u) frames
    have wf' := feed_inv (fun inp r => (Rx.accept_step inp r).wf) wf.rx frames
    rcases idle.feed_rejected (feed_parse_rejected rejected) with ⟨silent, same⟩ | ⟨loud, opened⟩
    · rw [same] at receiver
      exact ⟨fun _ => silent, fun _ => Ue.deliversAll_of_idle (receiver ▸ idle)⟩
    · rw [← receiver] at wf' opened
      exact ⟨fun all => absurd all (Ue.not_deliversAll_of_open wf' opened),
        fun silent => absurd silent loud⟩

section Demo

open Transparent (primitives)

/-- An empty wire and one without a length field are rejected without a trace. -/
theorem empty_wires_leave_no_trace :
    (feed parseEdhocWire [[], [0x40, 0x01]]
      (Ue.after primitives demoConfig [.result])).2.DeliversAll := by
  refine ((rejection_leaves_no_trace_iff primitives demoConfig [.result]).2 ⟨rfl, rfl⟩
    [[], [0x40, 0x01]] (by decide)).mpr ?_
  intro frame mem announces
  have short : frame.length < fragHdrLen + fragLenLen := by
    rcases List.mem_cons.mp mem with empty | other
    · rw [empty]
      decide
    · rw [List.mem_singleton.mp other]
      decide
  exact absurd announces.long (by omega)

/-- A wire that announces two octets and carries three is rejected while no message is
being reassembled; it leaves an announced length of two behind, and messages that come
next are lost. -/
theorem rejected_wire_poisons :
    (parseEdhocWire [0x80, 0x00, 0x02, 1, 2, 3] (Ue.after primitives demoConfig [])).1 = .error () ∧
    ¬ (Ue.rxPart.get (parseEdhocWire [0x80, 0x00, 0x02, 1, 2, 3]
          (Ue.after primitives demoConfig [])).2 =
        Ue.rxPart.get (Ue.after primitives demoConfig []) ∨
      (Ue.rxPart.get (parseEdhocWire [0x80, 0x00, 0x02, 1, 2, 3]
        (Ue.after primitives demoConfig [])).2).Idle) ∧
    ¬ (parseEdhocWire [0x80, 0x00, 0x02, 1, 2, 3]
      (Ue.after primitives demoConfig [])).2.DeliversAll := by
  have length : (parseEdhocWire [0x80, 0x00, 0x02, 1, 2, 3]
      (Ue.after primitives demoConfig [])).2.inLen = 2 := by decide
  have wf := (Rx.accept_step [0x80, 0x00, 0x02, 1, 2, 3] _).wf
    (Ue.after_wf primitives demoConfig []).rx
  refine ⟨by decide, ?_, ?_⟩
  · rintro (same | idle)
    · exact absurd (length.symm.trans (congrArg Rx.len same)) (by decide)
    · exact absurd (length.symm.trans idle.len) (by decide)
  · refine Ue.not_deliversAll_of_open ?_ (by rw [length]; decide)
    rw [parseEdhocWire_acts]
    exact wf

end Demo

end EdhocAuth.Eap
