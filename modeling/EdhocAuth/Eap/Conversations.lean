/-
Conversations at the level of the NAS messages.

The network puts a type data field of the server into a PDU Session Authentication
Command and hands the type data of the UE's answer back to the server. What it writes
into the headers makes no difference (`Link.deliver_eq_step`), so a conversation goes
as the link of `Lockstep` does. The first of a UE that has just been started succeeds; a
later one does if it meets the UE in round -1, and is lost in any other round.
-/

import EdhocAuth.Eap.Requests
import EdhocAuth.Eap.Rotation

namespace EdhocAuth.Eap

open Proc

/-! ### Commands and answers -/

/-- What the network writes around the type data of a request. -/
structure Header where
  psi : Nat
  pti : Nat
  id : UInt8

def Header.command (h : Header) (wire : List UInt8) : Command :=
  ⟨h.psi, h.pti, some (h.id, .edhoc wire)⟩

/-- The type data the network hands to the server: the answer has to be an EAP-EDHOC
response to this request. -/
def Header.accept (h : Header) : UeReply → Flight
  | .complete psi pti id (.edhoc answer) =>
    if psi = h.psi ∧ pti = h.pti ∧ id = h.id then .response answer else .failed
  | _ => .failed

section Deliver

variable (P : Primitives UInt8) (cfg : UeConfig) (inst : Instance)

/-- Deliver what is in flight, to the UE in a PDU Session Authentication Command. -/
def Link.deliver (h : Header) (coins : LinkCoins) (l : Link) : Link :=
  match l.flight with
  | .request wire =>
    let out := receivePduSessionAuthenticationCommand P cfg coins.ue (h.command wire) l.ue
    { l with ue := out.2, notes := l.notes ++ ueNotes l.ue out.2, flight := h.accept out.1 }
  | .response wire =>
    let out := modProcess P inst ⟨wire, coins.server⟩ l.session
    { l with session := out.1, notes := l.notes ++ serverNotes out.1 out.2,
             flight := .after out.2.getLast? }
  | .success _ _ | .failed => l

def Link.deliveries (headers : Nat → Header) (coins : Nat → LinkCoins) (l : Link) : Nat → Link
  | 0 => l
  | k + 1 => (Link.deliveries headers coins l k).deliver P cfg inst (headers k) (coins k)

/-- An answer is sent under the header of the command. -/
theorem command_edhoc_ok {coins : UeCoins} {h : Header} {wire answer : List UInt8} {u u' : Ue}
    (answered : receiveEdhoc P cfg.files coins wire u = (.ok answer, u')) :
    receivePduSessionAuthenticationCommand P cfg coins (h.command wire) u =
      (.complete h.psi h.pti h.id (.edhoc answer), u') := by
  unfold receivePduSessionAuthenticationCommand Header.command
  dsimp only
  rw [answered]

/-- A failure is reported under the header of the command. -/
theorem command_edhoc_error {coins : UeCoins} {h : Header} {wire : List UInt8} {c : SmCause}
    {u u' : Ue} (failed : receiveEdhoc P cfg.files coins wire u = (.error c, u')) :
    receivePduSessionAuthenticationCommand P cfg coins (h.command wire) u =
      (.status h.psi h.pti c, u') := by
  unfold receivePduSessionAuthenticationCommand Header.command
  dsimp only
  rw [failed]

/-- The headers are echoed and not looked at. -/
theorem Link.deliver_eq_step (h : Header) (coins : LinkCoins) (l : Link) :
    l.deliver P cfg inst h coins = l.step P cfg.files inst coins := by
  unfold Link.deliver Link.step
  cases flight : l.flight with
  | request wire =>
    dsimp only
    cases received : receiveEdhoc P cfg.files coins.ue wire l.ue with
    | mk out u =>
      cases out with
      | error c =>
        rw [command_edhoc_error P cfg received]
        rfl
      | ok answer =>
        rw [command_edhoc_ok P cfg received]
        exact congrArg (Link.mk u l.session _) (if_pos ⟨rfl, rfl, rfl⟩)
  | response wire => rfl
  | success recvKey sendKey => rfl
  | failed => rfl

/-- The headers make no difference to a conversation. -/
theorem Link.deliveries_eq_run (headers : Nat → Header) (coins : Nat → LinkCoins) (l : Link)
    (k : Nat) :
    Link.deliveries P cfg inst headers coins l k = Link.run P cfg.files inst coins l k := by
  induction k with
  | zero => rfl
  | succ k ih => rw [Link.deliveries, Link.run, ih, Link.deliver_eq_step]

end Deliver

/-! ### The first conversation -/

section Handshake

variable {P : Primitives UInt8} {cfg : UeConfig} {inst : Instance} {I R : Edhoc4.Creds UInt8}

/-- A conversation that has ended stays as it is. -/
theorem Link.run_of_ended {files : UeFiles} {coins : Nat → LinkCoins} {l : Link} {j k : Nat}
    (ended : ∀ c, (Link.run P files inst coins l j).step P files inst c =
      Link.run P files inst coins l j) (later : j ≤ k) :
    Link.run P files inst coins l k = Link.run P files inst coins l j := by
  induction later with
  | refl => rfl
  | step _ ih => rw [Link.run, ih, ended]

/-- A conversation that succeeds has failed at no time. -/
theorem Link.Succeeds.never_failed {files : UeFiles} {coins : Nat → LinkCoins} {l : Link} {k : Nat}
    (succeeds : (Link.run P files inst coins l k).Succeeds P coins) (j : Nat) :
    (Link.run P files inst coins l j).flight ≠ .failed := by
  intro failed
  have success := succeeds.flight
  by_cases before : j ≤ k
  · rw [Link.run_of_ended (j := j) (fun c => by rw [Link.step, failed]) before, failed] at success
    exact Flight.noConfusion success
  · rw [Link.run_of_ended (j := k) (fun c => by rw [Link.step, success]) (by omega),
      success] at failed
    exact Flight.noConfusion failed

/-- The handshake of a UE that has just been started with a new session of the server,
over fragments and NAS messages with any headers: neither side takes an error branch, and
it ends with EAP-Success. -/
theorem handshake_over_fragmentation (correct : P.Correct)
    (deployed : Deployed P cfg.files inst I R) (headers : Nat → Header)
    (coins : Nat → LinkCoins) :
    (∀ k, (Link.deliveries P cfg inst headers coins Link.start k).flight ≠ .failed) ∧
      ∃ k, (Link.deliveries P cfg inst headers coins Link.start k).Succeeds P coins := by
  obtain ⟨k, succeeds⟩ := deployed.lockstep correct coins
  refine ⟨fun j => ?_, k, ?_⟩
  · rw [Link.deliveries_eq_run]
    exact succeeds.never_failed j
  · rw [Link.deliveries_eq_run]
    exact succeeds

open Transparent in
/-- Credentials of both sides that fit each other, on the library on octets. -/
theorem demo_handshake_over_fragmentation :
    ∃ k, (Link.deliveries primitives demoConfig demoInstance (fun _ => ⟨1, 7, 0⟩)
      (fun _ => demoCoins) Link.start k).Succeeds primitives fun _ => demoCoins :=
  (handshake_over_fragmentation primitives_correct demo_deployed _ _).2

end Handshake

/-! ### A later conversation -/

/-- A start request that opens a new session of the server is answered with the first
fragment of a new message_1, from the loaded credentials and the randomness of this call,
and the conversation that follows succeeds. -/
structure StartsOver (P : Primitives UInt8) (cfg : UeConfig) (inst : Instance)
    (I R : Edhoc4.Creds UInt8) (headers : Nat → Header) (coins : Nat → LinkCoins) (u : Ue) :
    Prop where
  answered : ∃ m1 i u', Edhoc4.iMakeMsg1 P (coins 0).ue.msg1 Edhoc4.maxMsg
      (Edhoc4.initInitiator I R.kemPk) = (.ok m1, i) ∧
    receivePduSessionAuthenticationCommand P cfg (coins 0).ue ((headers 0).command [0x01]) u =
      (.complete (headers 0).psi (headers 0).pti (headers 0).id (.edhoc (frag m1 0)), u') ∧
    u'.ctx = i ∧ u'.round = .msg1Sent
  succeeds : ∃ k, (Link.deliveries P cfg inst headers coins (Link.startFrom u) k).Succeeds P coins

section StartOver

variable {P : Primitives UInt8} {cfg : UeConfig} {inst : Instance} {I R : Edhoc4.Creds UInt8}
  {headers : Nat → Header} {coins : Nat → LinkCoins} {u v : Ue}

/-- A UE with the credentials of its files is provisioned from any state. -/
theorem Deployed.provision_any (deployed : Deployed P cfg.files inst I R)
    (keys : u.Keys cfg.files) :
    ∃ v, ensureEdhocProvisioned cfg.files u = (.ok (), v) ∧ v.provisioned = true ∧ v.creds = I ∧
      v.peerPub = R.kemPk ∧ v.session = u.session := by
  rcases ensureEdhocProvisioned_cases cfg.files u with ⟨loaded, same⟩ | ⟨-, ⟨e, failed⟩, -⟩ |
    ⟨-, c, -, ⟨e, failed⟩, -⟩ | ⟨-, c, p, creds, pub, provisioned⟩
  · obtain ⟨creds, pub⟩ := keys.loaded loaded
    exact ⟨u, same, loaded, Except.ok.inj (creds.symm.trans deployed.ueCreds),
      Except.ok.inj (pub.symm.trans deployed.serverPub), rfl⟩
  · cases failed.symm.trans deployed.ueCreds
  · cases failed.symm.trans deployed.serverPub
  · exact ⟨_, provisioned, rfl, Except.ok.inj (creds.symm.trans deployed.ueCreds),
      Except.ok.inj (pub.symm.trans deployed.serverPub), rfl⟩

/-- In round -1 a UE is ready for a new conversation, whatever has happened before. -/
theorem Deployed.ready_of_idle (deployed : Deployed P cfg.files inst I R) (wf : u.Wf)
    (keys : u.Keys cfg.files) (round : u.round = .idle) :
    ∃ v, u.Ready cfg.files I R.kemPk v := by
  obtain ⟨v, provision, provisioned, creds, peerPub, session⟩ := deployed.provision_any keys
  have same := session
  simp only [Ue.session, Prod.mk.injEq] at same
  obtain ⟨-, round', -, -, -, -⟩ := same
  obtain ⟨outLen, outPos, idle⟩ := (wf.of_session session).idle (round'.trans round)
  exact ⟨v, provision, provisioned, creds, peerPub, round, round'.trans round, by omega, idle⟩

/-- From the idle state, a start request opens a new conversation that succeeds. -/
theorem Deployed.starts_over (correct : P.Correct) (deployed : Deployed P cfg.files inst I R)
    (wf : u.Wf) (keys : u.Keys cfg.files) (round : u.round = .idle) :
    StartsOver P cfg inst I R headers coins u := by
  obtain ⟨v, ready⟩ := deployed.ready_of_idle wf keys round
  obtain ⟨m1, i, made, -⟩ := Edhoc4.exchange_staged correct deployed.ueValid deployed.serverValid
    (coins 0).ue.msg1
  refine ⟨⟨m1, i, _, made, command_edhoc_ok P cfg (ready.receive_start made), rfl, rfl⟩, ?_⟩
  obtain ⟨k, succeeds⟩ := ready.lockstep correct deployed coins
  refine ⟨k, ?_⟩
  rw [Link.deliveries_eq_run]
  exact succeeds

/-- The first fragment of a message of several announces its length. -/
theorem frag_zero_flag {msg : List UInt8} (more : pieceLen msg 0 < msg.length) :
    hasFlag fragFlagLen ((frag msg 0).headD 0) = true := by
  have several : decide (pieceLen msg 0 < msg.length - 0) = true := decide_eq_true more
  show hasFlag fragFlagLen (fragFlags (decide _) (decide (0 = 0) && decide _)) = true
  rw [hasFlag_len_fragFlags, several]
  rfl

/-- No later one does. -/
theorem frag_later_flag {msg : List UInt8} {p : Nat} (later : 0 < p) :
    hasFlag fragFlagLen ((frag msg p).headD 0) = false := by
  show hasFlag fragFlagLen (fragFlags _ (decide (p = 0) && _)) = false
  rw [hasFlag_len_fragFlags, decide_eq_false later.ne']
  rfl

/-- Only the first fragment of a message carries the length. -/
theorem encodeEdhocFragment_flag {u : Ue} (left : u.outPos < u.outLen) (later : 0 < u.outPos) :
    hasFlag fragFlagLen ((encodeEdhocFragment u.out u.outLen u.outPos).1.headD 0) = false := by
  rw [encodeEdhocFragment, if_neg (by omega)]
  show hasFlag fragFlagLen (fragFlags _ (decide (u.outPos = 0) && _)) = false
  rw [hasFlag_len_fragFlags, decide_eq_false later.ne']
  rfl

/-- message_1 does not fit into one fragment. -/
theorem iMakeMsg1_several {coins : Edhoc4.Msg1Coins UInt8} {c c' : Edhoc4.Ctx UInt8}
    {m1 : List UInt8} (made : Edhoc4.iMakeMsg1 P coins Edhoc4.maxMsg c = (.ok m1, c')) :
    pieceLen m1 0 < m1.length := by
  have long : 2336 ≤ m1.length := (Edhoc4.iMakeMsg1_length made).1
  have cap := fragLen_le_cap 0 (m1.length - 0)
  rw [if_pos rfl] at cap
  have small : firstCap = 997 := rfl
  show fragLen 0 (m1.length - 0) < _
  omega

/-- In a later round no request is answered with a length field and leads to round 1. -/
theorem UeStep.not_fresh {coins : UeCoins} {data wire : List UInt8}
    (step : UeStep P coins data u (.ok wire) v) (wf : u.Wf) (later : u.round ≠ .idle)
    (round : v.round = .msg1Sent) : hasFlag fragFlagLen (wire.headD 0) = false := by
  cases step with
  | sends left => exact encodeEdhocFragment_flag left (wf.sending left)
  | started _ idle _ _ => exact absurd idle later
  | part _ _ _ => rfl
  | answered _ _ _ _ => cases round
  | completed _ _ _ _ => rfl
  | acknowledged _ _ _ => rfl

/-- A UE that starts over was idle. -/
theorem StartsOver.idle (deployed : Deployed P cfg.files inst I R) (wf : u.Wf)
    (keys : u.Keys cfg.files) (anew : StartsOver P cfg inst I R headers coins u) :
    u.round = .idle := by
  obtain ⟨m1, i, u', made, answered, -, round⟩ := anew.answered
  by_contra later
  obtain ⟨v, provision, -, -, -, session⟩ := deployed.provision_any keys
  have later' : v.round ≠ .idle := by
    have same := congrArg (fun t => t.2.1) session
    exact fun idle => later (same.symm.trans idle)
  have step := answerEdhoc_step P (coins 0).ue [0x01] v
  rw [← receiveEdhoc_eq_settle provision] at step
  generalize received : receiveEdhoc P cfg.files (coins 0).ue [0x01] u = out at step
  obtain ⟨out, w⟩ := out
  cases out with
  | error c =>
    rw [command_edhoc_error P cfg received] at answered
    cases (Prod.mk.inj answered).1
  | ok wire =>
    rw [command_edhoc_ok P cfg received] at answered
    obtain ⟨reply, rfl⟩ := Prod.mk.inj answered
    obtain rfl : wire = frag m1 0 := EapAnswer.edhoc.inj (UeReply.complete.inj reply).2.2.2
    have several : pieceLen m1 0 < m1.length := iMakeMsg1_several made
    have plain := UeStep.not_fresh step (wf.of_session session) later' round
    exact absurd (frag_zero_flag several) (ne_true_of_eq_false plain)

/-- Every run leaves the UE with the credentials of its files, or with none. -/
theorem Ue.after_keys (inputs : List NasInput) : (Ue.after P cfg inputs).Keys cfg.files :=
  Ue.after_induction (nasSmInit_keys _)
    (fun coins data _ here => receiveEdhoc_keys here coins data) inputs

/-- In every state of every run the UE starts over just in round -1. A conversation that
was completed or abandoned leaves it in another round. -/
theorem starts_over_iff (correct : P.Correct) (deployed : Deployed P cfg.files inst I R)
    (inputs : List NasInput) (headers : Nat → Header) (coins : Nat → LinkCoins) :
    StartsOver P cfg inst I R headers coins (Ue.after P cfg inputs) ↔
      (Ue.after P cfg inputs).round = .idle := by
  constructor
  · intro anew
    exact anew.idle deployed (Ue.after_wf P cfg inputs) (Ue.after_keys inputs)
  · intro round
    exact deployed.starts_over correct (Ue.after_wf P cfg inputs) (Ue.after_keys inputs) round

end StartOver

section Demo

open Transparent (primitives primitives_correct creds)

/-- A conversation that fails at an empty message_2, after message_1 has gone out in three
fragments. -/
def demoFailed : List NasInput :=
  [.command demoCoins.ue ⟨1, 7, some (0, .edhoc [0x01])⟩,
    .command demoCoins.ue ⟨1, 7, some (1, .edhoc [0x00])⟩,
    .command demoCoins.ue ⟨1, 7, some (2, .edhoc [0x00])⟩,
    .command demoCoins.ue ⟨1, 7, some (3, .edhoc [0x00])⟩]

/-- After it the UE starts over. -/
theorem demo_starts_over : StartsOver primitives demoConfig demoInstance (creds 1) (creds 2)
    (fun _ => ⟨1, 7, 0⟩) (fun _ => demoCoins) (Ue.after primitives demoConfig demoFailed) :=
  (starts_over_iff primitives_correct demo_deployed _ _ _).mpr (by decide +kernel)

/-- After a conversation that was abandoned with its first request the UE does not start
over. -/
theorem abandoned_does_not_start_over :
    ¬ StartsOver primitives demoConfig demoInstance (creds 1) (creds 2)
      (fun _ => ⟨1, 7, 0⟩) (fun _ => demoCoins)
      (Ue.after primitives demoConfig [.command demoCoins.ue ⟨1, 7, some (0, .edhoc [0x01])⟩]) := by
  intro anew
  obtain ⟨m1, i, made, -⟩ := Edhoc4.exchange_staged primitives_correct demo_deployed.ueValid
    demo_deployed.serverValid demoCoins.ue.msg1
  have state : Ue.after primitives demoConfig
      [.command demoCoins.ue ⟨1, 7, some (0, .edhoc [0x01])⟩] =
        { loadedUe (creds 1) (creds 2).kemPk with ctx := i }.queued .msg1Sent m1 :=
    congrArg Prod.snd (command_edhoc_ok primitives demoConfig (h := ⟨1, 7, 0⟩)
      (demo_deployed.ready.receive_start made))
  have round := anew.idle demo_deployed (Ue.after_wf _ _ _) (Ue.after_keys _)
  rw [state] at round
  cases round

end Demo

end EdhocAuth.Eap
