/-
Static keys over whole runs of one UE and the server.

A method-4 handshake leaves new static X-Wing keys in both contexts (EAD3 and EAD4).
Here the UE and any number of server sessions run in any interleaving, on any input,
with restarts of either program in between, and the question is under which static keys a
handshake runs that comes after a successful one. No step writes the provisioned
credentials, so `System.run_keys` answers it: always the provisioned keys.
-/

import EdhocAuth.Crypto.Transparent
import EdhocAuth.Eap.Lockstep

namespace EdhocAuth.Eap

open Proc

/-! ### Handlers leave the static keys alone -/

/-- The static keys a context runs under. -/
def statics (c : Edhoc4.Ctx UInt8) : Edhoc4.Creds UInt8 × Block UInt8 Edhoc4.xwingPk :=
  (c.self, c.peerKemPk)

section Handlers

variable {P : Primitives UInt8}

/-- No handler touches the static keys of its context. -/
theorem iMakeMsg1_keeps_statics (coins : Edhoc4.Msg1Coins UInt8) (cap : Nat) :
    Keeps statics (Edhoc4.iMakeMsg1 P coins cap) :=
  (Edhoc4.iMakeMsg1_frame coins cap).of_reads fun _ => rfl

theorem iHandleMsg2_keeps_statics (msg : List UInt8) (coins : Edhoc4.Msg3Coins UInt8) (cap : Nat) :
    Keeps statics (Edhoc4.iHandleMsg2 P msg coins cap) :=
  (Edhoc4.iHandleMsg2_frame msg coins cap).of_reads fun _ => rfl

theorem iHandleMsg4_keeps_statics (msg : List UInt8) :
    Keeps statics (Edhoc4.iHandleMsg4 P msg) :=
  (Edhoc4.iHandleMsg4_frame msg).of_reads fun _ => rfl

theorem rHandleMsg3_keeps_statics (msg : List UInt8) (coins : Edhoc4.KeyCoins UInt8) (cap : Nat) :
    Keeps statics (Edhoc4.rHandleMsg3 P msg coins cap) :=
  (Edhoc4.rHandleMsg3_frame msg coins cap).of_reads fun _ => rfl

/-- `r_handle_msg1` keeps them too, and takes ss_b from the front of message_1. -/
theorem rHandleMsg1_statics {msg m2 : List UInt8} {coins : Edhoc4.Msg2Coins UInt8} {cap : Nat}
    {c c' : Edhoc4.Ctx UInt8} (ok : Edhoc4.rHandleMsg1 P msg coins cap c = (.ok m2, c')) :
    statics c' = statics c ∧
      Edhoc4.xwingDecaps P (readBlock _ msg) c.self.kemSk = some c'.ssB := by
  obtain ⟨_, c₁, opened, _, -, -, made⟩ := Edhoc4.rHandleMsg1_eq_ok.mp ok
  obtain ⟨-, ctB, pkX, ct1, rfl, -, ssB, decaps, _, -, -, rfl⟩ :=
    Edhoc4.rHandleMsg1Open_eq_ok.mp opened
  obtain ⟨_, -, _, -, _, -, _, -, _, -, _, -, _, -, -, _, -, _, -, -, -, rfl⟩ :=
    Edhoc4.rMakeMsg2_eq_ok.mp made
  refine ⟨rfl, ?_⟩
  rw [readBlock, Block.read_toList_append]
  exact decaps

end Handlers

/-! ### The UE -/

def UeFiles.Hold (files : UeFiles) (keys : Edhoc4.Creds UInt8 × Block UInt8 Edhoc4.xwingPk) :
    Prop :=
  Edhoc4.credsLoad files.creds = .ok keys.1 ∧ Edhoc4.pubLoad files.pub = .ok keys.2

/-- The UE works with the keys in the files: those it has loaded, and in every round but
the first those its context runs under. -/
structure Ue.Keys (files : UeFiles) (u : Ue) : Prop where
  loaded : u.provisioned = true → files.Hold (u.creds, u.peerPub)
  used : u.round ≠ .idle → files.Hold (statics u.ctx)

def Ue.keys (u : Ue) : Bool × (Edhoc4.Creds UInt8 × Block UInt8 Edhoc4.xwingPk) ×
    (Edhoc4.Creds UInt8 × Block UInt8 Edhoc4.xwingPk) :=
  (u.provisioned, (u.creds, u.peerPub), statics u.ctx)

section Ue

variable {P : Primitives UInt8} {files : UeFiles} {u u' : Ue}

/-- The keys are as they should be if they are as they were. -/
theorem Ue.Keys.of_keys_eq (here : u.Keys files) (same : u'.keys = u.keys)
    (round : u'.round ≠ .idle → u.round ≠ .idle) : u'.Keys files := by
  obtain ⟨provisioned, members, context⟩ : u'.provisioned = u.provisioned ∧
      (u'.creds, u'.peerPub) = (u.creds, u.peerPub) ∧ statics u'.ctx = statics u.ctx := by
    simpa only [Ue.keys, Prod.mk.injEq] using same
  refine ⟨fun h => ?_, fun h => ?_⟩
  · rw [members]
    exact here.loaded (provisioned.symm.trans h)
  · rw [context]
    exact here.used (round h)

/-- A call that keeps the static keys of the context keeps the keys of the UE. -/
theorem onCtx_keeps_keys {α : Type} {x : Proc (Edhoc4.Ctx UInt8) Edhoc4.Err α}
    (keeps : Keeps statics x) : Keeps Ue.keys (onCtx x) := by
  intro u
  have kept := keeps u.ctx
  rw [onCtx]
  generalize x u.ctx = out at kept ⊢
  obtain ⟨_ | a, c⟩ := out
  · exact congrArg (fun k => (u.provisioned, (u.creds, u.peerPub), k)) kept
  · exact congrArg (fun k => (u.provisioned, (u.creds, u.peerPub), k)) kept

theorem nextFragment_keeps_keys (e : UeError) :
    Keeps (fun u : Ue => (u.keys, u.round)) (nextFragment e) :=
  .bind .load fun _ => .bind (.store fun _ => rfl) fun _ => .bind .require fun _ => .pure _

theorem queueMessage_keeps_keys (round : UeRound) (msg : List UInt8) :
    Keeps Ue.keys (queueMessage round msg) := by
  refine .bind (.store fun _ => rfl) fun _ => ?_
  exact fun u => congrArg Prod.fst (nextFragment_keeps_keys _ u)

/-- No message touches the keys of the UE. -/
theorem answerMessage_keeps_keys (coins : UeCoins) (msg : List UInt8) :
    Keeps Ue.keys (answerMessage P coins msg) := by
  refine .bind .load fun _ => .ite ?_ (.ite ?_ (.pure _))
  · exact .bind (onCtx_keeps_keys (iHandleMsg2_keeps_statics _ _ _)) fun m3 =>
      queueMessage_keeps_keys _ m3
  · exact .bind (onCtx_keeps_keys (iHandleMsg4_keeps_statics _)) fun _ =>
      .bind (.store fun _ => rfl) fun _ => .pure _

theorem parseOrReport_keeps_keys (data : List UInt8) : Keeps Ue.keys (parseOrReport data) := by
  intro u
  have kept := (parseEdhocWire_acts data).keeps (p := Ue.keys) (fun _ _ => rfl) u
  rw [parseOrReport]
  generalize parseEdhocWire data u = out at kept ⊢
  obtain ⟨_ | got, t⟩ := out
  · exact kept
  · exact kept

/-- A start puts the loaded keys into the context. -/
theorem answerStart_keys (here : u.Keys files) (provisioned : u.provisioned = true)
    (coins : UeCoins) (data : List UInt8) : (answerStart P coins data u).2.Keys files := by
  by_cases start : data = [0x01]
  · let fresh : Ue := { u with ctx := Edhoc4.initInitiator u.creds u.peerPub }
    have run : answerStart P coins data u =
        (onCtx (Edhoc4.iMakeMsg1 P coins.msg1 Edhoc4.maxMsg) >>= queueMessage .msg1Sent) fresh :=
      bind_ok (require_ok start)
    have kept : (answerStart P coins data u).2.keys = fresh.keys := by
      rw [run]
      exact Keeps.bind (onCtx_keeps_keys (iMakeMsg1_keeps_statics _ _))
        (queueMessage_keeps_keys _) fresh
    have loaded : fresh.Keys files := ⟨here.loaded, fun _ => here.loaded provisioned⟩
    have used : ({ fresh with round := .msg1Sent } : Ue).Keys files :=
      ⟨here.loaded, fun _ => here.loaded provisioned⟩
    exact used.of_keys_eq kept fun _ => UeRound.noConfusion
  · have refused : answerStart P coins data u =
        (.error (.cause .invalidMandatoryInformation), u) :=
      bind_error (require_error start)
    rw [refused]
    exact here

/-- No request installs other keys than those of the files. -/
theorem answerEdhoc_keys (here : u.Keys files) (provisioned : u.provisioned = true)
    (coins : UeCoins) (data : List UInt8) : (answerEdhoc P coins data u).2.Keys files := by
  show Ue.Keys files ((ite (u.outPos < u.outLen) _ _ : Proc Ue UeError (List UInt8)) u).2
  split
  · obtain ⟨keys, round⟩ := Prod.mk.inj (nextFragment_keeps_keys (.cause .insufficientResources) u)
    exact here.of_keys_eq keys fun h => by rwa [round] at h
  · split
    · exact answerStart_keys here provisioned coins data
    · next later =>
      refine here.of_keys_eq (Keeps.bind (parseOrReport_keeps_keys data) (fun got => ?_) u)
        fun _ => later
      cases got with
      | none => exact .pure _
      | some msg => exact answerMessage_keeps_keys coins msg

/-- Provisioning loads the files or leaves the UE unprovisioned. -/
theorem ensureEdhocProvisioned_keys (here : u.Keys files) :
    (ensureEdhocProvisioned files u).2.Keys files ∧
      ((ensureEdhocProvisioned files u).1 = .ok () →
        (ensureEdhocProvisioned files u).2.provisioned = true) := by
  rcases ensureEdhocProvisioned_cases files u with ⟨loaded, same⟩ | ⟨-, -, failed⟩ |
    ⟨fresh, c, -, -, failed⟩ | ⟨-, c, p, creds, pub, provisioned⟩
  · rw [same]
    exact ⟨here, fun _ => loaded⟩
  · rw [failed]
    exact ⟨here, fun h => nomatch h⟩
  · rw [failed]
    exact ⟨⟨fun h => absurd h fresh, here.used⟩, fun h => nomatch h⟩
  · rw [provisioned]
    exact ⟨⟨fun _ => ⟨creds, pub⟩, here.used⟩, fun _ => rfl⟩

/-- Whatever EAP-EDHOC request arrives, the UE keeps to the keys in the files. -/
theorem receiveEdhoc_keys (here : u.Keys files) (coins : UeCoins) (data : List UInt8) :
    (receiveEdhoc P files coins data u).2.Keys files := by
  obtain ⟨loaded, provisioned⟩ := ensureEdhocProvisioned_keys here
  rw [receiveEdhoc]
  generalize ensureEdhocProvisioned files u = out at loaded provisioned ⊢
  obtain ⟨_ | _, t⟩ := out
  · exact loaded
  · have answered := answerEdhoc_keys (P := P) loaded (provisioned rfl) coins data
    dsimp only
    generalize answerEdhoc P coins data t = out at answered ⊢
    obtain ⟨(c | e) | wire, t'⟩ := out
    · exact answered
    · -- the reset leaves the round in which nothing is promised of the context
      exact ⟨answered.loaded, fun h => absurd rfl h⟩
    · exact answered

/-- No command installs other keys than those of the files. -/
theorem command_keys {cfg : UeConfig} (here : u.Keys cfg.files) (coins : UeCoins) (cmd : Command) :
    (receivePduSessionAuthenticationCommand P cfg coins cmd u).2.Keys cfg.files := by
  rw [receivePduSessionAuthenticationCommand]
  rcases cmd.eap with _ | ⟨id, data | _ | _⟩
  · exact here
  · have received := receiveEdhoc_keys (P := P) here coins data
    dsimp only
    generalize receiveEdhoc P cfg.files coins data u = out at received ⊢
    obtain ⟨_ | wire, t⟩ := out
    · exact received
    · exact received
  · exact here
  · exact here

end Ue

/-! ### The server -/

def Instance.statics (inst : Instance) : Edhoc4.Creds UInt8 × Block UInt8 Edhoc4.xwingPk :=
  (inst.server, inst.uePub)

/-- After message_1 of method 4 a session runs under the configured keys. -/
def Session.Keys (inst : Instance) (s : Session) : Prop :=
  s.mode = .pqc → s.round ≠ .startSent → Eap.statics s.ctx = inst.statics

/-- What an event says about the keys of the session that is left behind: message_1 and
EAP-Success of method 4 come with the configured keys, and ss_b is what the configured
secret key makes of message_1. -/
def Event.Keys (P : Primitives UInt8) (inst : Instance) (s : Session) : Event → Prop
  | .msg1 .pqc m1 _ => Eap.statics s.ctx = inst.statics ∧
      Edhoc4.xwingDecaps P (readBlock _ m1) inst.server.kemSk = some s.ctx.ssB
  | .reply (.success _ _) => s.mode = .pqc → Eap.statics s.ctx = inst.statics
  | _ => True

section Server

variable {P : Primitives UInt8} {inst : Instance} {s : Session}

theorem Session.Keys.of_core_eq {t : Session} (here : s.Keys inst) (core : t.core = s.core) :
    t.Keys inst := by
  obtain ⟨ctx, -, mode, round⟩ := Session.core_eq.mp core
  unfold Session.Keys
  rw [ctx, mode, round]
  exact here

/-- A call keeps the keys of its session, and its events tell of no others. -/
def KeepsKeys (P : Primitives UInt8) (inst : Instance) (out : Session × List Event) : Prop :=
  out.1.Keys inst ∧ ∀ e ∈ out.2, e.Keys P inst out.1

/-- Queueing an answer makes no difference to the keys. -/
theorem sendAndAdvance_keys {e : Event} {round : Round} {out : List UInt8} (idle : s.pending = [])
    (statics : s.mode = .pqc → Eap.statics s.ctx = inst.statics)
    (event : ∀ t : Session, t.ctx = s.ctx → e.Keys P inst t) :
    KeepsKeys P inst ((sendAndAdvance round out s).1, e :: (sendAndAdvance round out s).2) := by
  rcases sendAndAdvance_cases round out idle with ⟨wire, t, sent, -, ctx, mode, -⟩ | sent
  · rw [sent]
    refine ⟨fun pqc _ => ?_, fun x mem => ?_⟩
    · rw [ctx]
      exact statics (mode.symm.trans pqc)
    · rcases List.mem_cons.mp mem with rfl | mem
      · exact event t ctx
      · obtain rfl := List.mem_singleton.mp mem
        trivial
  · rw [sent]
    refine ⟨fun pqc _ => statics pqc, fun x mem => ?_⟩
    rcases List.mem_cons.mp mem with rfl | mem
    · exact event s rfl
    · obtain rfl := List.mem_singleton.mp mem
      trivial

theorem failure_keys (here : s.Keys inst) : KeepsKeys P inst (s, [.reply .failure]) := by
  refine ⟨here, fun e mem => ?_⟩
  obtain rfl := List.mem_singleton.mp mem
  trivial

/-- Message_1 starts a context with the keys of the instance. -/
theorem processMsg1_keys (round : s.round = .startSent) (idle : s.pending = []) (coins : Coins)
    (msg : List UInt8) : KeepsKeys P inst (processMsg1 P inst coins msg s) := by
  -- in round 0 nothing is promised of the context
  have any {t : Session} (same : t.round = s.round) : t.Keys inst :=
    fun _ later => absurd (same.trans round) later
  unfold processMsg1
  dsimp only
  split
  · next classical =>
    split
    · split
      · exact sendAndAdvance_keys (s := { s with mode := decideMode s.mode msg, ctx03 := _ }) idle
          (fun pqc => nomatch classical.symm.trans pqc) fun _ _ => trivial
      · exact failure_keys (any rfl)
    · exact failure_keys (any rfl)
  · split
    · next m2 c handled =>
      obtain ⟨statics, decaps⟩ := rHandleMsg1_statics handled
      refine sendAndAdvance_keys (s := { s with mode := decideMode s.mode msg, ctx := c }) idle
        (fun _ => statics) fun t ctx => ?_
      show Eap.statics t.ctx = _ ∧ _ = some t.ctx.ssB
      rw [ctx]
      exact ⟨statics, decaps⟩
    · exact failure_keys (any rfl)

theorem processMsg3_keys (here : s.Keys inst) (round : s.round = .msg2Sent) (idle : s.pending = [])
    (coins : Coins) (msg : List UInt8) : KeepsKeys P inst (processMsg3 P coins msg s) := by
  unfold processMsg3
  split
  · next classical =>
    -- the context of method 4 plays no part in a classical session
    have other {t : Session} (same : t.mode = s.mode) : ¬ t.mode = .pqc :=
      fun pqc => nomatch classical.symm.trans (same.symm.trans pqc)
    have any {t : Session} (same : t.mode = s.mode) : t.Keys inst :=
      fun pqc => (other same pqc).elim
    split
    · split
      · refine ⟨any rfl, fun e mem => ?_⟩
        rcases List.mem_cons.mp mem with rfl | mem
        · trivial
        · obtain rfl := List.mem_singleton.mp mem
          exact fun pqc => (other rfl pqc).elim
      · refine ⟨any rfl, fun e mem => ?_⟩
        rcases List.mem_cons.mp mem with rfl | mem
        · trivial
        · obtain rfl := List.mem_singleton.mp mem
          trivial
    · exact failure_keys (any rfl)
  · have later : s.round ≠ .startSent := by
      rw [round]
      exact Round.noConfusion
    have kept := rHandleMsg3_keeps_statics (P := P) msg coins.msg4 Edhoc4.maxMsg s.ctx
    split
    · next m4 c handled =>
      rw [handled] at kept
      exact sendAndAdvance_keys (s := { s with ctx := c }) idle
        (fun pqc => kept.trans (here pqc later)) fun _ _ => trivial
    · next e c refused =>
      rw [refused] at kept
      exact failure_keys fun pqc _ => kept.trans (here pqc later)

theorem processAck_keys (here : s.Keys inst) (round : s.round = .msg4Sent) (msg : List UInt8) :
    KeepsKeys P inst (processAck msg s) := by
  have later : s.round ≠ .startSent := by
    rw [round]
    exact Round.noConfusion
  unfold processAck
  split
  · exact failure_keys here
  · split
    · refine ⟨here, fun e mem => ?_⟩
      obtain rfl := List.mem_singleton.mp mem
      exact fun pqc => here pqc later
    · exact failure_keys here

/-- Whatever response arrives, a session keeps to the configured keys. -/
theorem modProcess_keys (here : s.Keys inst) (r : Response) :
    KeepsKeys P inst (modProcess P inst r s) := by
  rcases modProcess_cases P inst r s with
    ⟨t, reply, moved, core, quiet, -⟩ | ⟨msg, t, processed, core, idle, -⟩
  · rw [moved]
    refine ⟨here.of_core_eq core, fun e mem => ?_⟩
    obtain rfl := List.mem_singleton.mp mem
    cases reply with
    | success recvKey sendKey => exact (quiet recvKey sendKey rfl).elim
    | _ => trivial
  · rw [processed]
    have whole : KeepsKeys P inst (processMessage P inst r.coins msg t) := by
      unfold processMessage
      cases round : t.round with
      | startSent => exact processMsg1_keys round idle r.coins msg
      | msg2Sent => exact processMsg3_keys (here.of_core_eq core) round idle r.coins msg
      | msg4Sent => exact processAck_keys (here.of_core_eq core) round msg
    refine ⟨whole.1, fun e mem => ?_⟩
    rcases List.mem_cons.mp mem with rfl | mem
    · trivial
    · exact whole.2 e mem

end Server

/-! ### The system -/

/-- One UE and the sessions of the server. -/
structure System where
  ue : Ue
  sessions : List Session
  notes : List Note

/-- What can happen, in any order and on any input. -/
inductive Action where
  | command (coins : UeCoins) (cmd : Command)
  /-- The UE process is started again. -/
  | restart
  /-- The server process is started again with the same configuration. -/
  | restartServer
  /-- `mod_session_init` for a new EAP conversation. -/
  | connect
  | respond (n : Nat) (r : Response)

def System.boot : System := ⟨nasSmInit, [], []⟩

section System

variable (P : Primitives UInt8) (cfg : UeConfig) (inst : Instance)

def System.step (st : System) : Action → System
  | .command coins cmd =>
    let u := (receivePduSessionAuthenticationCommand P cfg coins cmd st.ue).2
    { st with ue := u, notes := st.notes ++ ueNotes st.ue u }
  | .restart => { st with ue := nasSmInit }
  | .restartServer => { st with sessions := [] }
  | .connect => { st with sessions := st.sessions ++ [modSessionInit] }
  | .respond n r =>
    match st.sessions[n]? with
    | none => st
    | some s =>
      let out := modProcess P inst r s
      { st with sessions := st.sessions.set n out.1, notes := st.notes ++ serverNotes out.1 out.2 }

def System.run (actions : List Action) (st : System) : System :=
  actions.foldl (System.step P cfg inst) st

end System

/-- What a note says about the keys in use. -/
def Note.Keys (P : Primitives UInt8) (files : UeFiles) (inst : Instance) : Note → Prop
  | .started _ ctx => files.Hold (statics ctx)
  | .completed ctx => files.Hold (statics ctx)
  | .served e s => e.Keys P inst s

/-- Everything in the system keeps to the keys it was provisioned with. -/
structure System.Keys (P : Primitives UInt8) (files : UeFiles) (inst : Instance) (st : System) :
    Prop where
  ue : st.ue.Keys files
  sessions : ∀ s ∈ st.sessions, s.Keys inst
  notes : ∀ n ∈ st.notes, n.Keys P files inst

section Runs

variable {P : Primitives UInt8} {cfg : UeConfig} {inst : Instance} {st : System}

/-- What the UE notes has the keys of its files. -/
theorem ueNotes_keys {files : UeFiles} {before after : Ue} (here : after.Keys files) {n : Note}
    (mem : n ∈ ueNotes before after) : n.Keys P files inst := by
  unfold ueNotes at mem
  split at mem
  · next start =>
    obtain rfl := List.mem_singleton.mp mem
    exact here.used fun idle => nomatch idle.symm.trans start.2
  · split at mem
    · next complete =>
      obtain rfl := List.mem_singleton.mp mem
      exact here.used fun idle => nomatch idle.symm.trans complete.2
    · cases mem

theorem nasSmInit_keys (files : UeFiles) : nasSmInit.Keys files :=
  ⟨nofun, fun round => absurd rfl round⟩

/-- One action keeps the system to its keys. -/
theorem System.step_keys (here : st.Keys P cfg.files inst) (a : Action) :
    (st.step P cfg inst a).Keys P cfg.files inst := by
  cases a with
  | command coins cmd =>
    have ue := command_keys (P := P) here.ue coins cmd
    refine ⟨ue, here.sessions, fun n mem => ?_⟩
    rcases List.mem_append.mp mem with mem | mem
    · exact here.notes n mem
    · exact ueNotes_keys ue mem
  | restart => exact ⟨nasSmInit_keys _, here.sessions, here.notes⟩
  | restartServer => exact ⟨here.ue, fun _ mem => (List.not_mem_nil mem).elim, here.notes⟩
  | connect =>
    refine ⟨here.ue, fun s mem => ?_, here.notes⟩
    rcases List.mem_append.mp mem with mem | mem
    · exact here.sessions s mem
    · obtain rfl := List.mem_singleton.mp mem
      exact fun _ later => absurd rfl later
  | respond n r =>
    unfold System.step
    dsimp only
    cases found : st.sessions[n]? with
    | none => exact here
    | some s =>
      obtain ⟨kept, events⟩ :=
        modProcess_keys (P := P) (here.sessions s (List.mem_of_getElem? found)) r
      refine ⟨here.ue, fun t mem => ?_, fun note mem => ?_⟩
      · rcases List.mem_or_eq_of_mem_set mem with mem | rfl
        · exact here.sessions t mem
        · exact kept
      · rcases List.mem_append.mp mem with mem | mem
        · exact here.notes note mem
        · obtain ⟨e, happened, rfl⟩ := List.mem_map.mp mem
          exact events e happened

/-- So does every run. -/
theorem System.run_keys (actions : List Action) (here : st.Keys P cfg.files inst) :
    (st.run P cfg inst actions).Keys P cfg.files inst := by
  induction actions generalizing st with
  | nil => exact here
  | cons a actions ih => exact ih (System.step_keys here a)

/-- All keys are as they should be at the start. -/
theorem System.boot_keys : System.boot.Keys P cfg.files inst :=
  ⟨nasSmInit_keys _, fun _ mem => (List.not_mem_nil mem).elim,
    fun _ mem => (List.not_mem_nil mem).elim⟩

end Runs

/-! ### Rotation -/

/-- A method-4 handshake has begun: the UE sent `m1` from context `i`, and the server
answered it in context `r`. -/
structure Begun (notes : List Note) (m1 : List UInt8) (i r : Edhoc4.Ctx UInt8) : Prop where
  ue : .started m1 i ∈ notes
  server : ∃ m2 s, .served (.msg1 .pqc m1 m2) s ∈ notes ∧ s.ctx = r

/-- A method-4 handshake was successful: the UE accepted message_4 in context `i`, and the
server ended with EAP-Success in context `r`. -/
structure Finished (notes : List Note) (i r : Edhoc4.Ctx UInt8) : Prop where
  ue : .completed i ∈ notes
  server : ∃ recvKey sendKey s, .served (.reply (.success recvKey sendKey)) s ∈ notes ∧
    s.mode = .pqc ∧ s.ctx = r

/-- The contexts `i'` and `r'` run under the static keys that the handshake with the
contexts `i` and `r` exchanged in EAD3 and EAD4. -/
structure RunsUnderExchanged (i r i' r' : Edhoc4.Ctx UInt8) : Prop where
  ueSecret : i'.self.kemSk = i.newSk
  uePeer : i'.peerKemPk = i.peerNewPk
  serverSecret : r'.self.kemSk = r.newSk
  serverPeer : r'.peerKemPk = r.peerNewPk

/-- The least that keeps the holder of the static secrets of `i` and `r` from ss_b of the
next handshake: neither of them decapsulates the ciphertext at the front of its message_1. -/
def SecretsRetired (P : Primitives UInt8) (i r : Edhoc4.Ctx UInt8) (m1 : List UInt8)
    (r' : Edhoc4.Ctx UInt8) : Prop :=
  ∀ sk, sk = i.self.kemSk ∨ sk = r.self.kemSk →
    Edhoc4.xwingDecaps P (readBlock _ m1) sk ≠ some r'.ssB

/-- The rotation of the handshake with the contexts `i` and `r` takes effect in the one
that begins with `m1`. -/
structure RotationTakesEffect (P : Primitives UInt8) (i r : Edhoc4.Ctx UInt8) (m1 : List UInt8)
    (i' r' : Edhoc4.Ctx UInt8) : Prop where
  keys : RunsUnderExchanged i r i' r'
  secrets : SecretsRetired P i r m1 r'

section Rotation

variable {P : Primitives UInt8} {cfg : UeConfig} {inst : Instance}

/-- The files hold one pair of keys. -/
theorem UeFiles.Hold.unique {files : UeFiles}
    {a b : Edhoc4.Creds UInt8 × Block UInt8 Edhoc4.xwingPk} (first : files.Hold a)
    (second : files.Hold b) : a = b := by
  obtain ⟨creds, pub⟩ := first
  obtain ⟨creds', pub'⟩ := second
  exact Prod.ext (Except.ok.inj (creds.symm.trans creds')) (Except.ok.inj (pub.symm.trans pub'))

/-- A later handshake runs under the static keys of the earlier one, and the earlier
static secret of the server gives its ss_b. -/
theorem later_statics {st : System} (keys : st.Keys P cfg.files inst)
    {past future : List Note} (split : st.notes = past ++ future) {i r i' r' : Edhoc4.Ctx UInt8}
    {m1 : List UInt8} (finished : Finished past i r) (begun : Begun future m1 i' r') :
    statics i' = statics i ∧ statics r' = statics r ∧
      Edhoc4.xwingDecaps P (readBlock _ m1) r.self.kemSk = some r'.ssB := by
  have past_keys {n : Note} (mem : n ∈ past) : n.Keys P cfg.files inst :=
    keys.notes n (split ▸ List.mem_append_left _ mem)
  have future_keys {n : Note} (mem : n ∈ future) : n.Keys P cfg.files inst :=
    keys.notes n (split ▸ List.mem_append_right _ mem)
  obtain ⟨recvKey, sendKey, s, success, mode, rfl⟩ := finished.server
  obtain ⟨m2, s', answered, rfl⟩ := begun.server
  have configured : statics s.ctx = inst.statics := past_keys success mode
  obtain ⟨same, decaps⟩ : statics s'.ctx = inst.statics ∧
      Edhoc4.xwingDecaps P (readBlock _ m1) inst.server.kemSk = some s'.ctx.ssB :=
    future_keys answered
  have server : s.ctx.self = inst.server := congrArg Prod.fst configured
  refine ⟨?_, same.trans configured.symm, ?_⟩
  · have first : cfg.files.Hold (statics i) := past_keys finished.ue
    have second : cfg.files.Hold (statics i') := future_keys begun.ue
    exact second.unique first
  · rw [server]
    exact decaps

/-- In no run of the two programs does the rotation take effect. The handshake after a
successful one runs under the exchanged keys just when these are the keys it had already,
and in every case the earlier static secret of the server gives its ss_b. -/
theorem rotation_never_takes_effect (P : Primitives UInt8) (cfg : UeConfig) (inst : Instance)
    (actions : List Action) {past future : List Note}
    (split : (System.boot.run P cfg inst actions).notes = past ++ future)
    {i r i' r' : Edhoc4.Ctx UInt8} {m1 : List UInt8} (finished : Finished past i r)
    (begun : Begun future m1 i' r') :
    ¬ RotationTakesEffect P i r m1 i' r' ∧
      (RunsUnderExchanged i r i' r' ↔ RunsUnderExchanged i r i r) := by
  obtain ⟨ue, server, decaps⟩ :=
    later_statics (System.run_keys actions System.boot_keys) split finished begun
  obtain ⟨ueSelf, uePeer⟩ := Prod.mk.inj ue
  obtain ⟨serverSelf, serverPeer⟩ := Prod.mk.inj server
  refine ⟨fun effect => effect.secrets _ (.inr rfl) decaps, fun h => ?_, fun h => ?_⟩
  · exact ⟨ueSelf ▸ h.ueSecret, uePeer ▸ h.uePeer, serverSelf ▸ h.serverSecret,
      serverPeer ▸ h.serverPeer⟩
  · exact ⟨ueSelf.symm ▸ h.ueSecret, uePeer.symm ▸ h.uePeer, serverSelf.symm ▸ h.serverSecret,
      serverPeer.symm ▸ h.serverPeer⟩

end Rotation

/-! ### A run with two handshakes -/

/-- The link `l` is part of the system: its UE, its session `n`, and the notes after
`before`. -/
structure System.Hosts (n : Nat) (before : List Note) (l : Link) (st : System) : Prop where
  ue : st.ue = l.ue
  session : st.sessions[n]? = some l.session
  notes : st.notes = before ++ l.notes

section Hosts

variable (P : Primitives UInt8) (cfg : UeConfig) (inst : Instance)
variable {st : System} {n : Nat} {before : List Note} {l : Link}

/-- A command to the UE is a step of the conversation that the system hosts. -/
theorem System.Hosts.command (hosts : st.Hosts n before l) (coins : UeCoins) (wire : List UInt8)
    (flight : Flight) :
    (st.step P cfg inst (.command coins ⟨0, 0, some (0, .edhoc wire)⟩)).Hosts n before
      { l with ue := (receiveEdhoc P cfg.files coins wire l.ue).2,
               notes := l.notes ++ ueNotes l.ue (receiveEdhoc P cfg.files coins wire l.ue).2,
               flight := flight } := by
  have ue : (receivePduSessionAuthenticationCommand P cfg coins ⟨0, 0, some (0, .edhoc wire)⟩
      st.ue).2 = (receiveEdhoc P cfg.files coins wire l.ue).2 := by
    rw [hosts.ue, receivePduSessionAuthenticationCommand]
    dsimp only
    generalize receiveEdhoc P cfg.files coins wire l.ue = out
    obtain ⟨_ | answer, u⟩ := out <;> rfl
  refine ⟨ue, hosts.session, ?_⟩
  show st.notes ++ ueNotes st.ue _ = before ++ (l.notes ++ _)
  rw [ue, hosts.ue, hosts.notes, List.append_assoc]

/-- A response to the server is a step of the conversation that the system hosts. -/
theorem System.Hosts.respond (hosts : st.Hosts n before l) (r : Response) (flight : Flight) :
    (st.step P cfg inst (.respond n r)).Hosts n before
      { l with session := (modProcess P inst r l.session).1,
               notes := l.notes ++ serverNotes (modProcess P inst r l.session).1
                 (modProcess P inst r l.session).2,
               flight := flight } := by
  obtain ⟨inside, -⟩ := List.getElem?_eq_some_iff.mp hosts.session
  unfold System.step
  dsimp only
  rw [hosts.session]
  refine ⟨hosts.ue, List.getElem?_set_self inside, ?_⟩
  show st.notes ++ _ = before ++ (l.notes ++ _)
  rw [hosts.notes, List.append_assoc]

/-- Whatever is delivered on the link can be delivered in the system. -/
theorem System.Hosts.deliver (hosts : st.Hosts n before l) (c : LinkCoins) :
    ∃ actions, (st.run P cfg inst actions).Hosts n before (l.step P cfg.files inst c) := by
  unfold Link.step
  split
  · next wire _ =>
    refine ⟨[.command c.ue ⟨0, 0, some (0, .edhoc wire)⟩], ?_⟩
    have delivered := hosts.command P cfg inst c.ue wire
    generalize receiveEdhoc P cfg.files c.ue wire l.ue = out at delivered ⊢
    obtain ⟨_ | answer, u⟩ := out
    · exact delivered .failed
    · exact delivered (.response answer)
  · next wire _ => exact ⟨[.respond n ⟨wire, c.server⟩], hosts.respond P cfg inst _ _⟩
  · exact ⟨[], hosts⟩
  · exact ⟨[], hosts⟩

/-- The system can run any conversation of a link. -/
theorem System.Hosts.run (hosts : st.Hosts n before l) (coins : Nat → LinkCoins) (k : Nat) :
    ∃ actions, (st.run P cfg inst actions).Hosts n before
      (Link.run P cfg.files inst coins l k) := by
  induction k with
  | zero => exact ⟨[], hosts⟩
  | succ k ih =>
    obtain ⟨first, reached⟩ := ih
    obtain ⟨second, next⟩ := reached.deliver P cfg inst (coins k)
    refine ⟨first ++ second, ?_⟩
    rw [System.run, List.foldl_append]
    exact next

variable {P cfg inst}

/-- From every state, a restarted UE and a new session can go through a handshake. -/
theorem Deployed.handshake {I R : Edhoc4.Creds UInt8} (correct : P.Correct)
    (deployed : Deployed P cfg.files inst I R) (coins : Nat → LinkCoins) (st : System) :
    ∃ (actions : List Action) (l : Link),
      (st.run P cfg inst actions).notes = st.notes ++ l.notes ∧ l.Succeeds P coins := by
  obtain ⟨k, succeeds⟩ := deployed.lockstep correct coins
  let ready : System := { st with ue := nasSmInit, sessions := st.sessions ++ [modSessionInit] }
  have hosts : ready.Hosts st.sessions.length st.notes Link.start :=
    ⟨rfl, List.getElem?_concat_length, (List.append_nil _).symm⟩
  obtain ⟨actions, reached⟩ := hosts.run P cfg inst coins k
  exact ⟨.restart :: .connect :: actions, _, reached.notes, succeeds⟩

/-- A conversation that succeeds has a finished handshake in its notes. -/
theorem Link.Succeeds.finished {coins : Nat → LinkCoins} (succeeds : l.Succeeds P coins) :
    Finished l.notes l.ue.ctx l.session.ctx := by
  obtain ⟨recvKey, sendKey, success⟩ := succeeds.success
  exact ⟨succeeds.completed, recvKey, sendKey, l.session, success, succeeds.mode, rfl⟩

/-- A conversation that succeeds has its message_1 in its notes. -/
theorem Link.Succeeds.begun {coins : Nat → LinkCoins} (succeeds : l.Succeeds P coins) :
    ∃ m1 i r, Begun l.notes m1 i r := by
  obtain ⟨m1, i, m2, s, started, answered⟩ := succeeds.started
  exact ⟨m1, i, s.ctx, started, m2, s, answered, rfl⟩

/-- Deployed parties can go through one handshake after the other. -/
theorem Deployed.two_handshakes {I R : Edhoc4.Creds UInt8} (correct : P.Correct)
    (deployed : Deployed P cfg.files inst I R) (coins : Nat → LinkCoins) :
    ∃ (actions : List Action) (first second : Link),
      (System.boot.run P cfg inst actions).notes = first.notes ++ second.notes ∧
      first.Succeeds P coins ∧ second.Succeeds P coins := by
  obtain ⟨actions, first, notes, succeeds⟩ := deployed.handshake correct coins System.boot
  obtain ⟨actions', second, notes', succeeds'⟩ :=
    deployed.handshake correct coins (System.boot.run P cfg inst actions)
  refine ⟨actions ++ actions', first, second, ?_, succeeds, succeeds'⟩
  rw [System.run, List.foldl_append]
  exact notes'.trans (by rw [notes]; rfl)

end Hosts

/-! ### A deployment -/

section Demo

open Transparent (primitives creds)

theorem creds_valid (b : UInt8) : (creds b).Valid primitives :=
  ⟨⟨⟨Block.fill 64 b, Block.fill 32 b⟩, rfl⟩, ⟨Block.fill 32 b, rfl⟩⟩

/-- A UE with credentials from the octet 1 and a server with credentials from the octet 2. -/
def demoConfig : UeConfig where
  files := ⟨some (Edhoc4.credsSave (creds 1)), some (Edhoc4.pubSave (creds 2))⟩
  supi := none

def demoInstance : Instance where
  server := creds 2
  uePub := (creds 1).kemPk
  server03 := ⟨zeros _, zeros _, zeros _, zeros _, zeros _⟩
  ue03Pub := ⟨zeros _, zeros _⟩
  have03 := false

/-- Both sides hold each other's credentials. -/
theorem demo_deployed : Deployed primitives demoConfig.files demoInstance (creds 1) (creds 2) where
  ueCreds := Edhoc4.credsLoad_credsSave _
  serverPub := Edhoc4.pubLoad_pubSave _
  server := rfl
  uePub := rfl
  ueValid := creds_valid 1
  serverValid := creds_valid 2

def demoCoins : LinkCoins where
  ue := ⟨Edhoc4.RunCoins.zero.msg1, Edhoc4.RunCoins.zero.msg3⟩
  server := ⟨zeros _, Edhoc4.RunCoins.zero.msg2, Edhoc4.RunCoins.zero.msg4⟩

/-- The UE's next static secret is not the one in its file. -/
theorem demo_newSk_ne {pk : Block UInt8 Edhoc4.xwingPk} {sk : Block UInt8 Edhoc4.xwingSk}
    (pair : Edhoc4.xwingKeypair primitives demoCoins.ue.msg3.new = some (pk, sk)) :
    (creds 1).kemSk ≠ sk := by
  have zero : Block.cat (Transparent.pad 2336 (zeros 64)) (zeros 32) = sk :=
    congrArg Prod.snd (Option.some.inj pair)
  rw [← zero]
  intro same
  have scalars := (Block.cat_inj same).2
  exact absurd (congrArg List.Vector.toList scalars) (by decide)

/-- Two handshakes in a row on the library on octets. -/
theorem demo_rotation_never_takes_effect :
    ∃ (actions : List Action) (past future : List Note) (i r i' r' : Edhoc4.Ctx UInt8)
      (m1 : List UInt8),
      (System.boot.run primitives demoConfig demoInstance actions).notes = past ++ future ∧
      Finished past i r ∧ Begun future m1 i' r' ∧
      ¬ RotationTakesEffect primitives i r m1 i' r' ∧
      (RunsUnderExchanged i r i' r' ↔ RunsUnderExchanged i r i r) := by
  obtain ⟨actions, first, second, notes, succeeds, succeeds'⟩ :=
    demo_deployed.two_handshakes Transparent.primitives_correct fun _ => demoCoins
  obtain ⟨m1, i', r', begun⟩ := succeeds'.begun
  exact ⟨actions, _, _, _, _, _, _, _, notes, succeeds.finished, begun,
    rotation_never_takes_effect _ _ _ actions notes succeeds.finished begun⟩

/-- Two successful handshakes with a restart of the UE in between: the second one does not
run under the exchanged keys, and the static secrets of the first are not retired. -/
theorem second_handshake_under_old_keys :
    ∃ (actions : List Action) (past future : List Note) (i r i' r' : Edhoc4.Ctx UInt8)
      (m1 : List UInt8),
      (System.boot.run primitives demoConfig demoInstance actions).notes = past ++ future ∧
      Finished past i r ∧ Begun future m1 i' r' ∧ (∃ i'' r'', Finished future i'' r'') ∧
      ¬ RunsUnderExchanged i r i' r' ∧ ¬ SecretsRetired primitives i r m1 r' := by
  obtain ⟨actions, first, second, notes, succeeds, succeeds'⟩ :=
    demo_deployed.two_handshakes Transparent.primitives_correct fun _ => demoCoins
  obtain ⟨m1, i', r', begun⟩ := succeeds'.begun
  have keys : (System.boot.run primitives demoConfig demoInstance actions).Keys primitives
      demoConfig.files demoInstance := System.run_keys actions System.boot_keys
  obtain ⟨-, -, decaps⟩ := later_statics keys notes succeeds.finished begun
  refine ⟨actions, _, _, _, _, _, _, _, notes, succeeds.finished, begun, ⟨_, _, succeeds'.finished⟩,
    fun rotated => ?_, fun retired => retired _ (.inr rfl) decaps⟩
  have held : demoConfig.files.Hold (statics i') :=
    keys.notes (.started m1 i') (notes ▸ List.mem_append_right _ begun.ue)
  have provisioned : creds 1 = i'.self := Except.ok.inj (demo_deployed.ueCreds.symm.trans held.1)
  obtain ⟨_, pair⟩ := succeeds.ueNew
  apply demo_newSk_ne pair
  rw [provisioned]
  exact rotated.ueSecret

end Demo

end EdhocAuth.Eap
