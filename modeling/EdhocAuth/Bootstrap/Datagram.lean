/-
The split of the datagram of the first contact.

The UE writes the number of characters of the session id, and the server takes it for a number of
octets. `first_contact_iff`: the server reads back what the UE has framed just when every character
of the session id is ASCII.
-/

import EdhocAuth.Bootstrap.AppServer

namespace EdhocAuth.Bootstrap

open Octets

def IsAscii (s : String) : Prop := ∀ c ∈ s.toList, c.val ≤ 127

/-! ### Characters and octets -/

theorem encode_eq_flatMap (s : String) : encode s = s.toList.flatMap String.utf8EncodeChar := by
  rw [encode, ← String.utf8Encode_toList, List.utf8Encode]
  simp

/-- Every character takes its number of octets. -/
theorem length_encode (s : String) : (encode s).length = (s.toList.map Char.utf8Size).sum := by
  rw [encode_eq_flatMap, List.length_flatMap]
  simp

/-- A character takes an octet at least, and one octet just if it is ASCII. -/
theorem sum_utf8Size (cs : List Char) :
    cs.length ≤ (cs.map Char.utf8Size).sum ∧
      ((cs.map Char.utf8Size).sum = cs.length ↔ ∀ c ∈ cs, c.val ≤ 127) := by
  induction cs with
  | nil => simp
  | cons c cs ih =>
    have one := Char.utf8Size_pos c
    rw [List.forall_mem_cons, ← ih.2, ← Char.utf8Size_eq_one_iff, List.map_cons, List.sum_cons,
      List.length_cons]
    omega

/-- No character takes less than an octet. -/
theorem length_le_encode (s : String) : s.length ≤ (encode s).length := by
  rw [length_encode, ← String.length_toList]
  exact (sum_utf8Size s.toList).1

/-- Every character takes one octet just if all are ASCII. -/
theorem length_encode_eq_iff (s : String) : (encode s).length = s.length ↔ IsAscii s := by
  rw [length_encode, ← String.length_toList]
  exact (sum_utf8Size s.toList).2

/-! ### The split -/

section Split

variable {sessionId : String} {message data : List UInt8}

/-- What a datagram holds, if its identifier is short enough. -/
theorem datagram_eq_ok :
    datagram sessionId message = .ok data ↔
      sessionId.length < 256 ∧
        data = UInt8.ofNat sessionId.length :: (encode sessionId ++ message) := by
  rw [datagram, Py.bytes]
  by_cases short : sessionId.length < 256
  · rw [if_pos short]
    simp only [short, true_and]
    constructor
    · exact fun framed => (Except.ok.inj framed).symm.trans (by simp)
    · rintro rfl
      show Except.ok _ = Except.ok _
      simp
  · rw [if_neg short]
    simp only [short, false_and, iff_false]
    intro framed
    cases framed

/-- What the server takes for the message has the octets that the session id has too many. -/
theorem parse_eq_some {frame : Frame} (framed : datagram sessionId message = .ok data)
    (parsed : parse data = some frame) :
    frame.oscoreMsg.length + sessionId.length = (encode sessionId).length + message.length := by
  obtain ⟨short, rfl⟩ := datagram_eq_ok.mp framed
  have sidLen : (UInt8.ofNat sessionId.length).toNat = sessionId.length := by
    rw [UInt8.toNat_ofNat']
    exact Nat.mod_eq_of_lt short
  have inside := length_le_encode sessionId
  simp only [parse, sidLen] at parsed
  split at parsed
  · cases parsed
  · next id _ =>
    obtain rfl := Option.some.inj parsed
    rw [List.length_drop, List.length_append]
    omega

/-- The server reads back what was sent just if the identifier is ASCII. -/
theorem parse_datagram_iff (framed : datagram sessionId message = .ok data) :
    parse data = some ⟨sessionId, message⟩ ↔ IsAscii sessionId := by
  rw [← length_encode_eq_iff]
  constructor
  · intro parsed
    have sizes := parse_eq_some framed parsed
    dsimp only at sizes
    omega
  · exact parse_datagram framed

/-- A server that waits for a datagram finds the stored context for the message. -/
theorem receive_datagram_iff {s : Server} {info : Info}
    (framed : datagram sessionId message = .ok data)
    (idle : s.stopped = false ∧ s.contact = none) (stored : s.store sessionId = some info)
    (peer : Peer) :
    (∃ c, (receive s data peer).contact = some c ∧ c.frame = ⟨sessionId, message⟩ ∧
      c.ctx = info.ctx) ↔ IsAscii sessionId := by
  rw [← parse_datagram_iff framed]
  constructor
  · rintro ⟨c, found, frame, -⟩
    have read : parse c.data = some ⟨sessionId, message⟩ := c.parsed.trans (congrArg some frame)
    rcases receive_idle data peer idle with none | ⟨c', found', same⟩
    · cases none.symm.trans found
    · rw [Option.some.inj (found'.symm.trans found)] at same
      rwa [same] at read
  · intro parsed
    rw [receive_found idle parsed stored]
    exact ⟨_, rfl, rfl, rfl⟩

end Split

/-- For every datagram that the UE can build: the server reads back the session id and the message,
and, whatever else it has stored, takes up the message under the context of that session, just
when the session id is ASCII. -/
theorem first_contact_iff {sessionId : String} {message data : List UInt8}
    (framed : datagram sessionId message = .ok data) :
    (parse data = some ⟨sessionId, message⟩ ↔ IsAscii sessionId) ∧
    ∀ (s : Server) (info : Info) (peer : Peer), s.stopped = false → s.contact = none →
      s.store sessionId = some info →
      ((∃ c, (receive s data peer).contact = some c ∧ c.frame = ⟨sessionId, message⟩ ∧
        c.ctx = info.ctx) ↔ IsAscii sessionId) :=
  ⟨parse_datagram_iff framed, fun _ _ peer running waiting stored =>
    receive_datagram_iff framed ⟨running, waiting⟩ stored peer⟩

def someInfo : Info := ⟨Oscore.contextFor Sha256.hmac (List.replicate 64 0x0b) 0 1, "ue"⟩

def withSession (sessionId : String) : Server :=
  { Server.start with store := Server.start.store.put sessionId someInfo }

theorem withSession_store (sessionId : String) :
    (withSession sessionId).store sessionId = some someInfo := if_pos rfl

/-- The session of the demo. -/
theorem first_contact_demo :
    ∃ data, datagram "demo-1" [1, 0x01, 0, 0, 0, 0, 1] = .ok data ∧
      parse data = some ⟨"demo-1", [1, 0x01, 0, 0, 0, 0, 1]⟩ ∧
      ∃ c, (receive (withSession "demo-1") data ("127.0.0.1", 40000)).contact = some c ∧
        c.frame = ⟨"demo-1", [1, 0x01, 0, 0, 0, 0, 1]⟩ ∧
        c.ctx = someInfo.ctx := by
  have ascii : IsAscii "demo-1" := by
    unfold IsAscii
    simp
  have framed := datagram_eq_ok.mpr
    ⟨(by decide : "demo-1".length < 256), rfl (a := _ :: (_ ++ [1, 0x01, 0, 0, 0, 0, 1]))⟩
  obtain ⟨parsed, received⟩ := first_contact_iff framed
  exact ⟨_, framed, parsed.mpr ascii,
    (received (withSession "demo-1") someInfo _ rfl rfl (withSession_store _)).mpr ascii⟩

/-- One character of two octets: the server reads half of it and drops the datagram, although the
session is registered. -/
theorem accented_session_lost :
    ∃ data, datagram "é" [1, 0x01, 0, 0, 0, 0, 1] = .ok data ∧
      parse data ≠ some ⟨"é", [1, 0x01, 0, 0, 0, 0, 1]⟩ ∧
      ¬ ∃ c, (receive (withSession "é") data ("127.0.0.1", 40000)).contact = some c ∧
        c.frame = ⟨"é", [1, 0x01, 0, 0, 0, 0, 1]⟩ ∧
        c.ctx = someInfo.ctx := by
  have other : ¬ IsAscii "é" := by
    unfold IsAscii
    simp
  have framed := datagram_eq_ok.mpr
    ⟨(by decide : "é".length < 256), rfl (a := _ :: (_ ++ [1, 0x01, 0, 0, 0, 0, 1]))⟩
  refine ⟨_, framed, fun parsed => other ((parse_datagram_iff framed).mp parsed), fun found => ?_⟩
  exact other ((receive_datagram_iff framed ⟨rfl, rfl⟩ (withSession_store _) _).mp found)

end EdhocAuth.Bootstrap
