import AtomMqtt.Behaviour
import AtomMqtt.ClientSends
import AtomMqtt.PacketLimit
import AtomMqtt.RemainingLength

set_option autoImplicit false

/-! A connection of the broker and the socket of a client. What either side reads is a part of what the other
has sent. What the broker sends is a stream of packets, and so is what `pub` sends; each side finds in it the
packets that the other has meant. -/
namespace AtomMqtt
open Programs Framing

/-- The decoder takes no packet but this one for it; one that is too large for it, it takes for none. -/
theorem foremost_v3 {p : V3.MqttPacketV3} (hp : p.WellFormed) : Foremost Client.bytesOf V3.decodePacket p := by
  obtain ⟨fixedByte, packetType, remaining, henc, htype, hbody⟩ := V3.encodePacket_frame hp
  have hbytes : Client.bytesOf p = frame fixedByte remaining := by
    rw [Client.bytesOf, henc]
    rfl
  intro r y n hdecode
  rw [hbytes] at hdecode ⊢
  by_cases hmax : (frame fixedByte remaining).length ≤ 10 * 1024 * 1024
  · cases (V3.decodePacket_sent hp henc hmax r).symm.trans hdecode
    exact ⟨rfl, rfl⟩
  · exfalso
    obtain ⟨_, tail, _, len, lenBytes, _, hsrc, -, hr, rfl, hsize, -⟩ := decodeFrame_eq_some_iff.mp hdecode
    rw [frame, List.cons_append, List.cons.injEq, List.append_assoc] at hsrc
    obtain ⟨-, rfl⟩ := hsrc
    rcases Nat.lt_or_ge remaining.length (2 ^ 28) with hlt | hge
    · cases (decodeRemainingLength_encode hlt _).symm.trans hr
      have htotal := frame_length fixedByte remaining
      have hlimit : V3.MAX_PACKET_SIZE = 10 * 1024 * 1024 := rfl
      omega
    · cases (decodeRemainingLength_encode_large hge _).symm.trans hr

theorem foremost_byVersion {p : V3.MqttPacketV3} (hp : p.WellFormed) :
    Foremost sentBytes (fun buf => decodePacketByVersion buf .V311) (.V311 p) := by
  intro r y n hdecode
  obtain ⟨q, rfl, hq⟩ := decodePacketByVersion_v3.mp hdecode
  obtain ⟨rfl, hn⟩ := foremost_v3 hp hq
  exact ⟨rfl, hn⟩

def Action.written : Action → Option (Outgoing × Bytes)
  | .write what data => some (what, data)
  | _ => none

def writes (tr : Trace Action Reply) : List (Outgoing × Bytes) := tr.filterMap fun e => e.1.written

/-- What connection `k` has written, the last of it perhaps in part. -/
def offered (evs : List BrokerEvent) (k : ConnId) : List Bytes :=
  (writes (System.traceOf (.connection k) evs)).map Prod.snd

/-- Connection `k` of the broker is the other end of the socket of this client. -/
structure Joined (evs : List BrokerEvent) (k : ConnId) (cevs : List Client.ClientEvent) : Prop where
  toBroker : (heard (System.traceOf (.connection k) evs)).flatten <+: Client.wire cevs
  toClient : (Client.received (System.traceOf .main cevs)).flatten <+: (offered evs k).flatten

theorem writes_append (tr tr' : Trace Action Reply) : writes (tr ++ tr') = writes tr ++ writes tr' := List.filterMap_append

theorem writes_deeds (tr : Trace Action Reply) :
    (writes tr).filter (fun w => w.1 != .forwarded) = (deeds tr).filterMap Action.written := by
  induction tr with
  | nil => rfl
  | cons e tr ih =>
    obtain ⟨a, r⟩ := e
    cases a with
    | write what data =>
      cases what with
      | forwarded => exact ih
      | _ => exact congrArg (_ :: ·) ih
    | sendRouter message => cases message <;> exact ih
    | _ => exact ih

section
variable {settings : Settings} {name : String} {b : Bytes} {packet : MqttPacket} {c : ConnectFields} {chunks : List Bytes}

theorem tcpScript_connect (h : ValidConnect .V311 b packet c) {r : Bytes} (hheard : chunks.flatten <+: b ++ r) :
    tcpScript settings name chunks = [] ∨ ∃ later, b ++ later = chunks.flatten ∧
      tcpScript settings name chunks = c.welcome settings c.will (.ok (some b.length)) b name [later] := by
  cases chunks with
  | nil => exact .inl rfl
  | cons readBuf later =>
    rw [List.flatten_cons] at hheard ⊢
    have hread : readBuf <+: b ++ r := (List.prefix_append _ _).trans hheard
    by_cases hwhole : b <+: readBuf
    · obtain ⟨rest, rfl⟩ := hwhole
      obtain ⟨hfirst, -, hdecode⟩ := h.decodeFirst rest
      obtain ⟨p, -, hp⟩ := decodePacketByVersion_v3.mp hdecode
      refine .inr ⟨rest ++ later.flatten, by rw [List.append_assoc], ?_⟩
      simp only [tcpScript, hfirst, h.fields, hp, ConnectFields.welcome, ConnectFields.rest]
      cases settings.authenticator.authenticate settings.config.allowAnonymous c.username c.password with
      | Denied _ => rfl
      | Success _ => simp
    · left
      obtain ⟨missing, hmissing⟩ :=
        (List.prefix_or_prefix_of_prefix hread (List.prefix_append b r)).resolve_right hwhole
      have hne : missing ≠ [] := by
        rintro rfl
        rw [List.append_nil] at hmissing
        exact hwhole (hmissing ▸ List.prefix_rfl)
      rw [tcpScript, decodeFirstPacket_part h.isFrame hmissing hne]
      split_ifs <;> rfl

end

end AtomMqtt
