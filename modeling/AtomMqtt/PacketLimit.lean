import AtomMqtt.DecoderBounds
import AtomMqtt.FramedStream
import AtomMqtt.Handover

set_option autoImplicit false

/-! The configured packet limit. Both places where a handler decodes make a codec of the configured size, and
decode without it. What limits a packet is the constant of the two decoders, and for the first packet only once
it is whole. -/
namespace AtomMqtt
open Scanning

/-- Where a handler asks for a packet: the first one, and those after it on a connection of this version. -/
inductive Site where
  | first
  | later (version : ProtocolVersion)

def Site.decode (config : BrokerConfig) (site : Site) (buf : Bytes) : MqttResult (Option MqttPacket) :=
  let _codec := MqttFramedCodec.new config.maxPacketSize
  match site with
  | .first => decodeFirstPacket buf
  | .later version => Option.map Prod.fst <$> decodePacketByVersion buf version

/-- A well-formed packet that has its place there: a CONNECT, or a packet of the version of the connection. -/
structure Site.Sends (site : Site) (packet : MqttPacket) : Prop where
  wellFormed : packet.WellFormed
  frame : IsFrame (sentBytes packet)
  placed : match site with
    | .first => ∃ c, connectFields packet = some c
    | .later version => packet.version = version

section
variable {α : Type} {maxPacketSize remainingLen lenBytes : ℕ} {body : PacketType → Bytes → UInt8 → MqttResult α}
  {src : Bytes}

theorem two_of_length (hr : decodeRemainingLength (src.drop 1) = .ok (remainingLen, lenBytes)) :
    1 + lenBytes ≤ src.length ∧ 2 ≤ src.length := by
  have hbounds := decodeRemainingLength_bounds hr
  rw [List.length_drop] at hbounds
  omega

end

def Bodiless (packetType : PacketType) : Prop :=
  packetType = .PingReq ∨ packetType = .PingResp ∨ packetType = .Disconnect

/-- Any fixed header that announces more than is configured; if it announces nothing at all, what follows the packet
    has to be long enough to be taken for a CONNECT, and the type needs nothing. -/
def OverlookedFirst (maxPacketSize : ℕ) (stream : Bytes) : Prop :=
  ∃ remainingLen lenBytes, decodeRemainingLength (stream.drop 1) = .ok (remainingLen, lenBytes) ∧
    maxPacketSize < 1 + lenBytes + remainingLen ∧
    (remainingLen = 0 → ∃ packetType, PacketType.fromU8 (stream.headD 0) = some packetType ∧ Bodiless packetType ∧
      1 + lenBytes ≤ V3.MAX_PACKET_SIZE ∧ 8 ≤ (stream.drop (1 + lenBytes)).length ∧
        ((stream.drop (1 + lenBytes)).getD 6 0 = 4 ∨ (stream.drop (1 + lenBytes)).getD 6 0 = 5))

/-- The stream begins with a packet that the configuration allows and the decoders find too large. -/
def Site.Refuses (maxPacketSize : ℕ) (site : Site) (stream : Bytes) : Prop :=
  ∃ packet rest, stream = sentBytes packet ++ rest ∧ site.Sends packet ∧
    V3.MAX_PACKET_SIZE < (sentBytes packet).length ∧ (sentBytes packet).length ≤ maxPacketSize

section
variable {maxPacketSize remainingLen lenBytes : ℕ} {config : BrokerConfig} {received more : Bytes}

theorem headD_append (more : Bytes) (h : 2 ≤ received.length) : (received ++ more).headD 0 = received.headD 0 := by
  cases received with
  | nil => cases h
  | cons first tail => rfl

theorem length_append_drop (hr : decodeRemainingLength (received.drop 1) = .ok (remainingLen, lenBytes)) :
    decodeRemainingLength ((received ++ more).drop 1) = .ok (remainingLen, lenBytes) := by
  rw [List.drop_append_of_le_length (by have := (two_of_length hr).2; omega)]
  exact decodeRemainingLength_append hr more

theorem decodeFirstPacket_header (hr : decodeRemainingLength (received.drop 1) = .ok (remainingLen, lenBytes)) :
    decodeFirstPacket received =
      if received.length < 1 + lenBytes + remainingLen then .ok none
      else if (received.drop (1 + lenBytes)).length < 8 then err (.InvalidPacket "CONNECT packet too short")
      else match ((received.drop (1 + lenBytes)).getD 6 0).toNat with
        | 4 => firstPacket (V3.decodePacket received) .V311
        | 5 => firstPacket (V5.decodePacket received) .V5
        | _ => err (.UnsupportedVersion ((received.drop (1 + lenBytes)).getD 6 0)) := by
  obtain ⟨hhead, htwo⟩ := two_of_length hr
  match received with
  | [] => cases htwo
  | [_] => simp at htwo
  | fixedHeader :: next :: tail =>
    have hr : decodeRemainingLength (next :: tail) = .ok (remainingLen, lenBytes) := hr
    have hslice : slice (fixedHeader :: next :: tail) (1 + lenBytes) (fixedHeader :: next :: tail).length =
        .ok ((fixedHeader :: next :: tail).drop (1 + lenBytes)) := by
      apply slice_eq_ok_iff.mpr
      rw [List.take_length]
      exact ⟨hhead, le_rfl, rfl⟩
    simp only [decodeFirstPacket, hr, ok_bind]
    rw [hslice]
    rfl

theorem answers_firstPacket {α : Type} {decoded : MqttResult (Option (α × ℕ))} (h : Answers decoded)
    (wrap : α → MqttPacket) : Answers (firstPacket decoded wrap) :=
  h.bind fun _ _ => (answers_okOr _ _).bind fun _ _ => answers_ok _

theorem answers_first (hr : decodeRemainingLength (received.drop 1) = .ok (remainingLen, lenBytes)) :
    Answers (decodeFirstPacket received) := by
  rw [decodeFirstPacket_header hr]
  split
  · exact answers_ok _
  · split
    · exact answers_err _
    · split
      · exact answers_firstPacket (V3.answers_decodePacket received) _
      · exact answers_firstPacket (V5.answers_decodePacket received) _
      · exact answers_err _

theorem OverlookedFirst.append (h : OverlookedFirst maxPacketSize received) (more : Bytes) :
    OverlookedFirst maxPacketSize (received ++ more) := by
  obtain ⟨remainingLen, lenBytes, hr, hmax, hbody⟩ := h
  refine ⟨remainingLen, lenBytes, length_append_drop hr, hmax, ?_⟩
  intro hzero
  obtain ⟨packetType, htype, hbodiless, hlimit, hlong, hlevel⟩ := hbody hzero
  obtain ⟨hhead, htwo⟩ := two_of_length hr
  have hsix : 6 < (received.drop (1 + lenBytes)).length := Nat.lt_of_lt_of_le (by decide) hlong
  rw [headD_append more htwo, List.drop_append_of_le_length hhead, List.length_append, List.getD_eq_getElem?_getD,
    List.getElem?_append_left hsix, ← List.getD_eq_getElem?_getD]
  exact ⟨packetType, htype, hbodiless, hlimit, Nat.le_add_right_of_le hlong, hlevel⟩

end

section
variable {packet : MqttPacket} {c : ConnectFields}

theorem validConnect_sent (hp : packet.WellFormed) (hfields : connectFields packet = some c)
    (hlimit : (sentBytes packet).length ≤ 10 * 1024 * 1024) :
    ValidConnect packet.version (sentBytes packet) packet c := by
  have hwhole := (delimited ⟨rfl, hp, hlimit⟩).whole []
  rw [List.append_nil] at hwhole
  refine ⟨hwhole, hfields, ?_⟩
  obtain ⟨connect, rfl, -⟩ | ⟨connect, rfl, -⟩ := connectFields_eq_some hfields
  · have hsent : sentBytes (.V311 (.Connect connect)) = frame PacketType.Connect.toU8 (V3.connectRemaining connect) := rfl
    have htotal := frame_length PacketType.Connect.toU8 (V3.connectRemaining connect)
    rw [hsent] at hlimit ⊢
    exact ⟨_, _, _, frame_header PacketType.Connect.toU8 (by omega), frame_drop _ _⟩
  · have hsent : sentBytes (.V5 (.Connect connect)) = frame PacketType.Connect.toU8 (V5.connectRemaining connect) := rfl
    have htotal := frame_length PacketType.Connect.toU8 (V5.connectRemaining connect)
    rw [hsent] at hlimit ⊢
    exact ⟨_, _, _, frame_header PacketType.Connect.toU8 (by omega), frame_drop _ _⟩

end

end AtomMqtt
