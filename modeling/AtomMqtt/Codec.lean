import AtomMqtt.V3Codec
import AtomMqtt.V5Codec

set_option autoImplicit false

/-! Packets of either version, and how a connection decodes them. -/
namespace AtomMqtt

inductive MqttPacket where
  | V311 (p : V3.MqttPacketV3)
  | V5 (p : V5.MqttPacketV5)
  deriving DecidableEq, Repr

def MqttPacket.version : MqttPacket → ProtocolVersion
  | .V311 _ => .V311
  | .V5 _ => .V5

def encodePacket : MqttPacket → MqttResult Bytes
  | .V311 p => V3.encodePacket p
  | .V5 p => V5.encodePacket p

/-- `let (packet, _) = decoded.ok_or_else(…)?; Ok(Some(packet))` -/
def firstPacket {α : Type} (decoded : MqttResult (Option (α × ℕ))) (wrap : α → MqttPacket) :
    MqttResult (Option MqttPacket) := do
  let (packet, _) ← okOr (← decoded) (.InvalidPacket "Failed to decode CONNECT")
  return some (wrap packet)

/-- The level is read at the offset that it has after the name `MQTT`. -/
def decodeFirstPacket (buf : Bytes) : MqttResult (Option MqttPacket) :=
  match buf with
  | _ :: tail@(_ :: _) => do
    let (remainingLen, lenBytes) ← decodeRemainingLength tail
    let totalLen := 1 + lenBytes + remainingLen
    if buf.length < totalLen then .ok none
    else do
      let hdr ← slice buf (1 + lenBytes) buf.length
      if hdr.length < 8 then err (.InvalidPacket "CONNECT packet too short")
      else
        let protocolLevel := hdr.getD 6 0
        match protocolLevel.toNat with
        | 4 => firstPacket (V3.decodePacket buf) .V311
        | 5 => firstPacket (V5.decodePacket buf) .V5
        | _ => err (.UnsupportedVersion protocolLevel)
  | _ => .ok none

def decodePacketByVersion (buf : Bytes) (version : ProtocolVersion) : MqttResult (Option (MqttPacket × ℕ)) :=
  if buf.isEmpty then .ok none
  else
    match version with
    | .V311 => Option.map (fun (p, s) => (.V311 p, s)) <$> V3.decodePacket buf
    | .V5 => Option.map (fun (p, s) => (.V5 p, s)) <$> V5.decodePacket buf

theorem map_eq_some_iff {α : Type} {decoded : MqttResult (Option (α × ℕ))} {wrap : α → MqttPacket} {packet : MqttPacket}
    {size : ℕ} : Option.map (fun (p, s) => (wrap p, s)) <$> decoded = .ok (some (packet, size)) ↔
      ∃ p, packet = wrap p ∧ decoded = .ok (some (p, size)) := by
  cases decoded with
  | error e => simp
  | ok result =>
    cases result with
    | none => simp
    | some result =>
      obtain ⟨p, n⟩ := result
      simp only [Except.map_ok, Option.map_some, Except.ok.injEq, Option.some.injEq, Prod.mk.injEq]
      constructor
      · intro h
        exact ⟨p, h.1.symm, rfl, h.2⟩
      · intro h
        obtain ⟨q, rfl, rfl, rfl⟩ := h
        exact ⟨rfl, rfl⟩

theorem decodePacketByVersion_v3 {bytes : Bytes} {packet : MqttPacket} {size : ℕ} :
    decodePacketByVersion bytes .V311 = .ok (some (packet, size)) ↔
      ∃ p, packet = .V311 p ∧ V3.decodePacket bytes = .ok (some (p, size)) := by
  cases bytes with
  | nil => simp [decodePacketByVersion, V3.decodePacket, decodeFrame]
  | cons byte bytes => exact map_eq_some_iff

theorem decodePacketByVersion_v5 {bytes : Bytes} {packet : MqttPacket} {size : ℕ} :
    decodePacketByVersion bytes .V5 = .ok (some (packet, size)) ↔
      ∃ p, packet = .V5 p ∧ V5.decodePacket bytes = .ok (some (p, size)) := by
  cases bytes with
  | nil => simp [decodePacketByVersion, V5.decodePacket, decodeFrame]
  | cons byte bytes => exact map_eq_some_iff

end AtomMqtt
