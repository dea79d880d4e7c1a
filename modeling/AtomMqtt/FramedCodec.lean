import AtomMqtt.Codec

set_option autoImplicit false

/-! The framed codec. It cuts a frame off the buffer and decodes the frame without knowing the version of the
connection. -/
namespace AtomMqtt

def DEFAULT_MAX_PACKET_SIZE : ℕ := 10 * 1024 * 1024

structure MqttCodec where
  maxPacketSize : ℕ := DEFAULT_MAX_PACKET_SIZE
  deriving DecidableEq, Repr

/-- `result.unwrap_or(None)`: a panic is none of its errors. -/
def unwrapOrNone {α : Type} : MqttResult (Option α) → MqttResult (Option α)
  | .error (.mqtt _) => .ok none
  | result => result

/-- `let (packet, _) = decoded?.ok_or_else(|| …)?; Ok(Some(packet))`, with the version in the error's text -/
def connectPacket {α : Type} (version : String) (decoded : MqttResult (Option (α × ℕ))) (wrap : α → MqttPacket) :
    MqttResult (Option MqttPacket) := do
  let (packet, _) ← okOr (← decoded) (.InvalidPacket ("Failed to decode MQTT " ++ version ++ " CONNECT"))
  return some (wrap packet)

/-- The level is read at the offset that it has after the name `MQTT`. -/
def MqttCodec.decodeConnect (self : MqttCodec) (src : Bytes) : MqttResult (Option MqttPacket) :=
  if src.length < 10 then .ok none
  else do
    let (_, lenBytes) ← decodeRemainingLength (src.drop 1)
    if src.length < 1 + lenBytes then .ok none
    else do
      let (remaining, lenBytes) ← decodeRemainingLength (src.drop 1)
      let totalLen := 1 + lenBytes + remaining
      if src.length < totalLen then .ok none
      else if totalLen > self.maxPacketSize then err (.PacketTooLarge totalLen)
      else do
        let protocolData ← slice src (1 + lenBytes) src.length
        if protocolData.length < 7 then err (.InvalidPacket "CONNECT packet too short")
        else
          let protocolLevel := protocolData.getD 6 0
          match protocolLevel.toNat with
          | 4 => connectPacket "3.1.1" (V3.decodePacket src) .V311
          | 5 => connectPacket "5.0" (V5.decodePacket src) .V5
          | _ => err (.UnsupportedVersion protocolLevel)

/-- A packet other than CONNECT does not tell its version: the decoder of 3.1.1 comes first, and an error of either one
    counts for no packet. -/
def MqttCodec.decode (self : MqttCodec) (src : Bytes) : MqttResult (Option MqttPacket) :=
  match src with
  | [] => .ok none
  | fixedHeader :: _ => do
    let packetType ← okOr (PacketType.fromU8 fixedHeader)
      (.InvalidPacket ("Unknown packet type: 0x" ++ hexByte fixedHeader))
    if packetType == .Connect then self.decodeConnect src
    else
      match (← unwrapOrNone (V3.decodePacket src)) with
      | some (p, _) => return some (.V311 p)
      | none =>
        match (← unwrapOrNone (V5.decodePacket src)) with
        | some (p, _) => return some (.V5 p)
        | none => return none

structure MqttFramedCodec where
  inner : MqttCodec
  deriving DecidableEq, Repr

def MqttFramedCodec.new (maxPacketSize : ℕ) : MqttFramedCodec := { inner := { maxPacketSize } }

/-- The result, and what is left of the buffer. -/
def MqttFramedCodec.decode (self : MqttFramedCodec) (src : Bytes) : MqttResult (Option MqttPacket) × Bytes :=
  if src.length < 2 then (.ok none, src)
  else
    match decodeRemainingLength (src.drop 1) with
    | .error (.mqtt _) => (.ok none, src)
    | .error fault => (.error fault, src)
    | .ok (remainingLen, lenBytes) =>
      let totalLen := 1 + lenBytes + remainingLen
      if src.length < totalLen then (.ok none, src)
      else if totalLen > self.inner.maxPacketSize then (err (.PacketTooLarge totalLen), src)
      else (self.inner.decode (src.take totalLen), src.drop totalLen)

def MqttFramedCodec.encode (_self : MqttFramedCodec) (item : MqttPacket) (dst : Bytes) : MqttResult Bytes :=
  (dst ++ ·) <$> encodePacket item

end AtomMqtt
