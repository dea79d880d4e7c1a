import AtomMqtt.FramedCodec
import AtomMqtt.Library.ScanSums

set_option autoImplicit false

/-! The decoders with the arithmetic of a machine. The decoders once more, with every index, every slice and
every sum or product of two `usize`s as an operation that can fault. A check `pos >= data.len()` of the source
stands here as the one for a byte more, which faults rather more often. -/
namespace AtomMqtt
namespace Machine

section
variable (usizeMax : ℕ)

/-- `a + b` -/
def add (a b : ℕ) : MqttResult ℕ := if a + b ≤ usizeMax then .ok (a + b) else .error .panic

/-- `a * b` -/
def mul (a b : ℕ) : MqttResult ℕ := if a * b ≤ usizeMax then .ok (a * b) else .error .panic

/-- `data[i]` -/
def index (data : Bytes) (i : ℕ) : MqttResult UInt8 := data[i]?.elim (.error .panic) .ok

/-- `&data[start..]` -/
def sliceFrom (data : Bytes) (start : ℕ) : MqttResult Bytes := slice data start data.length

def decodeRemainingLoop : Bytes → ℕ → ℕ → ℕ → MqttResult (ℕ × ℕ)
  | [], _, _, _ => err .MalformedRemainingLength
  | byte :: buf, i, value, multiplier => do
    let consumed ← add usizeMax i 1
    if consumed > MAX_REMAINING_LENGTH_BYTES then err .MalformedRemainingLength
    else do
      let value ← add usizeMax value (← mul usizeMax (byte.toNat &&& 0x7F) multiplier)
      let multiplier ← mul usizeMax multiplier 128
      if byte &&& 0x80 = 0 then .ok (value, consumed)
      else decodeRemainingLoop buf consumed value multiplier

def decodeRemainingLength (buf : Bytes) : MqttResult (ℕ × ℕ) := decodeRemainingLoop usizeMax buf 0 0 1

def decodeString (buf : Bytes) : MqttResult (String × ℕ) :=
  if buf.length < 2 then err (.InvalidPacket "Insufficient data for string length")
  else do
    let hi ← index buf 0
    let lo ← index buf 1
    let len := hi.toNat <<< 8 ||| lo.toNat
    let stop ← add usizeMax 2 len
    if buf.length < stop then err (.InvalidPacket "Insufficient data for string")
    else do
      let s ← okOr (fromUtf8 (← slice buf 2 stop)) .InvalidUtf8
      return (s, stop)

def ensure (n : ℕ) (e : MqttError) : Scan Unit := Scanning.ensureBy (add usizeMax) n (.mqtt e)
def within (limit n : ℕ) (e : MqttError) : Scan Unit := Scanning.withinBy (add usizeMax) limit n (.mqtt e)
def next : Scan UInt8 := Scanning.nextBy (add usizeMax) .panic
def takeN (n : ℕ) : Scan Bytes := Scanning.takeNBy (add usizeMax) .panic n
def onRest {α : Type} (f : Bytes → MqttResult (α × ℕ)) : Scan α := Scanning.onRestBy (add usizeMax) .panic f
def string : Scan String := onRest usizeMax (decodeString usizeMax)

def u16 : Scan UInt16 := do
  let hi ← next usizeMax
  let lo ← next usizeMax
  return u16FromBeBytes hi lo

def length16 : Scan ℕ := do
  let hi ← next usizeMax
  let lo ← next usizeMax
  return hi.toNat <<< 8 ||| lo.toNat

def willPayload (missing truncated : String) : Scan Bytes := do
  ensure usizeMax 2 (.InvalidPacket missing)
  let msgLen ← length16 usizeMax
  ensure usizeMax msgLen (.InvalidPacket truncated)
  takeN usizeMax msgLen

def decodeFrame {α : Type} (maxPacketSize : ℕ) (body : PacketType → Bytes → UInt8 → MqttResult α) (src : Bytes) :
    MqttResult (Option (α × ℕ)) :=
  if src.isEmpty then .ok none
  else do
    let fixedHeader ← index src 0
    let packetType ← okOr (PacketType.fromU8 fixedHeader)
      (.InvalidPacket ("Unknown packet type: 0x" ++ hexByte fixedHeader))
    if src.length < 2 then .ok none
    else do
      let (remainingLen, lenBytes) ← decodeRemainingLength usizeMax (← sliceFrom src 1)
      let head ← add usizeMax 1 lenBytes
      let totalLen ← add usizeMax head remainingLen
      if totalLen > maxPacketSize then err (.PacketTooLarge totalLen)
      else if src.length < totalLen then .ok none
      else do
        let packetData ← slice src head totalLen
        let packet ← body packetType packetData fixedHeader
        return some (packet, totalLen)

end
end Machine

namespace V3.Machine

section
variable (usizeMax : ℕ)

def decodeWill (willQos : QoS) (willRetain : Bool) : Scan Will := do
  let topic ← Machine.string usizeMax
  let message ← Machine.willPayload usizeMax "Missing will message length" "Will message truncated"
  return { topic, message, qos := willQos, retain := willRetain }

def scanConnect : Scan ConnectPacket := do
  let _protocolName ← Machine.string usizeMax
  Machine.ensure usizeMax 1 (.InvalidPacket "Missing protocol level")
  let protocolLevel ← Machine.next usizeMax
  Scan.reject (protocolLevel != 4) (.UnsupportedVersion protocolLevel)
  Machine.ensure usizeMax 1 (.InvalidPacket "Missing connect flags")
  let connectFlags ← Machine.next usizeMax
  let cleanSession := connectFlags &&& 0x02 != 0
  let willFlag := connectFlags &&& 0x04 != 0
  let willQos := (QoS.fromU8 ((connectFlags >>> 3) &&& 0x03)).getD .AtMostOnce
  let willRetain := connectFlags &&& 0x20 != 0
  let passwordFlag := connectFlags &&& 0x40 != 0
  let usernameFlag := connectFlags &&& 0x80 != 0
  Machine.ensure usizeMax 2 (.InvalidPacket "Missing keep alive")
  let keepAlive ← Machine.u16 usizeMax
  let clientId ← Machine.string usizeMax
  let will ← Scanning.readIf willFlag (decodeWill usizeMax willQos willRetain)
  let username ← Scanning.readIf usernameFlag (Machine.string usizeMax)
  let password ← Scanning.readIf passwordFlag (Machine.string usizeMax)
  return { clientId, cleanSession, keepAlive, will, username, password }

def decodeConnack (data : Bytes) : MqttResult ConnAckPacket :=
  if data.length < 2 then err (.InvalidPacket "CONNACK too short")
  else do
    let flags ← Machine.index data 0
    let code ← Machine.index data 1
    let returnCode ← okOr (ConnectReturnCode.fromU8 code)
      (.InvalidPacket ("Unknown CONNACK return code: " ++ toString code.toNat))
    return { sessionPresent := flags &&& 0x01 != 0, returnCode }

def scanPublish (qos : QoS) (retain : Bool) : Scan PublishPacket := do
  let topic ← Machine.string usizeMax
  let packetId ← Scanning.readIf (qos != .AtMostOnce) do
    Machine.ensure usizeMax 2 (.InvalidPacket "Missing packet ID in PUBLISH")
    Machine.u16 usizeMax
  let payload ← Scan.takeRest
  return { topic, payload, qos, retain, packetId }

def decodePublish (data : Bytes) (fixedHeader : UInt8) : MqttResult PublishPacket := do
  let qos ← okOr (QoS.fromU8 ((fixedHeader >>> 1) &&& 0x03)) (.InvalidPacket "Invalid QoS")
  let retain := fixedHeader &&& 0x01 != 0
  (scanPublish usizeMax qos retain).runOn data

/-- `decode_puback`, `decode_pubrec`, `decode_pubrel`, `decode_pubcomp` and `decode_unsuback` -/
def decodeAck (name : String) (data : Bytes) : MqttResult AckPacket :=
  if data.length < 2 then err (.InvalidPacket (name ++ " too short"))
  else do
    let hi ← Machine.index data 0
    let lo ← Machine.index data 1
    return { packetId := u16FromBeBytes hi lo }

def scanSubscribeFilter : Scan SubscribeFilter := do
  let path ← Machine.string usizeMax
  Machine.ensure usizeMax 1 (.InvalidPacket "Missing QoS in SUBSCRIBE")
  let options ← Machine.next usizeMax
  let qos ← Scan.okOr (QoS.fromU8 (options &&& 0x03)) (.InvalidPacket "Invalid QoS in SUBSCRIBE")
  return { path, qos }

def decodeSubscribe (data : Bytes) : MqttResult SubscribePacket :=
  Scan.runOn (do
    Machine.ensure usizeMax 2 (.InvalidPacket "SUBSCRIBE too short")
    let packetId ← Machine.u16 usizeMax
    let filters ← Scan.whileData (scanSubscribeFilter usizeMax)
    return { packetId, filters }) data

def decodeSuback (data : Bytes) : MqttResult SubAckPacket :=
  if data.length < 2 then err (.InvalidPacket "SUBACK too short")
  else do
    let hi ← Machine.index data 0
    let lo ← Machine.index data 1
    let codes ← Machine.sliceFrom data 2
    return { packetId := u16FromBeBytes hi lo, returnCodes := codes.filterMap SubAckReturnCode.fromU8 }

def decodeUnsubscribe (data : Bytes) : MqttResult UnsubscribePacket :=
  Scan.runOn (do
    Machine.ensure usizeMax 2 (.InvalidPacket "UNSUBSCRIBE too short")
    let packetId ← Machine.u16 usizeMax
    let filters ← Scan.whileData (Machine.string usizeMax)
    return { packetId, filters }) data

def decodeBody (packetType : PacketType) (packetData : Bytes) (fixedHeader : UInt8) : MqttResult MqttPacketV3 :=
  match packetType with
  | .Connect => .Connect <$> (scanConnect usizeMax).runOn packetData
  | .ConnAck => .ConnAck <$> decodeConnack packetData
  | .Publish => .Publish <$> decodePublish usizeMax packetData fixedHeader
  | .PubAck => .PubAck <$> decodeAck "PUBACK" packetData
  | .PubRec => .PubRec <$> decodeAck "PUBREC" packetData
  | .PubRel => .PubRel <$> decodeAck "PUBREL" packetData
  | .PubComp => .PubComp <$> decodeAck "PUBCOMP" packetData
  | .Subscribe => .Subscribe <$> decodeSubscribe usizeMax packetData
  | .SubAck => .SubAck <$> decodeSuback packetData
  | .Unsubscribe => .Unsubscribe <$> decodeUnsubscribe usizeMax packetData
  | .UnsubAck => .UnsubAck <$> decodeAck "UNSUBACK" packetData
  | .PingReq => .ok .PingReq
  | .PingResp => .ok .PingResp
  | .Disconnect => .ok .Disconnect
  | .Auth => err (.InvalidPacket "AUTH not supported in MQTT 3.1.1")

def decodePacket (src : Bytes) : MqttResult (Option (MqttPacketV3 × ℕ)) :=
  Machine.decodeFrame usizeMax MAX_PACKET_SIZE (decodeBody usizeMax) src

end
end V3.Machine

namespace V5.Machine

section
variable (usizeMax : ℕ)

def scanU32 : Scan UInt32 := do
  let a ← Machine.next usizeMax
  let b ← Machine.next usizeMax
  let c ← Machine.next usizeMax
  let d ← Machine.next usizeMax
  return u32FromBeBytes a b c d

def scanValue (stop : ℕ) : Shape → Scan PropertyValue
  | .Byte => do
    Machine.within usizeMax stop 1 (.InvalidPacket "Property data truncated")
    return .Byte (← Machine.next usizeMax)
  | .TwoByteInteger => do
    Machine.within usizeMax stop 2 (.InvalidPacket "Property data truncated")
    return .TwoByteInteger (← Machine.u16 usizeMax)
  | .FourByteInteger => do
    Machine.within usizeMax stop 4 (.InvalidPacket "Property data truncated")
    return .FourByteInteger (← scanU32 usizeMax)
  | .VariableByteInteger => do
    let v ← Machine.onRest usizeMax (Machine.decodeRemainingLength usizeMax)
    return .VariableByteInteger (UInt32.ofNat v)
  | .BinaryData => do
    Machine.within usizeMax stop 2 (.InvalidPacket "Property data truncated")
    let len ← Machine.length16 usizeMax
    Machine.within usizeMax stop len (.InvalidPacket "Binary property truncated")
    return .BinaryData (← Machine.takeN usizeMax len)
  | .UTF8String => do
    return .UTF8String (← Machine.string usizeMax)
  | .Pair => do
    let key ← Machine.string usizeMax
    let value ← Machine.string usizeMax
    return .Pair key value

def scanProperty (stop : ℕ) : Scan (PropertyId × PropertyValue) := do
  let idByte ← Machine.next usizeMax
  let id ← Scan.okOr (PropertyId.fromU8 idByte)
    (.InvalidPacket ("Unknown property ID: " ++ toString idByte.toNat))
  let value ← scanValue usizeMax stop id.shape
  return (id, value)

def decodeProperties (data : Bytes) : MqttResult (Properties × ℕ) :=
  if data.isEmpty then .ok (Properties.new, 0)
  else do
    let (propsLen, lenBytes) ← Machine.decodeRemainingLength usizeMax data
    if propsLen = 0 then .ok (Properties.new, lenBytes)
    else do
      let stop ← Machine.add usizeMax lenBytes propsLen
      if data.length < stop then err (.InvalidPacket "Properties data truncated")
      else do
        let (inner, _) ← Scanning.whileBefore .stuck (scanProperty usizeMax stop) stop propsLen data lenBytes
        return ({ inner }, stop)

def scanProperties : Scan Properties := Machine.onRest usizeMax (decodeProperties usizeMax)

def decodeWill (willQos : QoS) (willRetain : Bool) : Scan Will := do
  let properties ← scanProperties usizeMax
  let delayInterval := properties.willDelayInterval.getD 0
  let topic ← Machine.string usizeMax
  let payload ← Machine.willPayload usizeMax "Missing will payload length" "Will payload truncated"
  return { topic, payload, qos := willQos, retain := willRetain, properties, delayInterval }

def scanConnect : Scan ConnectPacket := do
  let _protocolName ← Machine.string usizeMax
  Machine.ensure usizeMax 1 (.InvalidPacket "Missing protocol level")
  let protocolLevel ← Machine.next usizeMax
  Scan.reject (protocolLevel != 5) (.UnsupportedVersion protocolLevel)
  Machine.ensure usizeMax 1 (.InvalidPacket "Missing connect flags")
  let connectFlags ← Machine.next usizeMax
  let cleanStart := connectFlags &&& 0x02 != 0
  let willFlag := connectFlags &&& 0x04 != 0
  let willQos := (QoS.fromU8 ((connectFlags >>> 3) &&& 0x03)).getD .AtMostOnce
  let willRetain := connectFlags &&& 0x20 != 0
  let passwordFlag := connectFlags &&& 0x40 != 0
  let usernameFlag := connectFlags &&& 0x80 != 0
  Machine.ensure usizeMax 2 (.InvalidPacket "Missing keep alive")
  let keepAlive ← Machine.u16 usizeMax
  let properties ← scanProperties usizeMax
  let clientId ← Machine.string usizeMax
  let will ← Scanning.readIf willFlag (decodeWill usizeMax willQos willRetain)
  let username ← Scanning.readIf usernameFlag (Machine.string usizeMax)
  let password ← Scanning.readIf passwordFlag (Machine.string usizeMax)
  return { clientId, cleanStart, keepAlive, properties, will, username, password }

def decodeConnack (data : Bytes) : MqttResult ConnAckPacket :=
  if data.isEmpty then err (.InvalidPacket "CONNACK too short")
  else do
    let flags ← Machine.index data 0
    if data.length < 2 then err (.InvalidPacket "CONNACK missing reason code")
    else do
      let code ← Machine.index data 1
      let reasonCode ← okOr (ReasonCode.fromU8 code)
        (.InvalidPacket ("Unknown reason code: " ++ toString code.toNat))
      let (properties, _) ← decodeProperties usizeMax (← Machine.sliceFrom data 2)
      return { sessionPresent := flags &&& 0x01 != 0, reasonCode, properties }

def scanPublish (qos : QoS) (retain : Bool) : Scan PublishPacket := do
  let topic ← Machine.string usizeMax
  let properties ← scanProperties usizeMax
  let packetId ← Scanning.readIf (qos != .AtMostOnce) do
    Machine.ensure usizeMax 2 (.InvalidPacket "Missing packet ID in PUBLISH")
    Machine.u16 usizeMax
  let payload ← Scan.takeRest
  return { topic, payload, qos, retain, packetId, properties }

def decodePublish (data : Bytes) (fixedHeader : UInt8) : MqttResult PublishPacket := do
  let qos ← okOr (QoS.fromU8 ((fixedHeader >>> 1) &&& 0x03)) (.InvalidPacket "Invalid QoS")
  let retain := fixedHeader &&& 0x01 != 0
  (scanPublish usizeMax qos retain).runOn data

/-- The reason code at `start`, if there is one, and the properties after it, if there are any. -/
def decodeReason (data : Bytes) (start : ℕ) : MqttResult ReasonPacket := do
  let code ← if data.length > start then some <$> Machine.index data start else .ok none
  let reasonCode := (code.bind ReasonCode.fromU8).getD .Success
  let (properties, _) ←
    if data.length > start + 1 then decodeProperties usizeMax (← Machine.sliceFrom data (start + 1))
    else .ok (Properties.new, 0)
  return { reasonCode, properties }

/-- `decode_puback`, `decode_pubrec`, `decode_pubrel` and `decode_pubcomp` -/
def decodeAck (name : String) (data : Bytes) : MqttResult AckPacket :=
  if data.length < 2 then err (.InvalidPacket (name ++ " too short"))
  else do
    let hi ← Machine.index data 0
    let lo ← Machine.index data 1
    let reason ← decodeReason usizeMax data 2
    return { packetId := u16FromBeBytes hi lo, reasonCode := reason.reasonCode, properties := reason.properties }

def scanSubscribeFilter : Scan SubscribeFilter := do
  let path ← Machine.string usizeMax
  Machine.ensure usizeMax 1 (.InvalidPacket "Missing subscription options")
  let options ← Machine.next usizeMax
  let qos ← Scan.okOr (QoS.fromU8 (options &&& 0x03)) (.InvalidPacket "Invalid QoS in SUBSCRIBE")
  let noLocal := options &&& 0x04 != 0
  let retainAsPublished := options &&& 0x08 != 0
  let retainHandling := (RetainHandling.fromU8 ((options >>> 4) &&& 0x03)).getD .Send
  return { path, qos, noLocal, retainAsPublished, retainHandling }

def scanFilters {α : Type} (item : Scan α) (tooShort : String) : Scan (PacketId × List α × Properties) := do
  Machine.ensure usizeMax 2 (.InvalidPacket tooShort)
  let packetId ← Machine.u16 usizeMax
  let properties ← scanProperties usizeMax
  let filters ← Scan.whileData item
  return (packetId, filters, properties)

def decodeSubscribe (data : Bytes) : MqttResult SubscribePacket := do
  let (packetId, filters, properties) ←
    (scanFilters usizeMax (scanSubscribeFilter usizeMax) "SUBSCRIBE too short").runOn data
  return { packetId, filters, properties }

def decodeUnsubscribe (data : Bytes) : MqttResult UnsubscribePacket := do
  let (packetId, filters, properties) ←
    (scanFilters usizeMax (Machine.string usizeMax) "UNSUBSCRIBE too short").runOn data
  return { packetId, filters, properties }

/-- `decode_suback` and `decode_unsuback` -/
def decodeCodes (name : String) (data : Bytes) : MqttResult SubAckPacket :=
  Scan.runOn (do
    Machine.ensure usizeMax 2 (.InvalidPacket (name ++ " too short"))
    let packetId ← Machine.u16 usizeMax
    let properties ← scanProperties usizeMax
    let codes ← Scan.takeRest
    return { packetId, reasonCodes := codes.filterMap ReasonCode.fromU8, properties }) data

def decodeAuth (data : Bytes) : MqttResult ReasonPacket :=
  if data.isEmpty then err (.InvalidPacket "AUTH too short")
  else do
    let code ← Machine.index data 0
    let reasonCode ← okOr (ReasonCode.fromU8 code)
      (.InvalidPacket ("Unknown AUTH reason code: " ++ toString code.toNat))
    let (properties, _) ← decodeProperties usizeMax (← Machine.sliceFrom data 1)
    return { reasonCode, properties }

def decodeBody (packetType : PacketType) (packetData : Bytes) (fixedHeader : UInt8) : MqttResult MqttPacketV5 :=
  match packetType with
  | .Connect => .Connect <$> (scanConnect usizeMax).runOn packetData
  | .ConnAck => .ConnAck <$> decodeConnack usizeMax packetData
  | .Publish => .Publish <$> decodePublish usizeMax packetData fixedHeader
  | .PubAck => .PubAck <$> decodeAck usizeMax "PUBACK" packetData
  | .PubRec => .PubRec <$> decodeAck usizeMax "PUBREC" packetData
  | .PubRel => .PubRel <$> decodeAck usizeMax "PUBREL" packetData
  | .PubComp => .PubComp <$> decodeAck usizeMax "PUBCOMP" packetData
  | .Subscribe => .Subscribe <$> decodeSubscribe usizeMax packetData
  | .SubAck => .SubAck <$> decodeCodes usizeMax "SUBACK" packetData
  | .Unsubscribe => .Unsubscribe <$> decodeUnsubscribe usizeMax packetData
  | .UnsubAck => .UnsubAck <$> decodeCodes usizeMax "UNSUBACK" packetData
  | .PingReq => .ok .PingReq
  | .PingResp => .ok .PingResp
  | .Disconnect => .Disconnect <$> decodeReason usizeMax packetData 0
  | .Auth => .Auth <$> decodeAuth usizeMax packetData

def decodePacket (src : Bytes) : MqttResult (Option (MqttPacketV5 × ℕ)) :=
  Machine.decodeFrame usizeMax MAX_PACKET_SIZE (decodeBody usizeMax) src

end
end V5.Machine

namespace Machine

section
variable (usizeMax : ℕ)

def decodeFirstPacket (buf : Bytes) : MqttResult (Option MqttPacket) :=
  if buf.length < 2 then .ok none
  else do
    let (remainingLen, lenBytes) ← decodeRemainingLength usizeMax (← sliceFrom buf 1)
    let head ← add usizeMax 1 lenBytes
    let totalLen ← add usizeMax head remainingLen
    if buf.length < totalLen then .ok none
    else do
      let hdr ← sliceFrom buf head
      if hdr.length < 8 then err (.InvalidPacket "CONNECT packet too short")
      else do
        let protocolLevel ← index hdr 6
        match protocolLevel.toNat with
        | 4 => firstPacket (V3.Machine.decodePacket usizeMax buf) .V311
        | 5 => firstPacket (V5.Machine.decodePacket usizeMax buf) .V5
        | _ => err (.UnsupportedVersion protocolLevel)

def decodeConnect (codec : MqttCodec) (src : Bytes) : MqttResult (Option MqttPacket) :=
  if src.length < 10 then .ok none
  else do
    let (_, lenBytes) ← decodeRemainingLength usizeMax (← sliceFrom src 1)
    if src.length < (← add usizeMax 1 lenBytes) then .ok none
    else do
      let (remaining, lenBytes) ← decodeRemainingLength usizeMax (← sliceFrom src 1)
      let head ← add usizeMax 1 lenBytes
      let totalLen ← add usizeMax head remaining
      if src.length < totalLen then .ok none
      else if totalLen > codec.maxPacketSize then err (.PacketTooLarge totalLen)
      else do
        let protocolData ← sliceFrom src head
        if protocolData.length < 7 then err (.InvalidPacket "CONNECT packet too short")
        else do
          let protocolLevel ← index protocolData 6
          match protocolLevel.toNat with
          | 4 => connectPacket "3.1.1" (V3.Machine.decodePacket usizeMax src) .V311
          | 5 => connectPacket "5.0" (V5.Machine.decodePacket usizeMax src) .V5
          | _ => err (.UnsupportedVersion protocolLevel)

def decode (codec : MqttCodec) (src : Bytes) : MqttResult (Option MqttPacket) :=
  if src.isEmpty then .ok none
  else do
    let fixedHeader ← index src 0
    let packetType ← okOr (PacketType.fromU8 fixedHeader)
      (.InvalidPacket ("Unknown packet type: 0x" ++ hexByte fixedHeader))
    if packetType == .Connect then decodeConnect usizeMax codec src
    else
      match (← unwrapOrNone (V3.Machine.decodePacket usizeMax src)) with
      | some (p, _) => return some (.V311 p)
      | none =>
        match (← unwrapOrNone (V5.Machine.decodePacket usizeMax src)) with
        | some (p, _) => return some (.V5 p)
        | none => return none

def decodePacketByVersion (buf : Bytes) (version : ProtocolVersion) : MqttResult (Option (MqttPacket × ℕ)) :=
  if buf.isEmpty then .ok none
  else
    match version with
    | .V311 => Option.map (fun (p, s) => (.V311 p, s)) <$> V3.Machine.decodePacket usizeMax buf
    | .V5 => Option.map (fun (p, s) => (.V5 p, s)) <$> V5.Machine.decodePacket usizeMax buf

/-- `buf.advance(size)` -/
def advance (buf : Bytes) (size : ℕ) : MqttResult Bytes :=
  if size ≤ buf.length then .ok (buf.drop size) else .error .panic

/-- The turns of a handler's loop on what its buffer holds: the packets, and the bytes of which more are needed. Each turn
    is a unit of fuel. -/
def drain (version : ProtocolVersion) : ℕ → Bytes → MqttResult (List MqttPacket × Bytes)
  | 0, _ => .error .stuck
  | fuel + 1, buf => do
    match (← decodePacketByVersion usizeMax buf version) with
    | some (packet, size) =>
      let (packets, rest) ← drain version fuel (← advance buf size)
      return (packet :: packets, rest)
    | none => return ([], buf)

end
end Machine
end AtomMqtt
