import AtomMqtt.Common

set_option autoImplicit false

/-! MQTT 3.1.1 packets, their decoders and encoders. -/
namespace AtomMqtt.V3

abbrev PacketId := UInt16

structure Will where
  topic : String
  message : Bytes
  qos : QoS
  retain : Bool
  deriving DecidableEq, Repr

structure ConnectPacket where
  clientId : String
  cleanSession : Bool
  keepAlive : UInt16
  will : Option Will
  username : Option String
  password : Option String
  deriving DecidableEq, Repr

inductive ConnectReturnCode where
  | Accepted
  | UnacceptableProtocolVersion
  | IdentifierRejected
  | ServerUnavailable
  | BadUsernameOrPassword
  | NotAuthorized
  deriving DecidableEq, Repr

def ConnectReturnCode.fromU8 (v : UInt8) : Option ConnectReturnCode :=
  match v.toNat with
  | 0 => some .Accepted
  | 1 => some .UnacceptableProtocolVersion
  | 2 => some .IdentifierRejected
  | 3 => some .ServerUnavailable
  | 4 => some .BadUsernameOrPassword
  | 5 => some .NotAuthorized
  | _ => none

def ConnectReturnCode.toU8 : ConnectReturnCode → UInt8
  | .Accepted => 0
  | .UnacceptableProtocolVersion => 1
  | .IdentifierRejected => 2
  | .ServerUnavailable => 3
  | .BadUsernameOrPassword => 4
  | .NotAuthorized => 5

structure ConnAckPacket where
  sessionPresent : Bool
  returnCode : ConnectReturnCode
  deriving DecidableEq, Repr

structure PublishPacket where
  topic : String
  payload : Bytes
  qos : QoS
  retain : Bool
  packetId : Option PacketId
  deriving DecidableEq, Repr

/-- `PubAckPacket`, `PubRecPacket`, `PubRelPacket`, `PubCompPacket` and `UnsubAckPacket` -/
structure AckPacket where
  packetId : PacketId
  deriving DecidableEq, Repr

structure SubscribeFilter where
  path : String
  qos : QoS
  deriving DecidableEq, Repr

structure SubscribePacket where
  packetId : PacketId
  filters : List SubscribeFilter
  deriving DecidableEq, Repr

inductive SubAckReturnCode where
  | SuccessQoS0
  | SuccessQoS1
  | SuccessQoS2
  | Failure
  deriving DecidableEq, Repr

def SubAckReturnCode.fromU8 (v : UInt8) : Option SubAckReturnCode :=
  match v.toNat with
  | 0 => some .SuccessQoS0
  | 1 => some .SuccessQoS1
  | 2 => some .SuccessQoS2
  | 0x80 => some .Failure
  | _ => none

def SubAckReturnCode.toU8 : SubAckReturnCode → UInt8
  | .SuccessQoS0 => 0
  | .SuccessQoS1 => 1
  | .SuccessQoS2 => 2
  | .Failure => 0x80

structure SubAckPacket where
  packetId : PacketId
  returnCodes : List SubAckReturnCode
  deriving DecidableEq, Repr

structure UnsubscribePacket where
  packetId : PacketId
  filters : List String
  deriving DecidableEq, Repr

inductive MqttPacketV3 where
  | Connect (p : ConnectPacket)
  | ConnAck (p : ConnAckPacket)
  | Publish (p : PublishPacket)
  | PubAck (p : AckPacket)
  | PubRec (p : AckPacket)
  | PubRel (p : AckPacket)
  | PubComp (p : AckPacket)
  | Subscribe (p : SubscribePacket)
  | SubAck (p : SubAckPacket)
  | Unsubscribe (p : UnsubscribePacket)
  | UnsubAck (p : AckPacket)
  | PingReq
  | PingResp
  | Disconnect
  deriving DecidableEq, Repr

def MAX_PACKET_SIZE : ℕ := 10 * 1024 * 1024

def decodeWill (willQos : QoS) (willRetain : Bool) : Scan Will := do
  let topic ← Scan.string
  let message ← willPayload "Missing will message length" "Will message truncated"
  return { topic, message, qos := willQos, retain := willRetain }

def scanConnect : Scan ConnectPacket := do
  let _protocolName ← Scan.string
  Scan.ensure 1 (.InvalidPacket "Missing protocol level")
  let protocolLevel ← Scan.next
  Scan.reject (protocolLevel != 4) (.UnsupportedVersion protocolLevel)
  Scan.ensure 1 (.InvalidPacket "Missing connect flags")
  let connectFlags ← Scan.next
  let cleanSession := connectFlags &&& 0x02 != 0
  let willFlag := connectFlags &&& 0x04 != 0
  let willQos := (QoS.fromU8 ((connectFlags >>> 3) &&& 0x03)).getD .AtMostOnce
  let willRetain := connectFlags &&& 0x20 != 0
  let passwordFlag := connectFlags &&& 0x40 != 0
  let usernameFlag := connectFlags &&& 0x80 != 0
  Scan.ensure 2 (.InvalidPacket "Missing keep alive")
  let keepAlive ← Scan.u16
  let clientId ← Scan.string
  let will ← Scanning.readIf willFlag (decodeWill willQos willRetain)
  let username ← Scanning.readIf usernameFlag Scan.string
  let password ← Scanning.readIf passwordFlag Scan.string
  return { clientId, cleanSession, keepAlive, will, username, password }

def decodeConnect (data : Bytes) (_fixedHeader : UInt8) : MqttResult ConnectPacket := scanConnect.runOn data

def encodeWill (will : Will) : Bytes :=
  encodeString will.topic ++ (u16ToBeBytes (UInt16.ofNat will.message.length) ++ will.message)

def connectRemaining (packet : ConnectPacket) : Bytes :=
  let flags := connectFlags packet.cleanSession (packet.will.map fun w => (w.qos, w.retain))
    packet.password.isSome packet.username.isSome
  let variableHeader := (0x00 :: 0x04 :: asBytes "MQTT") ++ ([0x04] ++ ([flags] ++ u16ToBeBytes packet.keepAlive))
  let payload := encodeString packet.clientId ++ (packet.will.elim [] encodeWill ++
    (packet.username.elim [] encodeString ++ packet.password.elim [] encodeString))
  variableHeader ++ payload

def encodeConnect (packet : ConnectPacket) : MqttResult Bytes :=
  .ok (frame PacketType.Connect.toU8 (connectRemaining packet))

def decodeConnack (data : Bytes) (_fixedHeader : UInt8) : MqttResult ConnAckPacket :=
  match data with
  | flags :: code :: _ => do
    let returnCode ← okOr (ConnectReturnCode.fromU8 code)
      (.InvalidPacket ("Unknown CONNACK return code: " ++ toString code.toNat))
    return { sessionPresent := flags &&& 0x01 != 0, returnCode }
  | _ => err (.InvalidPacket "CONNACK too short")

def encodeConnack (packet : ConnAckPacket) : MqttResult Bytes :=
  .ok [PacketType.ConnAck.toU8, 0x02, if packet.sessionPresent then 0x01 else 0x00, packet.returnCode.toU8]

def scanPublish (qos : QoS) (retain : Bool) : Scan PublishPacket := do
  let topic ← Scan.string
  let packetId ← Scanning.readIf (qos != .AtMostOnce) do
    Scan.ensure 2 (.InvalidPacket "Missing packet ID in PUBLISH")
    Scan.u16
  let payload ← Scan.takeRest
  return { topic, payload, qos, retain, packetId }

def decodePublish (data : Bytes) (fixedHeader : UInt8) : MqttResult PublishPacket := do
  let qos ← okOr (QoS.fromU8 ((fixedHeader >>> 1) &&& 0x03)) (.InvalidPacket "Invalid QoS")
  let retain := fixedHeader &&& 0x01 != 0
  (scanPublish qos retain).runOn data

/-- The packet id is written only together with a QoS above 0. -/
def PublishPacket.sentId (packet : PublishPacket) : Option PacketId :=
  if packet.qos != .AtMostOnce then packet.packetId else none

def encodePublish (packet : PublishPacket) : MqttResult Bytes :=
  let dup := packet.packetId.isSome && packet.qos != .AtMostOnce
  .ok (frame (publishFixedByte packet.qos packet.retain dup)
    (encodeString packet.topic ++ (packet.sentId.elim [] u16ToBeBytes ++ packet.payload)))

/-- The five decoders differ in the name in their error only. -/
def decodeAck (name : String) (data : Bytes) : MqttResult AckPacket :=
  match data with
  | hi :: lo :: _ => .ok { packetId := u16FromBeBytes hi lo }
  | _ => err (.InvalidPacket (name ++ " too short"))

def decodePuback (data : Bytes) : MqttResult AckPacket := decodeAck "PUBACK" data
def decodePubrec (data : Bytes) : MqttResult AckPacket := decodeAck "PUBREC" data
def decodePubrel (data : Bytes) : MqttResult AckPacket := decodeAck "PUBREL" data
def decodePubcomp (data : Bytes) : MqttResult AckPacket := decodeAck "PUBCOMP" data
def decodeUnsuback (data : Bytes) : MqttResult AckPacket := decodeAck "UNSUBACK" data

def encodeAck (fixedByte : UInt8) (packet : AckPacket) : MqttResult Bytes :=
  .ok (fixedByte :: 0x02 :: u16ToBeBytes packet.packetId)

def encodePuback (packet : AckPacket) : MqttResult Bytes := encodeAck PacketType.PubAck.toU8 packet
def encodePubrec (packet : AckPacket) : MqttResult Bytes := encodeAck PacketType.PubRec.toU8 packet
def encodePubrel (packet : AckPacket) : MqttResult Bytes := encodeAck (PacketType.PubRel.toU8 ||| 0x02) packet
def encodePubcomp (packet : AckPacket) : MqttResult Bytes := encodeAck PacketType.PubComp.toU8 packet
def encodeUnsuback (packet : AckPacket) : MqttResult Bytes := encodeAck PacketType.UnsubAck.toU8 packet

def scanSubscribeFilter : Scan SubscribeFilter := do
  let path ← Scan.string
  Scan.ensure 1 (.InvalidPacket "Missing QoS in SUBSCRIBE")
  let options ← Scan.next
  let qos ← Scan.okOr (QoS.fromU8 (options &&& 0x03)) (.InvalidPacket "Invalid QoS in SUBSCRIBE")
  return { path, qos }

def decodeSubscribe (data : Bytes) : MqttResult SubscribePacket :=
  Scan.runOn (do
    Scan.ensure 2 (.InvalidPacket "SUBSCRIBE too short")
    let packetId ← Scan.u16
    let filters ← Scan.whileData scanSubscribeFilter
    return { packetId, filters }) data

def encodeSubscribeFilter (filter : SubscribeFilter) : Bytes := encodeString filter.path ++ [filter.qos.toU8]

def encodeSubscribe (packet : SubscribePacket) : MqttResult Bytes :=
  .ok (frame (PacketType.Subscribe.toU8 ||| 0x02)
    (u16ToBeBytes packet.packetId ++ packet.filters.flatMap encodeSubscribeFilter))

/-- A byte that is no return code is left out. -/
def decodeSuback (data : Bytes) : MqttResult SubAckPacket :=
  match data with
  | hi :: lo :: codes =>
    .ok { packetId := u16FromBeBytes hi lo, returnCodes := codes.filterMap SubAckReturnCode.fromU8 }
  | _ => err (.InvalidPacket "SUBACK too short")

def encodeSuback (packet : SubAckPacket) : MqttResult Bytes :=
  .ok (frame PacketType.SubAck.toU8
    (u16ToBeBytes packet.packetId ++ packet.returnCodes.map SubAckReturnCode.toU8))

def decodeUnsubscribe (data : Bytes) : MqttResult UnsubscribePacket :=
  Scan.runOn (do
    Scan.ensure 2 (.InvalidPacket "UNSUBSCRIBE too short")
    let packetId ← Scan.u16
    let filters ← Scan.whileData Scan.string
    return { packetId, filters }) data

def encodeUnsubscribe (packet : UnsubscribePacket) : MqttResult Bytes :=
  .ok (frame (PacketType.Unsubscribe.toU8 ||| 0x02)
    (u16ToBeBytes packet.packetId ++ packet.filters.flatMap encodeString))

def encodePingreq : MqttResult Bytes := .ok [PacketType.PingReq.toU8, 0x00]
def encodePingresp : MqttResult Bytes := .ok [PacketType.PingResp.toU8, 0x00]
def encodeDisconnect : MqttResult Bytes := .ok [PacketType.Disconnect.toU8, 0x00]

def decodeBody (packetType : PacketType) (packetData : Bytes) (fixedHeader : UInt8) : MqttResult MqttPacketV3 :=
  match packetType with
  | .Connect => .Connect <$> decodeConnect packetData fixedHeader
  | .ConnAck => .ConnAck <$> decodeConnack packetData fixedHeader
  | .Publish => .Publish <$> decodePublish packetData fixedHeader
  | .PubAck => .PubAck <$> decodePuback packetData
  | .PubRec => .PubRec <$> decodePubrec packetData
  | .PubRel => .PubRel <$> decodePubrel packetData
  | .PubComp => .PubComp <$> decodePubcomp packetData
  | .Subscribe => .Subscribe <$> decodeSubscribe packetData
  | .SubAck => .SubAck <$> decodeSuback packetData
  | .Unsubscribe => .Unsubscribe <$> decodeUnsubscribe packetData
  | .UnsubAck => .UnsubAck <$> decodeUnsuback packetData
  | .PingReq => .ok .PingReq
  | .PingResp => .ok .PingResp
  | .Disconnect => .ok .Disconnect
  | .Auth => err (.InvalidPacket "AUTH not supported in MQTT 3.1.1")

def decodePacket (src : Bytes) : MqttResult (Option (MqttPacketV3 × ℕ)) :=
  decodeFrame MAX_PACKET_SIZE decodeBody src

def encodePacket : MqttPacketV3 → MqttResult Bytes
  | .Connect p => encodeConnect p
  | .ConnAck p => encodeConnack p
  | .Publish p => encodePublish p
  | .PubAck p => encodePuback p
  | .PubRec p => encodePubrec p
  | .PubRel p => encodePubrel p
  | .PubComp p => encodePubcomp p
  | .Subscribe p => encodeSubscribe p
  | .SubAck p => encodeSuback p
  | .Unsubscribe p => encodeUnsubscribe p
  | .UnsubAck p => encodeUnsuback p
  | .PingReq => encodePingreq
  | .PingResp => encodePingresp
  | .Disconnect => encodeDisconnect

end AtomMqtt.V3
