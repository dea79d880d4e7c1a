import AtomMqtt.V5Properties

set_option autoImplicit false

/-! MQTT 5.0 packets, their decoders and encoders. -/
namespace AtomMqtt.V5

abbrev PacketId := UInt16

inductive ReasonCode where
  | Success | GrantedQoS1 | GrantedQoS2 | DisconnectWithWillMessage | NoMatchingSubscribers
  | NoSubscriptionExisted | ContinueAuthentication | ReAuthenticate | UnspecifiedError | MalformedPacket
  | ProtocolError | ImplementationSpecificError | UnsupportedProtocolVersion | ClientIdentifierNotValid
  | BadUserNameOrPassword | NotAuthorized | ServerUnavailable | ServerBusy | Banned | ServerShuttingDown
  | BadAuthenticationMethod | KeepAliveTimeout | SessionTakenOver | TopicFilterInvalid | TopicNameInvalid
  | PacketIdentifierInUse | PacketIdentifierNotFound | ReceiveMaximumExceeded | TopicAliasInvalid
  | PacketTooLarge | MessageRateTooHigh | QuotaExceeded | AdministrativeAction | PayloadFormatInvalid
  | RetainNotSupported | QoSNotSupported | UseAnotherServer | ServerMoved | SharedSubscriptionsNotSupported
  | ConnectionRateExceeded | MaximumConnectTime | SubscriptionIdentifiersNotSupported
  | WildcardSubscriptionsNotSupported
  deriving DecidableEq, Repr

def ReasonCode.toU8 : ReasonCode → UInt8
  | .Success => 0
  | .GrantedQoS1 => 1
  | .GrantedQoS2 => 2
  | .DisconnectWithWillMessage => 4
  | .NoMatchingSubscribers => 16
  | .NoSubscriptionExisted => 17
  | .ContinueAuthentication => 24
  | .ReAuthenticate => 25
  | .UnspecifiedError => 128
  | .MalformedPacket => 129
  | .ProtocolError => 130
  | .ImplementationSpecificError => 131
  | .UnsupportedProtocolVersion => 132
  | .ClientIdentifierNotValid => 133
  | .BadUserNameOrPassword => 134
  | .NotAuthorized => 135
  | .ServerUnavailable => 136
  | .ServerBusy => 137
  | .Banned => 138
  | .ServerShuttingDown => 139
  | .BadAuthenticationMethod => 140
  | .KeepAliveTimeout => 141
  | .SessionTakenOver => 142
  | .TopicFilterInvalid => 143
  | .TopicNameInvalid => 144
  | .PacketIdentifierInUse => 145
  | .PacketIdentifierNotFound => 146
  | .ReceiveMaximumExceeded => 147
  | .TopicAliasInvalid => 148
  | .PacketTooLarge => 149
  | .MessageRateTooHigh => 150
  | .QuotaExceeded => 151
  | .AdministrativeAction => 152
  | .PayloadFormatInvalid => 153
  | .RetainNotSupported => 154
  | .QoSNotSupported => 155
  | .UseAnotherServer => 156
  | .ServerMoved => 157
  | .SharedSubscriptionsNotSupported => 158
  | .ConnectionRateExceeded => 159
  | .MaximumConnectTime => 160
  | .SubscriptionIdentifiersNotSupported => 161
  | .WildcardSubscriptionsNotSupported => 162

def ReasonCode.fromU8 (v : UInt8) : Option ReasonCode :=
  match v.toNat with
  | 0 => some .Success
  | 1 => some .GrantedQoS1
  | 2 => some .GrantedQoS2
  | 4 => some .DisconnectWithWillMessage
  | 16 => some .NoMatchingSubscribers
  | 17 => some .NoSubscriptionExisted
  | 24 => some .ContinueAuthentication
  | 25 => some .ReAuthenticate
  | 128 => some .UnspecifiedError
  | 129 => some .MalformedPacket
  | 130 => some .ProtocolError
  | 131 => some .ImplementationSpecificError
  | 132 => some .UnsupportedProtocolVersion
  | 133 => some .ClientIdentifierNotValid
  | 134 => some .BadUserNameOrPassword
  | 135 => some .NotAuthorized
  | 136 => some .ServerUnavailable
  | 137 => some .ServerBusy
  | 138 => some .Banned
  | 139 => some .ServerShuttingDown
  | 140 => some .BadAuthenticationMethod
  | 141 => some .KeepAliveTimeout
  | 142 => some .SessionTakenOver
  | 143 => some .TopicFilterInvalid
  | 144 => some .TopicNameInvalid
  | 145 => some .PacketIdentifierInUse
  | 146 => some .PacketIdentifierNotFound
  | 147 => some .ReceiveMaximumExceeded
  | 148 => some .TopicAliasInvalid
  | 149 => some .PacketTooLarge
  | 150 => some .MessageRateTooHigh
  | 151 => some .QuotaExceeded
  | 152 => some .AdministrativeAction
  | 153 => some .PayloadFormatInvalid
  | 154 => some .RetainNotSupported
  | 155 => some .QoSNotSupported
  | 156 => some .UseAnotherServer
  | 157 => some .ServerMoved
  | 158 => some .SharedSubscriptionsNotSupported
  | 159 => some .ConnectionRateExceeded
  | 160 => some .MaximumConnectTime
  | 161 => some .SubscriptionIdentifiersNotSupported
  | 162 => some .WildcardSubscriptionsNotSupported
  | _ => none

structure Will where
  topic : String
  payload : Bytes
  qos : QoS
  retain : Bool
  properties : Properties
  delayInterval : UInt32
  deriving DecidableEq, Repr

structure ConnectPacket where
  clientId : String
  cleanStart : Bool
  keepAlive : UInt16
  properties : Properties
  will : Option Will
  username : Option String
  password : Option String
  deriving DecidableEq, Repr

structure ConnAckPacket where
  sessionPresent : Bool
  reasonCode : ReasonCode
  properties : Properties
  deriving DecidableEq, Repr

structure PublishPacket where
  topic : String
  payload : Bytes
  qos : QoS
  retain : Bool
  packetId : Option PacketId
  properties : Properties
  deriving DecidableEq, Repr

/-- `PubAckPacket`, `PubRecPacket`, `PubRelPacket` and `PubCompPacket` -/
structure AckPacket where
  packetId : PacketId
  reasonCode : ReasonCode
  properties : Properties
  deriving DecidableEq, Repr

inductive RetainHandling where
  | Send
  | SendIfNew
  | DoNotSend
  deriving DecidableEq, Repr

def RetainHandling.fromU8 (v : UInt8) : Option RetainHandling :=
  match (v &&& 0x03).toNat with
  | 0 => some .Send
  | 1 => some .SendIfNew
  | 2 => some .DoNotSend
  | _ => none

def RetainHandling.toU8 : RetainHandling → UInt8
  | .Send => 0
  | .SendIfNew => 1
  | .DoNotSend => 2

structure SubscribeFilter where
  path : String
  qos : QoS
  noLocal : Bool
  retainAsPublished : Bool
  retainHandling : RetainHandling
  deriving DecidableEq, Repr

structure SubscribePacket where
  packetId : PacketId
  filters : List SubscribeFilter
  properties : Properties
  deriving DecidableEq, Repr

/-- `SubAckPacket` and `UnsubAckPacket` -/
structure SubAckPacket where
  packetId : PacketId
  reasonCodes : List ReasonCode
  properties : Properties
  deriving DecidableEq, Repr

structure UnsubscribePacket where
  packetId : PacketId
  filters : List String
  properties : Properties
  deriving DecidableEq, Repr

/-- `DisconnectPacket` and `AuthPacket` -/
structure ReasonPacket where
  reasonCode : ReasonCode
  properties : Properties
  deriving DecidableEq, Repr

inductive MqttPacketV5 where
  | Connect (p : ConnectPacket)
  | ConnAck (p : ConnAckPacket)
  | Publish (p : PublishPacket)
  | PubAck (p : AckPacket)
  | PubRec (p : AckPacket)
  | PubRel (p : AckPacket)
  | PubComp (p : AckPacket)
  | Subscribe (p : SubscribePacket)
  | SubAck (p : SubAckPacket)
  | Unsubscribe (p : UnsubscribePacket)
  | UnsubAck (p : SubAckPacket)
  | PingReq
  | PingResp
  | Disconnect (p : ReasonPacket)
  | Auth (p : ReasonPacket)
  deriving DecidableEq, Repr

def MAX_PACKET_SIZE : ℕ := 10 * 1024 * 1024

/-- `Properties::decode(&data[pos..])?` -/
def scanProperties : Scan Properties := Scan.onRest Properties.decode

def decodeWill (willQos : QoS) (willRetain : Bool) : Scan Will := do
  let properties ← scanProperties
  let delayInterval := properties.willDelayInterval.getD 0
  let topic ← Scan.string
  let payload ← willPayload "Missing will payload length" "Will payload truncated"
  return { topic, payload, qos := willQos, retain := willRetain, properties, delayInterval }

def scanConnect : Scan ConnectPacket := do
  let _protocolName ← Scan.string
  Scan.ensure 1 (.InvalidPacket "Missing protocol level")
  let protocolLevel ← Scan.next
  Scan.reject (protocolLevel != 5) (.UnsupportedVersion protocolLevel)
  Scan.ensure 1 (.InvalidPacket "Missing connect flags")
  let connectFlags ← Scan.next
  let cleanStart := connectFlags &&& 0x02 != 0
  let willFlag := connectFlags &&& 0x04 != 0
  let willQos := (QoS.fromU8 ((connectFlags >>> 3) &&& 0x03)).getD .AtMostOnce
  let willRetain := connectFlags &&& 0x20 != 0
  let passwordFlag := connectFlags &&& 0x40 != 0
  let usernameFlag := connectFlags &&& 0x80 != 0
  Scan.ensure 2 (.InvalidPacket "Missing keep alive")
  let keepAlive ← Scan.u16
  let properties ← scanProperties
  let clientId ← Scan.string
  let will ← Scanning.readIf willFlag (decodeWill willQos willRetain)
  let username ← Scanning.readIf usernameFlag Scan.string
  let password ← Scanning.readIf passwordFlag Scan.string
  return { clientId, cleanStart, keepAlive, properties, will, username, password }

def decodeConnect (data : Bytes) (_fixedHeader : UInt8) : MqttResult ConnectPacket := scanConnect.runOn data

def encodeWill (will : Will) : Bytes :=
  will.properties.encode ++ (encodeString will.topic ++
    (u16ToBeBytes (UInt16.ofNat will.payload.length) ++ will.payload))

def connectRemaining (packet : ConnectPacket) : Bytes :=
  let flags := connectFlags packet.cleanStart (packet.will.map fun w => (w.qos, w.retain))
    packet.password.isSome packet.username.isSome
  let variableHeader := (0x00 :: 0x04 :: asBytes "MQTT") ++
    ([0x05] ++ ([flags] ++ (u16ToBeBytes packet.keepAlive ++ packet.properties.encode)))
  let payload := encodeString packet.clientId ++ (packet.will.elim [] encodeWill ++
    (packet.username.elim [] encodeString ++ packet.password.elim [] encodeString))
  variableHeader ++ payload

def encodeConnect (packet : ConnectPacket) : MqttResult Bytes :=
  .ok (frame PacketType.Connect.toU8 (connectRemaining packet))

def decodeConnack (data : Bytes) (_fixedHeader : UInt8) : MqttResult ConnAckPacket :=
  match data with
  | [] => err (.InvalidPacket "CONNACK too short")
  | [_] => err (.InvalidPacket "CONNACK missing reason code")
  | flags :: code :: rest => do
    let reasonCode ← okOr (ReasonCode.fromU8 code)
      (.InvalidPacket ("Unknown reason code: " ++ toString code.toNat))
    let (properties, _) ← Properties.decode rest
    return { sessionPresent := flags &&& 0x01 != 0, reasonCode, properties }

def encodeConnack (packet : ConnAckPacket) : MqttResult Bytes :=
  .ok (frame PacketType.ConnAck.toU8 ((if packet.sessionPresent then 0x01 else 0x00) ::
    packet.reasonCode.toU8 :: packet.properties.encode))

def scanPublish (qos : QoS) (retain : Bool) : Scan PublishPacket := do
  let topic ← Scan.string
  let properties ← scanProperties
  let packetId ← Scanning.readIf (qos != .AtMostOnce) do
    Scan.ensure 2 (.InvalidPacket "Missing packet ID in PUBLISH")
    Scan.u16
  let payload ← Scan.takeRest
  return { topic, payload, qos, retain, packetId, properties }

def decodePublish (data : Bytes) (fixedHeader : UInt8) : MqttResult PublishPacket := do
  let qos ← okOr (QoS.fromU8 ((fixedHeader >>> 1) &&& 0x03)) (.InvalidPacket "Invalid QoS")
  let retain := fixedHeader &&& 0x01 != 0
  (scanPublish qos retain).runOn data

/-- The packet id is written only together with a QoS above 0. -/
def PublishPacket.sentId (packet : PublishPacket) : Option PacketId :=
  if packet.qos != .AtMostOnce then packet.packetId else none

def encodePublish (packet : PublishPacket) : MqttResult Bytes :=
  .ok (frame (publishFixedByte packet.qos packet.retain false)
    (encodeString packet.topic ++ (packet.properties.encode ++
      (packet.sentId.elim [] u16ToBeBytes ++ packet.payload))))

/-- A reason code, `Success` if it is left out or unknown, and the properties after it if any. -/
def decodeReason (data : Bytes) : MqttResult ReasonPacket := do
  let reasonCode := match data with
    | [] => ReasonCode.Success
    | code :: _ => (ReasonCode.fromU8 code).getD .Success
  let (properties, _) ← if data.length > 1 then Properties.decode (data.drop 1) else .ok (Properties.new, 0)
  return { reasonCode, properties }

/-- The four decoders differ in the name in their error only. -/
def decodeAck (name : String) (data : Bytes) : MqttResult AckPacket :=
  match data with
  | hi :: lo :: rest => do
    let reason ← decodeReason rest
    return { packetId := u16FromBeBytes hi lo, reasonCode := reason.reasonCode, properties := reason.properties }
  | _ => err (.InvalidPacket (name ++ " too short"))

def decodePuback (data : Bytes) : MqttResult AckPacket := decodeAck "PUBACK" data
def decodePubrec (data : Bytes) : MqttResult AckPacket := decodeAck "PUBREC" data
def decodePubrel (data : Bytes) : MqttResult AckPacket := decodeAck "PUBREL" data
def decodePubcomp (data : Bytes) : MqttResult AckPacket := decodeAck "PUBCOMP" data

def encodeAck (fixedByte : UInt8) (packet : AckPacket) : MqttResult Bytes :=
  .ok (frame fixedByte (u16ToBeBytes packet.packetId ++ (packet.reasonCode.toU8 :: packet.properties.encode)))

def encodePuback (packet : AckPacket) : MqttResult Bytes := encodeAck PacketType.PubAck.toU8 packet
def encodePubrec (packet : AckPacket) : MqttResult Bytes := encodeAck PacketType.PubRec.toU8 packet
def encodePubrel (packet : AckPacket) : MqttResult Bytes := encodeAck (PacketType.PubRel.toU8 ||| 0x02) packet
def encodePubcomp (packet : AckPacket) : MqttResult Bytes := encodeAck PacketType.PubComp.toU8 packet

def scanSubscribeFilter : Scan SubscribeFilter := do
  let path ← Scan.string
  Scan.ensure 1 (.InvalidPacket "Missing subscription options")
  let options ← Scan.next
  let qos ← Scan.okOr (QoS.fromU8 (options &&& 0x03)) (.InvalidPacket "Invalid QoS in SUBSCRIBE")
  let noLocal := options &&& 0x04 != 0
  let retainAsPublished := options &&& 0x08 != 0
  let retainHandling := (RetainHandling.fromU8 ((options >>> 4) &&& 0x03)).getD .Send
  return { path, qos, noLocal, retainAsPublished, retainHandling }

/-- SUBSCRIBE and UNSUBSCRIBE: the packet id, the properties, then the filters up to the end. -/
def scanFilters {α : Type} (item : Scan α) (tooShort : String) : Scan (PacketId × List α × Properties) := do
  Scan.ensure 2 (.InvalidPacket tooShort)
  let packetId ← Scan.u16
  let properties ← scanProperties
  let filters ← Scan.whileData item
  return (packetId, filters, properties)

def decodeSubscribe (data : Bytes) : MqttResult SubscribePacket := do
  let (packetId, filters, properties) ← (scanFilters scanSubscribeFilter "SUBSCRIBE too short").runOn data
  return { packetId, filters, properties }

def subscribeOptions (qos : QoS) (noLocal retainAsPublished : Bool) (retainHandling : RetainHandling) : UInt8 :=
  let options := qos.toU8
  let options := if noLocal then options ||| (0x04 : UInt8) else options
  let options := if retainAsPublished then options ||| (0x08 : UInt8) else options
  options ||| (retainHandling.toU8 <<< (4 : UInt8))

def encodeSubscribeFilter (filter : SubscribeFilter) : Bytes :=
  encodeString filter.path ++
    [subscribeOptions filter.qos filter.noLocal filter.retainAsPublished filter.retainHandling]

def encodeSubscribe (packet : SubscribePacket) : MqttResult Bytes :=
  .ok (frame (PacketType.Subscribe.toU8 ||| 0x02) (u16ToBeBytes packet.packetId ++
    (packet.properties.encode ++ packet.filters.flatMap encodeSubscribeFilter)))

/-- A byte that is no reason code is left out. The two decoders differ in the name in their error. -/
def decodeCodes (name : String) (data : Bytes) : MqttResult SubAckPacket :=
  Scan.runOn (do
    Scan.ensure 2 (.InvalidPacket (name ++ " too short"))
    let packetId ← Scan.u16
    let properties ← scanProperties
    let codes ← Scan.takeRest
    return { packetId, reasonCodes := codes.filterMap ReasonCode.fromU8, properties }) data

def decodeSuback (data : Bytes) : MqttResult SubAckPacket := decodeCodes "SUBACK" data
def decodeUnsuback (data : Bytes) : MqttResult SubAckPacket := decodeCodes "UNSUBACK" data

def encodeCodes (fixedByte : UInt8) (packet : SubAckPacket) : MqttResult Bytes :=
  .ok (frame fixedByte (u16ToBeBytes packet.packetId ++
    (packet.properties.encode ++ packet.reasonCodes.map ReasonCode.toU8)))

def encodeSuback (packet : SubAckPacket) : MqttResult Bytes := encodeCodes PacketType.SubAck.toU8 packet
def encodeUnsuback (packet : SubAckPacket) : MqttResult Bytes := encodeCodes PacketType.UnsubAck.toU8 packet

def decodeUnsubscribe (data : Bytes) : MqttResult UnsubscribePacket := do
  let (packetId, filters, properties) ← (scanFilters Scan.string "UNSUBSCRIBE too short").runOn data
  return { packetId, filters, properties }

def encodeUnsubscribe (packet : UnsubscribePacket) : MqttResult Bytes :=
  .ok (frame (PacketType.Unsubscribe.toU8 ||| 0x02) (u16ToBeBytes packet.packetId ++
    (packet.properties.encode ++ packet.filters.flatMap encodeString)))

def encodePingreq : MqttResult Bytes := .ok [PacketType.PingReq.toU8, 0x00]
def encodePingresp : MqttResult Bytes := .ok [PacketType.PingResp.toU8, 0x00]

def decodeDisconnect (data : Bytes) : MqttResult ReasonPacket := decodeReason data

def decodeAuth (data : Bytes) : MqttResult ReasonPacket :=
  match data with
  | [] => err (.InvalidPacket "AUTH too short")
  | code :: rest => do
    let reasonCode ← okOr (ReasonCode.fromU8 code)
      (.InvalidPacket ("Unknown AUTH reason code: " ++ toString code.toNat))
    let (properties, _) ← Properties.decode rest
    return { reasonCode, properties }

def encodeReason (fixedByte : UInt8) (packet : ReasonPacket) : MqttResult Bytes :=
  .ok (frame fixedByte (packet.reasonCode.toU8 :: packet.properties.encode))

def encodeDisconnect (packet : ReasonPacket) : MqttResult Bytes := encodeReason PacketType.Disconnect.toU8 packet
def encodeAuth (packet : ReasonPacket) : MqttResult Bytes := encodeReason PacketType.Auth.toU8 packet

def decodeBody (packetType : PacketType) (packetData : Bytes) (fixedHeader : UInt8) : MqttResult MqttPacketV5 :=
  match packetType with
  | .Connect => .Connect <$> decodeConnect packetData fixedHeader
  | .ConnAck => .ConnAck <$> decodeConnack packetData fixedHeader
  | .Publish => .Publish <$> decodePublish packetData fixedHeader
  | .PubAck => .PubAck <$> decodePuback packetData
  | .PubRec => .PubRec <$> decodePubrec packetData
  | .PubRel => .PubRel <$> decodePubrel packetData
  | .PubComp => .PubComp <$> decodePubcomp packetData
  | .Subscribe => .Subscribe <$> decodeSubscribe packetData
  | .SubAck => .SubAck <$> decodeSuback packetData
  | .Unsubscribe => .Unsubscribe <$> decodeUnsubscribe packetData
  | .UnsubAck => .UnsubAck <$> decodeUnsuback packetData
  | .PingReq => .ok .PingReq
  | .PingResp => .ok .PingResp
  | .Disconnect => .Disconnect <$> decodeDisconnect packetData
  | .Auth => .Auth <$> decodeAuth packetData

def decodePacket (src : Bytes) : MqttResult (Option (MqttPacketV5 × ℕ)) :=
  decodeFrame MAX_PACKET_SIZE decodeBody src

def encodePacket : MqttPacketV5 → MqttResult Bytes
  | .Connect p => encodeConnect p
  | .ConnAck p => encodeConnack p
  | .Publish p => encodePublish p
  | .PubAck p => encodePuback p
  | .PubRec p => encodePubrec p
  | .PubRel p => encodePubrel p
  | .PubComp p => encodePubcomp p
  | .Subscribe p => encodeSubscribe p
  | .SubAck p => encodeSuback p
  | .Unsubscribe p => encodeUnsubscribe p
  | .UnsubAck p => encodeUnsuback p
  | .PingReq => encodePingreq
  | .PingResp => encodePingresp
  | .Disconnect p => encodeDisconnect p
  | .Auth p => encodeAuth p

end AtomMqtt.V5
