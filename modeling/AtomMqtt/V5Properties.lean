import AtomMqtt.Common

set_option autoImplicit false

/-! MQTT 5.0 properties. -/
namespace AtomMqtt

/-- `if pos + n > end { return Err(e) }` -/
def Scan.within (limit n : ℕ) (e : MqttError) : Scan Unit := Scanning.within limit n (.mqtt e)

namespace V5

inductive PropertyId where
  | PayloadFormatIndicator | MessageExpiryInterval | ContentType | ResponseTopic | CorrelationData
  | SubscriptionIdentifier | SessionExpiryInterval | AssignedClientIdentifier | ServerKeepAlive
  | AuthenticationMethod | AuthenticationData | RequestProblemInformation | WillDelayInterval
  | RequestResponseInformation | ResponseInformation | ServerReference | ReasonString | ReceiveMaximum
  | TopicAliasMaximum | TopicAlias | MaximumQoS | RetainAvailable | UserProperty | MaximumPacketSize
  | WildcardSubscriptionAvailable | SubscriptionIdentifierAvailable | SharedSubscriptionAvailable
  deriving DecidableEq, Repr

def PropertyId.fromU8 (v : UInt8) : Option PropertyId :=
  match v.toNat with
  | 1 => some .PayloadFormatIndicator
  | 2 => some .MessageExpiryInterval
  | 3 => some .ContentType
  | 8 => some .ResponseTopic
  | 9 => some .CorrelationData
  | 11 => some .SubscriptionIdentifier
  | 17 => some .SessionExpiryInterval
  | 18 => some .AssignedClientIdentifier
  | 19 => some .ServerKeepAlive
  | 21 => some .AuthenticationMethod
  | 22 => some .AuthenticationData
  | 23 => some .RequestProblemInformation
  | 24 => some .WillDelayInterval
  | 25 => some .RequestResponseInformation
  | 26 => some .ResponseInformation
  | 28 => some .ServerReference
  | 31 => some .ReasonString
  | 33 => some .ReceiveMaximum
  | 34 => some .TopicAliasMaximum
  | 35 => some .TopicAlias
  | 36 => some .MaximumQoS
  | 37 => some .RetainAvailable
  | 38 => some .UserProperty
  | 39 => some .MaximumPacketSize
  | 40 => some .WildcardSubscriptionAvailable
  | 41 => some .SubscriptionIdentifierAvailable
  | 42 => some .SharedSubscriptionAvailable
  | _ => none

def PropertyId.toU8 : PropertyId → UInt8
  | .PayloadFormatIndicator => 1
  | .MessageExpiryInterval => 2
  | .ContentType => 3
  | .ResponseTopic => 8
  | .CorrelationData => 9
  | .SubscriptionIdentifier => 11
  | .SessionExpiryInterval => 17
  | .AssignedClientIdentifier => 18
  | .ServerKeepAlive => 19
  | .AuthenticationMethod => 21
  | .AuthenticationData => 22
  | .RequestProblemInformation => 23
  | .WillDelayInterval => 24
  | .RequestResponseInformation => 25
  | .ResponseInformation => 26
  | .ServerReference => 28
  | .ReasonString => 31
  | .ReceiveMaximum => 33
  | .TopicAliasMaximum => 34
  | .TopicAlias => 35
  | .MaximumQoS => 36
  | .RetainAvailable => 37
  | .UserProperty => 38
  | .MaximumPacketSize => 39
  | .WildcardSubscriptionAvailable => 40
  | .SubscriptionIdentifierAvailable => 41
  | .SharedSubscriptionAvailable => 42

inductive PropertyValue where
  | Byte (v : UInt8)
  | TwoByteInteger (v : UInt16)
  | FourByteInteger (v : UInt32)
  | VariableByteInteger (v : UInt32)
  | BinaryData (v : Bytes)
  | UTF8String (s : String)
  | Pair (key value : String)
  deriving DecidableEq, Repr

/-- The variants of `PropertyValue`. -/
inductive Shape where
  | Byte | TwoByteInteger | FourByteInteger | VariableByteInteger | BinaryData | UTF8String | Pair
  deriving DecidableEq, Repr

/-- The arms of the match in `Properties::decode`. -/
def PropertyId.shape : PropertyId → Shape
  | .PayloadFormatIndicator | .RequestProblemInformation | .RequestResponseInformation | .MaximumQoS
  | .RetainAvailable | .WildcardSubscriptionAvailable | .SubscriptionIdentifierAvailable
  | .SharedSubscriptionAvailable => .Byte
  | .ServerKeepAlive | .ReceiveMaximum | .TopicAliasMaximum | .TopicAlias => .TwoByteInteger
  | .MessageExpiryInterval | .SessionExpiryInterval | .WillDelayInterval | .MaximumPacketSize => .FourByteInteger
  | .SubscriptionIdentifier => .VariableByteInteger
  | .CorrelationData | .AuthenticationData => .BinaryData
  | .ContentType | .ResponseTopic | .AssignedClientIdentifier | .AuthenticationMethod | .ResponseInformation
  | .ServerReference | .ReasonString => .UTF8String
  | .UserProperty => .Pair

structure Properties where
  inner : List (PropertyId × PropertyValue)
  deriving DecidableEq, Repr

def Properties.new : Properties := { inner := [] }

def Properties.getFirst (self : Properties) (id : PropertyId) : Option PropertyValue :=
  (self.inner.find? fun entry => entry.1 == id).map Prod.snd

def Properties.willDelayInterval (self : Properties) : Option UInt32 :=
  match self.getFirst .WillDelayInterval with
  | some (.FourByteInteger v) => some v
  | _ => none

def encodeValue : PropertyValue → Bytes
  | .Byte v => [v]
  | .TwoByteInteger v => u16ToBeBytes v
  | .FourByteInteger v => u32ToBeBytes v
  | .VariableByteInteger v => encodeRemainingLength v.toNat
  | .BinaryData v => u16ToBeBytes (UInt16.ofNat v.length) ++ v
  | .UTF8String s => encodeString s
  | .Pair key value => encodeString key ++ encodeString value

def encodeProperty (property : PropertyId × PropertyValue) : Bytes := property.1.toU8 :: encodeValue property.2

def Properties.encode (self : Properties) : Bytes :=
  let buf := self.inner.flatMap encodeProperty
  encodeRemainingLength buf.length ++ buf

/-- `u32::from_be_bytes` of the four bytes at `pos` -/
def scanU32 : Scan UInt32 := do
  let a ← Scan.next
  let b ← Scan.next
  let c ← Scan.next
  let d ← Scan.next
  return u32FromBeBytes a b c d

/-- The value of a property. The integers and the length of binary data are checked against the end
    of the properties, the variable byte integer and the strings against the end of the data only. -/
def scanValue (stop : ℕ) : Shape → Scan PropertyValue
  | .Byte => do
    Scan.within stop 1 (.InvalidPacket "Property data truncated")
    return .Byte (← Scan.next)
  | .TwoByteInteger => do
    Scan.within stop 2 (.InvalidPacket "Property data truncated")
    return .TwoByteInteger (← Scan.u16)
  | .FourByteInteger => do
    Scan.within stop 4 (.InvalidPacket "Property data truncated")
    return .FourByteInteger (← scanU32)
  | .VariableByteInteger => do
    let v ← Scan.onRest decodeRemainingLength
    return .VariableByteInteger (UInt32.ofNat v)
  | .BinaryData => do
    Scan.within stop 2 (.InvalidPacket "Property data truncated")
    let len ← Scan.length16
    Scan.within stop len (.InvalidPacket "Binary property truncated")
    return .BinaryData (← Scan.takeN len)
  | .UTF8String => do
    return .UTF8String (← Scan.string)
  | .Pair => do
    let key ← Scan.string
    let value ← Scan.string
    return .Pair key value

def scanProperty (stop : ℕ) : Scan (PropertyId × PropertyValue) := do
  let idByte ← Scan.next
  let id ← Scan.okOr (PropertyId.fromU8 idByte)
    (.InvalidPacket ("Unknown property ID: " ++ toString idByte.toNat))
  let value ← scanValue stop id.shape
  return (id, value)

/-- The properties and the length they declare; the last one may have been read past that length. -/
def Properties.decode (data : Bytes) : MqttResult (Properties × ℕ) :=
  if data.isEmpty then .ok (Properties.new, 0)
  else do
    let (propsLen, lenBytes) ← decodeRemainingLength data
    if propsLen = 0 then .ok (Properties.new, lenBytes)
    else if data.length < lenBytes + propsLen then err (.InvalidPacket "Properties data truncated")
    else do
      let stop := lenBytes + propsLen
      let (inner, _) ← Scanning.whileBefore .stuck (scanProperty stop) stop propsLen data lenBytes
      return ({ inner }, stop)

end V5
end AtomMqtt
