import AtomMqtt.Library.Scan
import Mathlib.Data.List.DropRight

set_option autoImplicit false

/-! Types and wire primitives shared by MQTT 3.1.1 and 5.0. A slice of bytes is a list and a `usize` a natural
number. An index or a slice out of range, which panics in the source, is the fault `panic`; `stuck` is the fault
of a loop that never ends. -/
namespace AtomMqtt

abbrev Bytes := List UInt8

inductive ProtocolVersion where
  | V311
  | V5
  deriving DecidableEq, Repr

inductive QoS where
  | AtMostOnce
  | AtLeastOnce
  | ExactlyOnce
  deriving DecidableEq, Repr

def QoS.fromU8 (value : UInt8) : Option QoS :=
  match value.toNat with
  | 0 => some .AtMostOnce
  | 1 => some .AtLeastOnce
  | 2 => some .ExactlyOnce
  | _ => none

def QoS.toU8 : QoS → UInt8
  | .AtMostOnce => 0
  | .AtLeastOnce => 1
  | .ExactlyOnce => 2

inductive PacketType where
  | Connect | ConnAck | Publish | PubAck | PubRec | PubRel | PubComp | Subscribe | SubAck
  | Unsubscribe | UnsubAck | PingReq | PingResp | Disconnect | Auth
  deriving DecidableEq, Repr

def PacketType.fromU8 (value : UInt8) : Option PacketType :=
  match (value >>> 4).toNat with
  | 1 => some .Connect
  | 2 => some .ConnAck
  | 3 => some .Publish
  | 4 => some .PubAck
  | 5 => some .PubRec
  | 6 => some .PubRel
  | 7 => some .PubComp
  | 8 => some .Subscribe
  | 9 => some .SubAck
  | 10 => some .Unsubscribe
  | 11 => some .UnsubAck
  | 12 => some .PingReq
  | 13 => some .PingResp
  | 14 => some .Disconnect
  | 15 => some .Auth
  | _ => none

def PacketType.code : PacketType → UInt8
  | .Connect => 1 | .ConnAck => 2 | .Publish => 3 | .PubAck => 4 | .PubRec => 5 | .PubRel => 6
  | .PubComp => 7 | .Subscribe => 8 | .SubAck => 9 | .Unsubscribe => 10 | .UnsubAck => 11
  | .PingReq => 12 | .PingResp => 13 | .Disconnect => 14 | .Auth => 15

def PacketType.toU8 (t : PacketType) : UInt8 := t.code <<< 4

/-- `MqttError`, less its `Io` variant: no function of the model makes one. -/
inductive MqttError where
  | InvalidPacket (message : String)
  | ProtocolViolation (message : String)
  | UnsupportedVersion (level : UInt8)
  | MalformedRemainingLength
  | PacketTooLarge (size : ℕ)
  | InvalidUtf8
  | Codec (message : String)
  | AuthFailed (message : String)
  deriving DecidableEq, Repr

inductive Fault where
  | mqtt (e : MqttError)
  | panic
  | stuck
  deriving DecidableEq, Repr

abbrev MqttResult (α : Type) := Except Fault α

abbrev Scan (α : Type) := Scanning.Scan UInt8 Fault α

def err {α : Type} (e : MqttError) : MqttResult α := .error (.mqtt e)

@[simp] theorem ok_bind {α β : Type} (x : α) (f : α → MqttResult β) :
    ((Except.ok x : MqttResult α) >>= f) = f x := rfl

@[simp] theorem error_bind {α β : Type} (e : Fault) (f : α → MqttResult β) :
    ((Except.error e : MqttResult α) >>= f) = .error e := rfl

/-- `opt.ok_or_else(|| e)?` -/
def okOr {α : Type} (opt : Option α) (e : MqttError) : MqttResult α :=
  match opt with
  | some x => .ok x
  | none => err e

/-- `&data[start..end]` -/
def slice (data : Bytes) (start stop : ℕ) : MqttResult Bytes :=
  if start ≤ stop ∧ stop ≤ data.length then .ok ((data.take stop).drop start) else .error .panic

/-- `format!("{:02X}", byte)` -/
def hexByte (byte : UInt8) : String :=
  String.ofList [(Nat.digitChar (byte.toNat / 16)).toUpper, (Nat.digitChar (byte.toNat % 16)).toUpper]

def MAX_REMAINING_LENGTH_BYTES : ℕ := 4

/-- One turn for each group of seven bits. The fuel `length + 1` is never used up. -/
def encodeRemainingLoop : ℕ → ℕ → Bytes
  | 0, _ => []
  | fuel + 1, length =>
    let byte := UInt8.ofNat (length &&& 0x7F)
    let length := length >>> 7
    if length > 0 then (byte ||| 0x80) :: encodeRemainingLoop fuel length else [byte]

def encodeRemainingLength (length : ℕ) : Bytes := encodeRemainingLoop (length + 1) length

def decodeRemainingLoop : Bytes → ℕ → ℕ → ℕ → MqttResult (ℕ × ℕ)
  | [], _, _, _ => err .MalformedRemainingLength
  | byte :: buf, i, value, multiplier =>
    let consumed := i + 1
    if consumed > MAX_REMAINING_LENGTH_BYTES then err .MalformedRemainingLength
    else
      let value := value + (byte.toNat &&& 0x7F) * multiplier
      if byte &&& 0x80 = 0 then .ok (value, consumed)
      else decodeRemainingLoop buf (i + 1) value (multiplier * 128)

/-- The value and the number of bytes consumed. -/
def decodeRemainingLength (buf : Bytes) : MqttResult (ℕ × ℕ) := decodeRemainingLoop buf 0 0 1

def asBytes (s : String) : Bytes := s.toUTF8.data.toList

theorem asBytes_isEmpty (s : String) : (asBytes s).isEmpty = s.isEmpty := by
  rw [Bool.eq_iff_iff, List.isEmpty_iff, String.isEmpty, beq_iff_eq, asBytes, Array.toList_eq_nil_iff,
    Array.eq_empty_iff_size_eq_zero]
  rfl

def fromUtf8 (bytes : Bytes) : Option String := String.fromUTF8? ⟨bytes.toArray⟩

def encodeString (s : String) : Bytes :=
  let bytes := asBytes s
  let len := bytes.length
  UInt8.ofNat (len >>> 8) :: UInt8.ofNat (len &&& 0xFF) :: bytes

def decodeString (buf : Bytes) : MqttResult (String × ℕ) :=
  match buf with
  | hi :: lo :: _ => do
    let len := hi.toNat <<< 8 ||| lo.toNat
    if buf.length < 2 + len then err (.InvalidPacket "Insufficient data for string")
    else do
      let s ← okOr (fromUtf8 (← slice buf 2 (2 + len))) .InvalidUtf8
      return (s, 2 + len)
  | _ => err (.InvalidPacket "Insufficient data for string length")

def u16ToBeBytes (v : UInt16) : Bytes := [UInt8.ofNat (v.toNat / 256), UInt8.ofNat v.toNat]

def u16FromBeBytes (hi lo : UInt8) : UInt16 := UInt16.ofNat (hi.toNat * 256 + lo.toNat)

def u32ToBeBytes (v : UInt32) : Bytes :=
  [UInt8.ofNat (v.toNat / 16777216), UInt8.ofNat (v.toNat / 65536), UInt8.ofNat (v.toNat / 256),
    UInt8.ofNat v.toNat]

def u32FromBeBytes (a b c d : UInt8) : UInt32 :=
  UInt32.ofNat (a.toNat * 16777216 + b.toNat * 65536 + c.toNat * 256 + d.toNat)

namespace Scan
open Scanning

def reject (c : Bool) (e : MqttError) : Scan Unit := Scanning.reject c (.mqtt e)
def ensure (n : ℕ) (e : MqttError) : Scan Unit := Scanning.ensure n (.mqtt e)
def next : Scan UInt8 := Scanning.next .panic
def takeN (n : ℕ) : Scan Bytes := Scanning.takeN .panic n
def takeRest : Scan Bytes := Scanning.takeRest .panic
def onRest {α : Type} (f : Bytes → MqttResult (α × ℕ)) : Scan α := Scanning.onRest .panic f
def whileData {α : Type} (item : Scan α) : Scan (List α) := Scanning.whileData .stuck item

/-- `opt.ok_or_else(|| e)?` -/
def okOr {α : Type} (opt : Option α) (e : MqttError) : Scan α :=
  match opt with
  | some x => pure x
  | none => fun _ _ => err e

def string : Scan String := onRest decodeString

def u16 : Scan UInt16 := do
  let hi ← next
  let lo ← next
  return u16FromBeBytes hi lo

/-- `(data[pos] as usize) << 8 | (data[pos + 1] as usize)` -/
def length16 : Scan ℕ := do
  let hi ← next
  let lo ← next
  return hi.toNat <<< 8 ||| lo.toNat

/-- A decoder of a whole slice, which drops what it leaves unread. -/
def runOn {α : Type} (m : Scan α) (data : Bytes) : MqttResult α :=
  match m data 0 with
  | .ok (x, _) => .ok x
  | .error e => .error e

end Scan

/-- The body of both `decode_packet`s: the fixed header, the limit, the wait for a whole packet. -/
def decodeFrame {α : Type} (maxPacketSize : ℕ) (body : PacketType → Bytes → UInt8 → MqttResult α)
    (src : Bytes) : MqttResult (Option (α × ℕ)) :=
  match src with
  | [] => .ok none
  | fixedHeader :: tail => do
    let packetType ← okOr (PacketType.fromU8 fixedHeader)
      (.InvalidPacket ("Unknown packet type: 0x" ++ hexByte fixedHeader))
    if src.length < 2 then .ok none
    else do
      let (remainingLen, lenBytes) ← decodeRemainingLength tail
      let totalLen := 1 + lenBytes + remainingLen
      if totalLen > maxPacketSize then err (.PacketTooLarge totalLen)
      else if src.length < totalLen then .ok none
      else do
        let packetData ← slice src (1 + lenBytes) totalLen
        let packet ← body packetType packetData fixedHeader
        return some (packet, totalLen)

/-- What every encoder ends with: the fixed header byte, the remaining length, the rest. -/
def frame (fixedByte : UInt8) (remaining : Bytes) : Bytes :=
  fixedByte :: (encodeRemainingLength remaining.length ++ remaining)

/-- The will payload, in both versions: a length of two bytes, then as many bytes. -/
def willPayload (missing truncated : String) : Scan Bytes := do
  Scan.ensure 2 (.InvalidPacket missing)
  let msgLen ← Scan.length16
  Scan.ensure msgLen (.InvalidPacket truncated)
  Scan.takeN msgLen

/-- The connect flags of both versions, from the will's QoS and retain flag if there is a will. -/
def connectFlags (clean : Bool) (will : Option (QoS × Bool)) (password username : Bool) : UInt8 :=
  let flags : UInt8 := if clean then 0x02 else 0
  let flags : UInt8 := match will with
    | some (qos, retain) =>
      let flags := flags ||| (0x04 : UInt8) ||| (qos.toU8 <<< (3 : UInt8))
      if retain then flags ||| 0x20 else flags
    | none => flags
  let flags : UInt8 := if password then flags ||| 0x40 else flags
  if username then flags ||| 0x80 else flags

def publishFixedByte (qos : QoS) (retain dup : Bool) : UInt8 :=
  let fixedByte := PacketType.Publish.toU8 ||| (qos.toU8 <<< (1 : UInt8))
  let fixedByte := if retain then fixedByte ||| (0x01 : UInt8) else fixedByte
  if dup then fixedByte ||| (0x08 : UInt8) else fixedByte

/-- `char::is_whitespace`: the characters with the Unicode property White_Space -/
def isWhitespace (c : Char) : Bool :=
  let n := c.toNat
  (9 ≤ n && n ≤ 13) || n == 0x20 || n == 0x85 || n == 0xA0 || n == 0x1680 ||
    (0x2000 ≤ n && n ≤ 0x200A) || n == 0x2028 || n == 0x2029 || n == 0x202F || n == 0x205F || n == 0x3000

def trim (s : String) : String := String.ofList ((s.toList.dropWhile isWhitespace).rdropWhile isWhitespace)

/-- `s.split('/').collect()` -/
def splitSlash (s : String) : List String := (s.toList.splitOn '/').map String.ofList

structure TopicFilter where
  filter : String
  segments : List String
  hasMultiwild : Bool
  deriving DecidableEq, Repr

def TopicFilter.new (filter : String) : TopicFilter :=
  let filter := trim filter
  let segments := splitSlash filter
  { filter, segments, hasMultiwild := segments.getLast? == some "#" }

/-- The loop of `matches`: what is left of the segments, and of the topic from `ti` on. -/
def TopicFilter.matchLoop : List String → List String → Bool
  | [], topicSegs => topicSegs.isEmpty
  | seg :: segs, topicSegs =>
    if seg == "#" then true
    else
      match topicSegs with
      | [] => false
      | t :: ts =>
        if seg == "+" then matchLoop segs ts
        else if seg != t then false
        else matchLoop segs ts

def TopicFilter.matches (self : TopicFilter) (topic : String) : Bool :=
  matchLoop self.segments (splitSlash topic)

def TopicName.isValid (name : String) : Bool :=
  if name.isEmpty then false
  else if name.toList.contains '+' || name.toList.contains '#' then false
  else true

end AtomMqtt
