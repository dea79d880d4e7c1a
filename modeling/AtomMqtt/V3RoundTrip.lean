import AtomMqtt.V3Codec
import AtomMqtt.Wire

set_option autoImplicit false

/-! Every well-formed MQTT 3.1.1 packet is decoded from its encoding. -/
namespace AtomMqtt

/-- A string that the two-byte length prefix can announce. -/
def Fits (s : String) : Prop := (asBytes s).length ≤ 65535

instance (s : String) : Decidable (Fits s) := inferInstanceAs (Decidable (_ ≤ _))

theorem connectFlags_clean (clean : Bool) (will : Option (QoS × Bool)) (password username : Bool) :
    (connectFlags clean will password username &&& 0x02 != 0) = clean := by
  rcases will with _ | ⟨qos, retain⟩
  · cases clean <;> cases password <;> cases username <;> rfl
  · cases clean <;> cases password <;> cases username <;> cases qos <;> cases retain <;> rfl

theorem connectFlags_will (clean : Bool) (will : Option (QoS × Bool)) (password username : Bool) :
    (connectFlags clean will password username &&& 0x04 != 0) = will.isSome := by
  rcases will with _ | ⟨qos, retain⟩
  · cases clean <;> cases password <;> cases username <;> rfl
  · cases clean <;> cases password <;> cases username <;> cases qos <;> cases retain <;> rfl

theorem connectFlags_password (clean : Bool) (will : Option (QoS × Bool)) (password username : Bool) :
    (connectFlags clean will password username &&& 0x40 != 0) = password := by
  rcases will with _ | ⟨qos, retain⟩
  · cases clean <;> cases password <;> cases username <;> rfl
  · cases clean <;> cases password <;> cases username <;> cases qos <;> cases retain <;> rfl

theorem connectFlags_username (clean : Bool) (will : Option (QoS × Bool)) (password username : Bool) :
    (connectFlags clean will password username &&& 0x80 != 0) = username := by
  rcases will with _ | ⟨qos, retain⟩
  · cases clean <;> cases password <;> cases username <;> rfl
  · cases clean <;> cases password <;> cases username <;> cases qos <;> cases retain <;> rfl

theorem connectFlags_willQos (clean : Bool) (qos : QoS) (retain password username : Bool) :
    (QoS.fromU8 ((connectFlags clean (some (qos, retain)) password username >>> 3) &&& 0x03)).getD
      .AtMostOnce = qos := by
  cases clean <;> cases password <;> cases username <;> cases qos <;> cases retain <;> rfl

theorem connectFlags_willRetain (clean : Bool) (qos : QoS) (retain password username : Bool) :
    (connectFlags clean (some (qos, retain)) password username &&& 0x20 != 0) = retain := by
  cases clean <;> cases password <;> cases username <;> cases qos <;> cases retain <;> rfl

theorem publishFixedByte_type (qos : QoS) (retain dup : Bool) :
    PacketType.fromU8 (publishFixedByte qos retain dup) = some .Publish := by
  cases qos <;> cases retain <;> cases dup <;> rfl

theorem publishFixedByte_qos (qos : QoS) (retain dup : Bool) :
    QoS.fromU8 ((publishFixedByte qos retain dup >>> 1) &&& 0x03) = some qos := by
  cases qos <;> cases retain <;> cases dup <;> rfl

theorem publishFixedByte_retain (qos : QoS) (retain dup : Bool) :
    (publishFixedByte qos retain dup &&& 0x01 != 0) = retain := by
  cases qos <;> cases retain <;> cases dup <;> rfl

theorem protocolName_bytes : 0x00 :: 0x04 :: asBytes "MQTT" = encodeString "MQTT" := by decide

open Scanning

theorem reads_willPayload {message : Bytes} (h : message.length ≤ 65535) (missing truncated : String) :
    Reads (willPayload missing truncated) (u16ToBeBytes (UInt16.ofNat message.length) ++ message) message := by
  refine Reads.ensured ?_ (by simp [u16ToBeBytes]) _
  refine (Scan.reads_length16 h).bind ?_
  exact Reads.ensured (Scanning.reads_takeN _ rfl) le_rfl _

namespace V3

def Will.WellFormed (w : Will) : Prop := Fits w.topic ∧ w.message.length ≤ 65535

def MqttPacketV3.WellFormed : MqttPacketV3 → Prop
  | .Connect p => Fits p.clientId ∧ (∀ w, p.will = some w → w.WellFormed) ∧
      (∀ u, p.username = some u → Fits u) ∧ (∀ s, p.password = some s → Fits s)
  | .Publish p => Fits p.topic ∧ (p.packetId.isSome ↔ p.qos ≠ .AtMostOnce)
  | .Subscribe p => ∀ f ∈ p.filters, Fits f.path
  | .Unsubscribe p => ∀ f ∈ p.filters, Fits f
  | _ => True

theorem reads_decodeWill {w : Will} (h : w.WellFormed) :
    Reads (decodeWill w.qos w.retain) (encodeWill w) w := by
  refine (Scan.reads_string h.1).bind ?_
  refine (reads_willPayload h.2 _ _).bindPure ?_
  rfl

theorem readsEnd_scanConnect {p : ConnectPacket} (hp : (MqttPacketV3.Connect p).WellFormed) :
    ReadsEnd scanConnect (connectRemaining p) p := by
  obtain ⟨hid, hwill, huser, hpass⟩ := hp
  simp only [connectRemaining, protocolName_bytes, List.append_assoc]
  refine (Scan.reads_string (by decide)).bindEnd ?_
  refine ReadsEnd.ensured ?_ (by simp) _
  refine (Scan.reads_next 4).bindEnd ?_
  refine (Scanning.reads_reject rfl _).bindNilEnd ?_
  refine ReadsEnd.ensured ?_ (by simp) _
  refine (Scan.reads_next _).bindEnd ?_
  simp only [connectFlags_clean, connectFlags_will, connectFlags_password, connectFlags_username]
  refine ReadsEnd.ensured ?_ (by simp [u16ToBeBytes]) _
  refine (Scan.reads_u16 p.keepAlive).bindEnd ?_
  refine (Scan.reads_string hid).bindEnd ?_
  have hw : ∀ w, p.will = some w → Reads (decodeWill
      ((QoS.fromU8 ((connectFlags p.cleanSession (p.will.map fun w => (w.qos, w.retain)) p.password.isSome
        p.username.isSome >>> 3) &&& 0x03)).getD .AtMostOnce)
      (connectFlags p.cleanSession (p.will.map fun w => (w.qos, w.retain)) p.password.isSome
        p.username.isSome &&& 0x20 != 0)) (encodeWill w) w := by
    intro w hw
    rw [hw, Option.map_some, connectFlags_willQos, connectFlags_willRetain]
    exact reads_decodeWill (hwill w hw)
  refine (Scanning.reads_readIf p.will (by simp) hw).bindEnd ?_
  refine (Scanning.reads_readIf p.username rfl fun u hu => Scan.reads_string (huser u hu)).bindEnd ?_
  refine ((Scanning.reads_readIf p.password rfl fun s hs => Scan.reads_string (hpass s hs)).bindPure ?_).toEnd
  rfl

theorem decodeConnect_remaining {p : ConnectPacket} (hp : (MqttPacketV3.Connect p).WellFormed)
    (fixedHeader : UInt8) : decodeConnect (connectRemaining p) fixedHeader = .ok p :=
  runOn_of_readsEnd (readsEnd_scanConnect hp)

theorem decodeConnack_remaining (p : ConnAckPacket) (fixedHeader : UInt8) :
    decodeConnack [if p.sessionPresent then 0x01 else 0x00, p.returnCode.toU8] fixedHeader = .ok p := by
  rcases p with ⟨sessionPresent, returnCode⟩
  cases sessionPresent <;> cases returnCode <;> rfl

theorem PublishPacket.sentId_eq {p : PublishPacket} (h : p.packetId.isSome ↔ p.qos ≠ .AtMostOnce) :
    p.sentId = p.packetId ∧ (p.qos != .AtMostOnce) = p.packetId.isSome := by
  by_cases hq : p.qos = .AtMostOnce
  · have hn : p.packetId = none := by
      rw [← Option.not_isSome_iff_eq_none, h]
      exact not_not.mpr hq
    simp [PublishPacket.sentId, hq, hn]
  · have hs : p.packetId.isSome = true := h.mpr hq
    simp [PublishPacket.sentId, hq, hs]

theorem decodePublish_remaining {p : PublishPacket} (hp : (MqttPacketV3.Publish p).WellFormed) (dup : Bool) :
    decodePublish (encodeString p.topic ++ (p.sentId.elim [] u16ToBeBytes ++ p.payload))
      (publishFixedByte p.qos p.retain dup) = .ok p := by
  obtain ⟨htopic, hpid⟩ := hp
  obtain ⟨hsent, hflag⟩ := PublishPacket.sentId_eq hpid
  simp only [decodePublish, publishFixedByte_qos, okOr, ok_bind, publishFixedByte_retain, hsent]
  refine runOn_of_readsEnd ?_
  refine (Scan.reads_string htopic).bindEnd ?_
  refine (Scanning.reads_readIf p.packetId hflag fun pid _ => (Scan.reads_u16 pid).ensured ?_ _).bindEnd ?_
  · simp [u16ToBeBytes]
  · exact (Scanning.readsEnd_takeRest _ p.payload).bindPure rfl

theorem encodeAck_frame (fixedByte : UInt8) (p : AckPacket) :
    encodeAck fixedByte p = .ok (frame fixedByte (u16ToBeBytes p.packetId)) := by
  rw [encodeAck, u16ToBeBytes, frame_two]

theorem encodeConnack_frame (p : ConnAckPacket) : encodeConnack p =
    .ok (frame PacketType.ConnAck.toU8 [if p.sessionPresent then 0x01 else 0x00, p.returnCode.toU8]) := by
  rw [encodeConnack, frame_two]

theorem decodeAck_remaining (name : String) (p : AckPacket) : decodeAck name (u16ToBeBytes p.packetId) = .ok p := by
  simp only [u16ToBeBytes, decodeAck, u16_roundtrip]

theorem reads_scanSubscribeFilter {f : SubscribeFilter} (h : Fits f.path) :
    Reads scanSubscribeFilter (encodeSubscribeFilter f) f := by
  have hq : QoS.fromU8 (f.qos.toU8 &&& 0x03) = some f.qos := by cases f.qos <;> rfl
  refine (Scan.reads_string h).bind ?_
  refine Reads.ensured ?_ (by simp) _
  refine (Scan.reads_next f.qos.toU8).bindPure ?_
  simp only [hq]
  rfl

theorem decodeSubscribe_remaining {p : SubscribePacket} (hp : (MqttPacketV3.Subscribe p).WellFormed) :
    decodeSubscribe (u16ToBeBytes p.packetId ++ p.filters.flatMap encodeSubscribeFilter) = .ok p := by
  refine runOn_of_readsEnd ?_
  refine ReadsEnd.ensured ?_ (by simp [u16ToBeBytes]) _
  refine (Scan.reads_u16 p.packetId).bindEnd ?_
  refine (Scanning.readsEnd_whileData ?_ fun f hf => reads_scanSubscribeFilter (hp f hf)).bindPure rfl
  intro f _
  simp [encodeSubscribeFilter]

theorem decodeSuback_remaining (p : SubAckPacket) :
    decodeSuback (u16ToBeBytes p.packetId ++ p.returnCodes.map SubAckReturnCode.toU8) = .ok p := by
  have hcodes : ∀ codes : List SubAckReturnCode,
      (codes.map SubAckReturnCode.toU8).filterMap SubAckReturnCode.fromU8 = codes := by
    intro codes
    rw [List.filterMap_map]
    have hc : SubAckReturnCode.fromU8 ∘ SubAckReturnCode.toU8 = some := by funext c; cases c <;> rfl
    rw [hc, List.filterMap_some]
  simp only [u16ToBeBytes, List.cons_append, List.nil_append, decodeSuback, u16_roundtrip, hcodes]

theorem decodeUnsubscribe_remaining {p : UnsubscribePacket} (hp : (MqttPacketV3.Unsubscribe p).WellFormed) :
    decodeUnsubscribe (u16ToBeBytes p.packetId ++ p.filters.flatMap encodeString) = .ok p := by
  refine runOn_of_readsEnd ?_
  refine ReadsEnd.ensured ?_ (by simp [u16ToBeBytes]) _
  refine (Scan.reads_u16 p.packetId).bindEnd ?_
  refine (Scanning.readsEnd_whileData ?_ fun f hf => Scan.reads_string (hp f hf)).bindPure rfl
  intro f _
  simp [encodeString]

/-- Every encoding is a frame whose body decodes to the packet. -/
theorem encodePacket_frame {p : MqttPacketV3} (hp : p.WellFormed) : ∃ fixedByte packetType remaining,
    encodePacket p = .ok (frame fixedByte remaining) ∧ PacketType.fromU8 fixedByte = some packetType ∧
      decodeBody packetType remaining fixedByte = .ok p := by
  cases p with
  | Connect p => exact ⟨_, .Connect, _, rfl, rfl, by rw [decodeBody, decodeConnect_remaining hp]; rfl⟩
  | ConnAck p =>
    exact ⟨_, .ConnAck, _, encodeConnack_frame p, rfl, by rw [decodeBody, decodeConnack_remaining p]; rfl⟩
  | Publish p =>
    exact ⟨_, .Publish, _, rfl, publishFixedByte_type _ _ _, by rw [decodeBody, decodePublish_remaining hp]; rfl⟩
  | PubAck p => exact ⟨_, .PubAck, _, encodeAck_frame _ p, rfl, by rw [decodeBody, decodePuback, decodeAck_remaining]; rfl⟩
  | PubRec p => exact ⟨_, .PubRec, _, encodeAck_frame _ p, rfl, by rw [decodeBody, decodePubrec, decodeAck_remaining]; rfl⟩
  | PubRel p => exact ⟨_, .PubRel, _, encodeAck_frame _ p, rfl, by rw [decodeBody, decodePubrel, decodeAck_remaining]; rfl⟩
  | PubComp p =>
    exact ⟨_, .PubComp, _, encodeAck_frame _ p, rfl, by rw [decodeBody, decodePubcomp, decodeAck_remaining]; rfl⟩
  | Subscribe p => exact ⟨_, .Subscribe, _, rfl, rfl, by rw [decodeBody, decodeSubscribe_remaining hp]; rfl⟩
  | SubAck p => exact ⟨_, .SubAck, _, rfl, rfl, by rw [decodeBody, decodeSuback_remaining p]; rfl⟩
  | Unsubscribe p => exact ⟨_, .Unsubscribe, _, rfl, rfl, by rw [decodeBody, decodeUnsubscribe_remaining hp]; rfl⟩
  | UnsubAck p =>
    exact ⟨_, .UnsubAck, _, encodeAck_frame _ p, rfl, by rw [decodeBody, decodeUnsuback, decodeAck_remaining]; rfl⟩
  | PingReq => exact ⟨_, .PingReq, [], rfl, rfl, rfl⟩
  | PingResp => exact ⟨_, .PingResp, [], rfl, rfl, rfl⟩
  | Disconnect => exact ⟨_, .Disconnect, [], rfl, rfl, rfl⟩

theorem decodePacket_sent {p : MqttPacketV3} (hp : p.WellFormed) {b : Bytes} (henc : encodePacket p = .ok b)
    (hmax : b.length ≤ 10 * 1024 * 1024) (r : Bytes) : decodePacket (b ++ r) = .ok (some (p, b.length)) := by
  obtain ⟨fixedByte, packetType, remaining, hframe, htype, hbody⟩ := encodePacket_frame hp
  obtain rfl : frame fixedByte remaining = b := Except.ok.inj (hframe.symm.trans henc)
  rw [decodePacket, MAX_PACKET_SIZE, decodeFrame_frame decodeBody r htype hmax (by decide), hbody]
  rfl

/-- The round trip of the whole format: a well-formed packet is encoded, and if the encoding is at
    most 10 MiB then it decodes to the packet and its own length, whatever bytes follow. -/
theorem decodePacketV3_encodePacket {p : MqttPacketV3} (hp : p.WellFormed) :
    ∃ b, encodePacket p = .ok b ∧ (b.length ≤ 10 * 1024 * 1024 →
      ∀ r, decodePacket (b ++ r) = .ok (some (p, b.length))) := by
  obtain ⟨fixedByte, packetType, remaining, henc, _, _⟩ := encodePacket_frame hp
  exact ⟨_, henc, fun hmax r => decodePacket_sent hp henc hmax r⟩

def connectWithWill : ConnectPacket where
  clientId := "sensor-1"
  cleanSession := true
  keepAlive := 60
  will := some { topic := "sensor/1/state", message := [0x00, 0x80, 0xFF], qos := .ExactlyOnce, retain := true }
  username := some "alice"
  password := some "secret"

theorem connectWithWill_wellFormed : (MqttPacketV3.Connect connectWithWill).WellFormed := by
  refine ⟨by decide, ?_, ?_, ?_⟩
  · rintro w ⟨⟩
    exact ⟨by decide, by decide⟩
  · rintro u ⟨⟩
    decide
  · rintro s ⟨⟩
    decide

theorem decodePacketV3_encodePacket_connect : (MqttPacketV3.Connect connectWithWill).WellFormed ∧
    ∃ b, encodePacket (.Connect connectWithWill) = .ok b ∧ b.length ≤ 10 * 1024 * 1024 ∧
      ∀ r, decodePacket (b ++ r) = .ok (some (.Connect connectWithWill, b.length)) := by
  obtain ⟨b, henc, hdec⟩ := decodePacketV3_encodePacket connectWithWill_wellFormed
  have hmax : b.length ≤ 10 * 1024 * 1024 := by
    cases henc
    decide
  exact ⟨connectWithWill_wellFormed, b, henc, hmax, hdec hmax⟩

end V3
end AtomMqtt
