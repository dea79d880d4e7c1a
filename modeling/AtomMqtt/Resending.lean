import AtomMqtt.PropertyBounds
import AtomMqtt.Library.ScanResults

set_option autoImplicit false

/-! What was decoded can be sent again. Every packet that comes out of a decoder is well-formed, whatever bytes
it was decoded from. So the encoders, which check nothing, write a packet that was received in such a way that
it is decoded to itself. -/
namespace AtomMqtt
open Scanning

theorem yields_string : Yields Scan.string Fits := by
  refine yields_onRest _ fun h => ?_
  obtain ⟨_, _, _, _, _, hfits⟩ := decodeString_takes h
  exact hfits

theorem yields_length16 : Yields Scan.length16 (· ≤ 65535) :=
  Yields.after fun hi => Yields.after fun lo => yields_pure (length16_inverse hi lo).2.2

theorem yields_willPayload (missing truncated : String) :
    Yields (willPayload missing truncated) fun message => message.length ≤ 65535 := by
  refine Yields.after fun _ => yields_length16.bind fun n hn => Yields.after fun _ => ?_
  refine (yields_takeN _ n).mono ?_
  rintro message rfl
  exact hn

theorem runOn_yields {α : Type} {m : Scan α} {P : α → Prop} (h : Yields m P) {data : Bytes} {x : α}
    (hm : m.runOn data = .ok x) : P x := by
  unfold Scan.runOn at hm
  split at hm
  · rename_i y q hok
    cases hm
    exact h hok
  · cases hm

theorem packetId_iff {qos : QoS} {packetId : Option UInt16} (h : packetId.isSome = (qos != .AtMostOnce)) :
    packetId.isSome ↔ qos ≠ .AtMostOnce := by
  rw [h, bne_iff_ne]

theorem yields_packetId (qos : QoS) : Yields (readIf (qos != .AtMostOnce) (do
    Scan.ensure 2 (.InvalidPacket "Missing packet ID in PUBLISH")
    Scan.u16)) fun packetId => packetId.isSome ↔ qos ≠ .AtMostOnce :=
  (yields_readIf _ (yields_any _)).mono fun _ h => packetId_iff h.1

namespace V3

theorem yields_decodeWill (qos : QoS) (retain : Bool) : Yields (decodeWill qos retain) Will.WellFormed :=
  yields_string.bind fun _ htopic => (yields_willPayload _ _).bind fun _ hmessage => yields_pure ⟨htopic, hmessage⟩

theorem yields_scanConnect : Yields scanConnect fun p => (MqttPacketV3.Connect p).WellFormed := by
  refine Yields.after fun protocolName => Yields.after fun _ => Yields.after fun protocolLevel => Yields.after fun _ => ?_
  refine Yields.after fun _ => Yields.after fun connectFlags => Yields.after fun _ => Yields.after fun keepAlive => ?_
  refine yields_string.bind fun clientId hid => ?_
  refine (yields_readIf _ (yields_decodeWill _ _)).bind fun will hwill => ?_
  refine (yields_readIf _ yields_string).bind fun username husername => ?_
  refine (yields_readIf _ yields_string).bind fun password hpassword => ?_
  exact yields_pure ⟨hid, hwill.2, husername.2, hpassword.2⟩

theorem yields_scanPublish (qos : QoS) (retain : Bool) :
    Yields (scanPublish qos retain) fun p => (MqttPacketV3.Publish p).WellFormed := by
  refine yields_string.bind fun topic htopic => (yields_packetId qos).bind fun packetId hid => ?_
  exact Yields.after fun payload => yields_pure ⟨htopic, hid⟩

theorem yields_scanSubscribeFilter : Yields scanSubscribeFilter fun f => Fits f.path := by
  refine yields_string.bind fun path hpath => ?_
  exact Yields.after fun _ => Yields.after fun options => Yields.after fun qos => yields_pure hpath

theorem decodeSubscribe_wellFormed {data : Bytes} {p : SubscribePacket} (h : decodeSubscribe data = .ok p) :
    (MqttPacketV3.Subscribe p).WellFormed := by
  refine runOn_yields (P := fun p => (MqttPacketV3.Subscribe p).WellFormed) ?_ h
  refine Yields.after fun _ => Yields.after fun packetId => ?_
  exact (yields_whileData _ yields_scanSubscribeFilter).bind fun filters hfilters => yields_pure hfilters

theorem decodeUnsubscribe_wellFormed {data : Bytes} {p : UnsubscribePacket} (h : decodeUnsubscribe data = .ok p) :
    (MqttPacketV3.Unsubscribe p).WellFormed := by
  refine runOn_yields (P := fun p => (MqttPacketV3.Unsubscribe p).WellFormed) ?_ h
  refine Yields.after fun _ => Yields.after fun packetId => ?_
  exact (yields_whileData _ yields_string).bind fun filters hfilters => yields_pure hfilters

theorem decodePublish_wellFormed {data : Bytes} {fixedHeader : UInt8} {p : PublishPacket}
    (h : decodePublish data fixedHeader = .ok p) : (MqttPacketV3.Publish p).WellFormed := by
  obtain ⟨qos, _, h⟩ := bind_eq_ok.mp h
  exact runOn_yields (yields_scanPublish _ _) h

theorem decodeBody_wellFormed {packetType : PacketType} {data : Bytes} {fixedHeader : UInt8} {packet : MqttPacketV3}
    (h : decodeBody packetType data fixedHeader = .ok packet) : packet.WellFormed := by
  cases packetType with
  | Connect =>
    obtain ⟨p, hp, rfl⟩ := map_eq_ok.mp h
    exact runOn_yields yields_scanConnect hp
  | Publish =>
    obtain ⟨p, hp, rfl⟩ := map_eq_ok.mp h
    exact decodePublish_wellFormed hp
  | Subscribe =>
    obtain ⟨p, hp, rfl⟩ := map_eq_ok.mp h
    exact decodeSubscribe_wellFormed hp
  | Unsubscribe =>
    obtain ⟨p, hp, rfl⟩ := map_eq_ok.mp h
    exact decodeUnsubscribe_wellFormed hp
  | ConnAck | PubAck | PubRec | PubRel | PubComp | SubAck | UnsubAck =>
    obtain ⟨p, _, rfl⟩ := map_eq_ok.mp h
    trivial
  | PingReq | PingResp | Disconnect =>
    cases h
    trivial
  | Auth => cases h

theorem decodePacket_wellFormed {b : Bytes} {p : MqttPacketV3} {n : ℕ} (h : decodePacket b = .ok (some (p, n))) :
    p.WellFormed := by
  obtain ⟨_, _, _, _, _, _, _, _, _, _, _, _, _, _, hbody⟩ := decodeFrame_eq_some_iff.mp h
  exact decodeBody_wellFormed hbody

end V3

namespace V5

theorem yields_scanValue (stop : ℕ) (shape : Shape) :
    Yields (scanValue stop shape) fun v => v.shape = shape ∧ v.InRange := by
  cases shape with
  | Byte | TwoByteInteger | FourByteInteger => exact Yields.after fun _ => Yields.after fun v => yields_pure ⟨rfl, trivial⟩
  | VariableByteInteger =>
    have hlength : Yields (Scan.onRest decodeRemainingLength) (· < 2 ^ 28) :=
      yields_onRest _ fun h => decodeRemainingLength_lt h
    refine hlength.bind fun v hv => yields_pure ⟨rfl, ?_⟩
    rw [PropertyValue.InRange, UInt32.toNat_ofNat']
    omega
  | BinaryData =>
    refine Yields.after fun _ => yields_length16.bind fun n hn => Yields.after fun _ => ?_
    refine (yields_takeN _ n).bind ?_
    rintro v rfl
    exact yields_pure ⟨rfl, hn⟩
  | UTF8String => exact yields_string.bind fun s hs => yields_pure ⟨rfl, hs⟩
  | Pair => exact yields_string.bind fun key hkey => yields_string.bind fun value hvalue => yields_pure ⟨rfl, hkey, hvalue⟩

theorem yields_scanProperty (stop : ℕ) : Yields (scanProperty stop) fun e => e.2.shape = e.1.shape ∧ e.2.InRange :=
  Yields.after fun _ => Yields.after fun id => (yields_scanValue stop id.shape).bind fun _ hv => yields_pure hv

theorem Properties.decode_wellFormed {data : Bytes} {p : Properties} {n : ℕ} (h : Properties.decode data = .ok (p, n)) :
    p.WellFormed := by
  have hnew : Properties.new.WellFormed := List.forall_mem_nil _
  unfold Properties.decode at h
  split at h
  · cases h
    exact hnew
  · obtain ⟨⟨propsLen, lenBytes⟩, _, h⟩ := bind_eq_ok.mp h
    dsimp only at h
    split_ifs at h
    · cases h
      exact hnew
    · cases h
    · obtain ⟨⟨inner, q⟩, hloop, h⟩ := bind_eq_ok.mp h
      cases h
      exact yields_whileBefore _ (yields_scanProperty _) _ _ hloop

theorem yields_scanProperties : Yields scanProperties Properties.WellFormed :=
  yields_onRest _ fun h => Properties.decode_wellFormed h

theorem yields_decodeWill (qos : QoS) (retain : Bool) : Yields (decodeWill qos retain) Will.WellFormed := by
  refine yields_scanProperties.bind fun properties hproperties => yields_string.bind fun topic htopic => ?_
  exact (yields_willPayload _ _).bind fun payload hpayload => yields_pure ⟨htopic, hpayload, hproperties, rfl⟩

theorem yields_scanConnect : Yields scanConnect fun p => (MqttPacketV5.Connect p).WellFormed := by
  refine Yields.after fun protocolName => Yields.after fun _ => Yields.after fun protocolLevel => Yields.after fun _ => ?_
  refine Yields.after fun _ => Yields.after fun connectFlags => Yields.after fun _ => Yields.after fun keepAlive => ?_
  refine yields_scanProperties.bind fun properties hproperties => yields_string.bind fun clientId hid => ?_
  refine (yields_readIf _ (yields_decodeWill _ _)).bind fun will hwill => ?_
  refine (yields_readIf _ yields_string).bind fun username husername => ?_
  refine (yields_readIf _ yields_string).bind fun password hpassword => ?_
  exact yields_pure ⟨hproperties, hid, hwill.2, husername.2, hpassword.2⟩

theorem yields_scanPublish (qos : QoS) (retain : Bool) :
    Yields (scanPublish qos retain) fun p => (MqttPacketV5.Publish p).WellFormed := by
  refine yields_string.bind fun topic htopic => yields_scanProperties.bind fun properties hproperties => ?_
  refine (yields_packetId qos).bind fun packetId hid => ?_
  exact Yields.after fun payload => yields_pure ⟨hproperties, htopic, hid⟩

theorem decodePublish_wellFormed {data : Bytes} {fixedHeader : UInt8} {p : PublishPacket}
    (h : decodePublish data fixedHeader = .ok p) : (MqttPacketV5.Publish p).WellFormed := by
  obtain ⟨qos, _, h⟩ := bind_eq_ok.mp h
  exact runOn_yields (yields_scanPublish _ _) h

theorem yields_scanSubscribeFilter : Yields scanSubscribeFilter fun f => Fits f.path := by
  refine yields_string.bind fun path hpath => ?_
  exact Yields.after fun _ => Yields.after fun options => Yields.after fun qos => yields_pure hpath

theorem yields_scanFilters {α : Type} {item : Scan α} {P : α → Prop} (h : Yields item P) (tooShort : String) :
    Yields (scanFilters item tooShort) fun r => r.2.2.WellFormed ∧ ∀ f ∈ r.2.1, P f := by
  refine Yields.after fun _ => Yields.after fun packetId => yields_scanProperties.bind fun properties hproperties => ?_
  exact (yields_whileData _ h).bind fun filters hfilters => yields_pure ⟨hproperties, hfilters⟩

theorem decodeSubscribe_wellFormed {data : Bytes} {p : SubscribePacket} (h : decodeSubscribe data = .ok p) :
    (MqttPacketV5.Subscribe p).WellFormed := by
  obtain ⟨r, hr, h⟩ := bind_eq_ok.mp h
  cases h
  exact runOn_yields (yields_scanFilters yields_scanSubscribeFilter _) hr

theorem decodeUnsubscribe_wellFormed {data : Bytes} {p : UnsubscribePacket} (h : decodeUnsubscribe data = .ok p) :
    (MqttPacketV5.Unsubscribe p).WellFormed := by
  obtain ⟨r, hr, h⟩ := bind_eq_ok.mp h
  cases h
  exact runOn_yields (yields_scanFilters yields_string _) hr

theorem decodeReason_wellFormed {data : Bytes} {p : ReasonPacket} (h : decodeReason data = .ok p) :
    p.properties.WellFormed := by
  simp only [decodeReason] at h
  split at h
  · obtain ⟨⟨properties, n⟩, hproperties, h⟩ := bind_eq_ok.mp h
    cases h
    exact Properties.decode_wellFormed hproperties
  · cases h
    exact List.forall_mem_nil _

theorem decodeAck_wellFormed {name : String} {data : Bytes} {p : AckPacket} (h : decodeAck name data = .ok p) :
    p.properties.WellFormed := by
  match data with
  | [] => cases h
  | [_] => cases h
  | hi :: lo :: rest =>
    obtain ⟨reason, hreason, h⟩ := bind_eq_ok.mp h
    cases h
    exact decodeReason_wellFormed hreason

theorem decodeConnack_wellFormed {data : Bytes} {fixedHeader : UInt8} {p : ConnAckPacket}
    (h : decodeConnack data fixedHeader = .ok p) : p.properties.WellFormed := by
  match data with
  | [] => cases h
  | [_] => cases h
  | flags :: code :: rest =>
    obtain ⟨reasonCode, _, h⟩ := bind_eq_ok.mp h
    obtain ⟨⟨properties, n⟩, hproperties, h⟩ := bind_eq_ok.mp h
    cases h
    exact Properties.decode_wellFormed hproperties

theorem decodeAuth_wellFormed {data : Bytes} {p : ReasonPacket} (h : decodeAuth data = .ok p) :
    p.properties.WellFormed := by
  match data with
  | [] => cases h
  | code :: rest =>
    obtain ⟨reasonCode, _, h⟩ := bind_eq_ok.mp h
    obtain ⟨⟨properties, n⟩, hproperties, h⟩ := bind_eq_ok.mp h
    cases h
    exact Properties.decode_wellFormed hproperties

theorem decodeCodes_wellFormed {name : String} {data : Bytes} {p : SubAckPacket} (h : decodeCodes name data = .ok p) :
    p.properties.WellFormed := by
  refine runOn_yields (P := fun p : SubAckPacket => p.properties.WellFormed) ?_ h
  refine Yields.after fun _ => Yields.after fun packetId => yields_scanProperties.bind fun properties hproperties => ?_
  exact Yields.after fun codes => yields_pure hproperties

theorem decodeBody_wellFormed {packetType : PacketType} {data : Bytes} {fixedHeader : UInt8} {packet : MqttPacketV5}
    (h : decodeBody packetType data fixedHeader = .ok packet) : packet.WellFormed := by
  cases packetType with
  | Connect =>
    obtain ⟨p, hp, rfl⟩ := map_eq_ok.mp h
    exact runOn_yields yields_scanConnect hp
  | ConnAck =>
    obtain ⟨p, hp, rfl⟩ := map_eq_ok.mp h
    exact decodeConnack_wellFormed hp
  | Publish =>
    obtain ⟨p, hp, rfl⟩ := map_eq_ok.mp h
    exact decodePublish_wellFormed hp
  | PubAck | PubRec | PubRel | PubComp =>
    obtain ⟨p, hp, rfl⟩ := map_eq_ok.mp h
    exact decodeAck_wellFormed hp
  | Subscribe =>
    obtain ⟨p, hp, rfl⟩ := map_eq_ok.mp h
    exact decodeSubscribe_wellFormed hp
  | SubAck | UnsubAck =>
    obtain ⟨p, hp, rfl⟩ := map_eq_ok.mp h
    exact decodeCodes_wellFormed hp
  | Unsubscribe =>
    obtain ⟨p, hp, rfl⟩ := map_eq_ok.mp h
    exact decodeUnsubscribe_wellFormed hp
  | PingReq | PingResp =>
    cases h
    trivial
  | Disconnect =>
    obtain ⟨p, hp, rfl⟩ := map_eq_ok.mp h
    exact decodeReason_wellFormed hp
  | Auth =>
    obtain ⟨p, hp, rfl⟩ := map_eq_ok.mp h
    exact decodeAuth_wellFormed hp

theorem decodePacket_wellFormed {b : Bytes} {p : MqttPacketV5} {n : ℕ} (h : decodePacket b = .ok (some (p, n))) :
    p.WellFormed := by
  obtain ⟨_, _, _, _, _, _, _, _, _, _, _, _, _, _, hbody⟩ := decodeFrame_eq_some_iff.mp h
  exact decodeBody_wellFormed hbody

end V5

/-- Whatever was decoded is well-formed, and if its encoding is at most 10 MiB then it is decoded from it again. -/
theorem resent :
    (∀ b p n, V3.decodePacket b = .ok (some (p, n)) → p.WellFormed ∧ ∀ b', V3.encodePacket p = .ok b' →
      b'.length ≤ 10 * 1024 * 1024 → V3.decodePacket b' = .ok (some (p, b'.length))) ∧
    ∀ b p n, V5.decodePacket b = .ok (some (p, n)) → p.WellFormed ∧ ∀ b', V5.encodePacket p = .ok b' →
      b'.length ≤ 10 * 1024 * 1024 → V5.decodePacket b' = .ok (some (p, b'.length)) := by
  constructor
  · intro b p n h
    have hp := V3.decodePacket_wellFormed h
    refine ⟨hp, ?_⟩
    intro b' henc hmax
    simpa only [List.append_nil] using V3.decodePacket_sent hp henc hmax []
  · intro b p n h
    have hp := V5.decodePacket_wellFormed h
    refine ⟨hp, ?_⟩
    intro b' henc hmax
    simpa only [List.append_nil] using V5.decodePacket_sent hp henc hmax []

/-- A CONNECT without a protocol name, whose will has QoS 3: the QoS is taken to be 0. -/
def lenientConnect : Bytes := [0x10, 13, 0, 0, 4, 0x1E, 0, 60, 0, 0, 0, 1, 0x61, 0, 0]

def lenientConnectPacket : V3.ConnectPacket where
  clientId := ""
  cleanSession := true
  keepAlive := 60
  will := some { topic := "a", message := [], qos := .AtMostOnce, retain := false }
  username := none
  password := none

/-- A PUBLISH with a string in its properties that ends after them. -/
def lenientPublish : Bytes := [0x30, 9, 0, 1, 0x61, 1, 31, 0, 2, 0x61, 0x62]

def lenientPublishPacket : V5.PublishPacket where
  topic := "a"
  payload := [0, 2, 0x61, 0x62]
  qos := .AtMostOnce
  retain := false
  packetId := none
  properties := { inner := [(.ReasonString, .UTF8String "ab")] }

theorem resent_lenient :
    V3.decodePacket lenientConnect = .ok (some (.Connect lenientConnectPacket, 15)) ∧
      V3.decodePacket (frame 0x10 (V3.connectRemaining lenientConnectPacket)) =
        .ok (some (.Connect lenientConnectPacket, 19)) ∧
      V5.decodePacket lenientPublish = .ok (some (.Publish lenientPublishPacket, 11)) ∧
      V5.decodePacket [0x30, 13, 0, 1, 0x61, 5, 31, 0, 2, 0x61, 0x62, 0, 2, 0x61, 0x62] =
        .ok (some (.Publish lenientPublishPacket, 15)) := by
  have hconnect : V3.decodePacket lenientConnect = .ok (some (.Connect lenientConnectPacket, 15)) := by decide +kernel
  have hpublish : V5.decodePacket lenientPublish = .ok (some (.Publish lenientPublishPacket, 11)) := by decide +kernel
  refine ⟨hconnect, ?_, hpublish, ?_⟩
  · exact (resent.1 _ _ _ hconnect).2 _ rfl (by decide +kernel)
  · exact (resent.2 _ _ _ hpublish).2 _ (by decide +kernel) (by decide +kernel)

end AtomMqtt
