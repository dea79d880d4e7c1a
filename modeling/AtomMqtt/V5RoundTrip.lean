import AtomMqtt.V3RoundTrip
import AtomMqtt.V5Codec

set_option autoImplicit false

/-! Every well-formed MQTT 5.0 packet is decoded from its encoding. -/
namespace AtomMqtt.V5
open Scanning

def PropertyValue.shape : PropertyValue → Shape
  | .Byte _ => .Byte
  | .TwoByteInteger _ => .TwoByteInteger
  | .FourByteInteger _ => .FourByteInteger
  | .VariableByteInteger _ => .VariableByteInteger
  | .BinaryData _ => .BinaryData
  | .UTF8String _ => .UTF8String
  | .Pair _ _ => .Pair

def PropertyValue.InRange : PropertyValue → Prop
  | .VariableByteInteger v => v.toNat < 2 ^ 28
  | .BinaryData v => v.length ≤ 65535
  | .UTF8String s => Fits s
  | .Pair key value => Fits key ∧ Fits value
  | _ => True

/-- Every value has the variant that its id is decoded as, and is within the reach of its encoding. -/
def Properties.WellFormed (p : Properties) : Prop := ∀ e ∈ p.inner, e.2.shape = e.1.shape ∧ e.2.InRange

theorem PropertyId.fromU8_toU8 (id : PropertyId) : PropertyId.fromU8 id.toU8 = some id := by cases id <;> rfl

theorem ReasonCode.fromU8_toU8 (c : ReasonCode) : ReasonCode.fromU8 c.toU8 = some c := by cases c <;> rfl

theorem reads_scanU32 (v : UInt32) : Reads scanU32 (u32ToBeBytes v) v := by
  refine (Scan.reads_next _).bind (e := [UInt8.ofNat (v.toNat / 65536), UInt8.ofNat (v.toNat / 256),
    UInt8.ofNat v.toNat]) ?_
  refine (Scan.reads_next _).bind (e := [UInt8.ofNat (v.toNat / 256), UInt8.ofNat v.toNat]) ?_
  refine (Scan.reads_next _).bind (e := [UInt8.ofNat v.toNat]) ?_
  refine (Scan.reads_next _).bindPure ?_
  rw [u32_roundtrip]

/-- A value is read back within the properties. One case for each shape: what the integers and the
    binary data are checked against is the end of the properties. -/
theorem readsAt_scanValue {v : PropertyValue} (hv : v.InRange) {pre rest : Bytes} {stop : ℕ}
    (hstop : pre.length + (encodeValue v).length ≤ stop) :
    ReadsAt (scanValue stop v.shape) pre (encodeValue v) rest v := by
  cases v with
  | Byte v =>
    refine ReadsAt.within ?_ hstop _
    refine (Scan.reads_next v pre rest).bindPure ?_
    rfl
  | TwoByteInteger v =>
    refine ReadsAt.within ?_ hstop _
    refine (Scan.reads_u16 v pre rest).bindPure ?_
    rfl
  | FourByteInteger v =>
    refine ReadsAt.within ?_ hstop _
    refine (reads_scanU32 v pre rest).bindPure ?_
    rfl
  | VariableByteInteger v =>
    refine (((decodeRemainingLength_encode hv).reads _).bindPure ?_) pre rest
    rw [UInt32.ofNat_toNat]
  | BinaryData v =>
    have hlen : (encodeValue (.BinaryData v)).length = 2 + v.length := by
      simp [encodeValue, u16ToBeBytes]; omega
    rw [hlen] at hstop
    refine ReadsAt.within ?_ (by omega) _
    refine ((Scan.reads_length16 hv) pre _).bind ?_
    refine ReadsAt.within ?_ (by simp [u16ToBeBytes]; omega) _
    refine (Scanning.reads_takeN _ rfl _ rest).bindPure ?_
    rfl
  | UTF8String s =>
    refine (Scan.reads_string hv pre rest).bindPure ?_
    rfl
  | Pair key value =>
    refine (Scan.reads_string hv.1 pre _).bind ?_
    refine (Scan.reads_string hv.2 _ rest).bindPure ?_
    rfl

theorem readsAt_scanProperty {e : PropertyId × PropertyValue} (he : e.2.shape = e.1.shape ∧ e.2.InRange)
    {pre rest : Bytes} {stop : ℕ} (hstop : pre.length + (encodeProperty e).length ≤ stop) :
    ReadsAt (scanProperty stop) pre (encodeProperty e) rest e := by
  obtain ⟨id, value⟩ := e
  obtain ⟨hshape, hrange⟩ := he
  simp only at hshape hrange
  refine ((Scan.reads_next id.toU8) pre _).bind (e := encodeValue value) ?_
  simp only [PropertyId.fromU8_toU8, Scan.okOr, pure_bind, ← hshape]
  refine ReadsAt.bindPure (readsAt_scanValue hrange ?_) rfl
  simp only [encodeProperty, List.length_cons] at hstop
  simp only [List.length_append, List.length_singleton]
  omega

theorem Properties.encode_pos (p : Properties) : 0 < p.encode.length := by
  have h := encodeRemainingLength_pos (p.inner.flatMap encodeProperty).length
  simp only [Properties.encode, List.length_append]
  omega

theorem Properties.decode_encode {p : Properties} (hp : p.WellFormed) (hlen : p.encode.length < 2 ^ 28) :
    Decodes Properties.decode p.encode p := by
  intro rest
  obtain ⟨inner⟩ := p
  have hne : (Properties.encode { inner } ++ rest).isEmpty = false := by
    have h := Properties.encode_pos { inner }
    cases he : Properties.encode { inner } with
    | nil => simp [he] at h
    | cons b bs => rfl
  have hbody : (inner.flatMap encodeProperty).length < 2 ^ 28 := by
    simp only [Properties.encode, List.length_append] at hlen
    omega
  have hr := decodeRemainingLength_encode hbody (inner.flatMap encodeProperty ++ rest)
  simp only [Properties.decode, hne, Bool.false_eq_true, if_false]
  simp only [Properties.encode, List.append_assoc, hr, ok_bind, List.length_append]
  by_cases hz : (inner.flatMap encodeProperty).length = 0
  · have hnil : inner = [] := by
      cases inner with
      | nil => rfl
      | cons e es => simp [encodeProperty] at hz
    subst hnil
    rfl
  · have hfit : ¬ (encodeRemainingLength (inner.flatMap encodeProperty).length).length +
        ((inner.flatMap encodeProperty).length + rest.length) <
        (encodeRemainingLength (inner.flatMap encodeProperty).length).length +
        (inner.flatMap encodeProperty).length := by omega
    let enc := inner.flatMap encodeProperty
    let lenBytes := encodeRemainingLength enc.length
    have hloop : ReadsAt (whileBefore Fault.stuck (scanProperty (lenBytes.length + enc.length))
        (lenBytes.length + enc.length) enc.length) lenBytes enc rest inner := by
      apply readsAt_whileBefore inner le_rfl rfl
      · intro e _
        simp [encodeProperty]
      · intro e he pre rest h
        exact readsAt_scanProperty (hp e he) h
    unfold ReadsAt at hloop
    simp only [enc, lenBytes] at hloop
    simp only [hz, hfit, if_false, hloop, ok_bind]
    rfl

theorem reads_scanProperties {p : Properties} (hp : p.WellFormed) (hlen : p.encode.length < 2 ^ 28) :
    Reads scanProperties p.encode p := (Properties.decode_encode hp hlen).reads _

theorem Properties.decode_encode_self {p : Properties} (hp : p.WellFormed) (hlen : p.encode.length < 2 ^ 28) :
    Properties.decode p.encode = .ok (p, p.encode.length) := by
  simpa only [List.append_nil] using Properties.decode_encode hp hlen []

def Will.WellFormed (w : Will) : Prop :=
  Fits w.topic ∧ w.payload.length ≤ 65535 ∧ w.properties.WellFormed ∧
    w.delayInterval = w.properties.willDelayInterval.getD 0

def MqttPacketV5.WellFormed : MqttPacketV5 → Prop
  | .Connect p => p.properties.WellFormed ∧ Fits p.clientId ∧ (∀ w, p.will = some w → w.WellFormed) ∧
      (∀ u, p.username = some u → Fits u) ∧ (∀ s, p.password = some s → Fits s)
  | .ConnAck p => p.properties.WellFormed
  | .Publish p => p.properties.WellFormed ∧ Fits p.topic ∧ (p.packetId.isSome ↔ p.qos ≠ .AtMostOnce)
  | .PubAck p | .PubRec p | .PubRel p | .PubComp p => p.properties.WellFormed
  | .Subscribe p => p.properties.WellFormed ∧ ∀ f ∈ p.filters, Fits f.path
  | .SubAck p | .UnsubAck p => p.properties.WellFormed
  | .Unsubscribe p => p.properties.WellFormed ∧ ∀ f ∈ p.filters, Fits f
  | .PingReq | .PingResp => True
  | .Disconnect p | .Auth p => p.properties.WellFormed

theorem reads_decodeWill {w : Will} (h : w.WellFormed) (hlen : (encodeWill w).length < 2 ^ 28) :
    Reads (decodeWill w.qos w.retain) (encodeWill w) w := by
  obtain ⟨htopic, hpayload, hprops, hdelay⟩ := h
  simp only [encodeWill, List.length_append] at hlen
  refine (reads_scanProperties hprops (by omega)).bind ?_
  refine (Scan.reads_string htopic).bind ?_
  refine (reads_willPayload hpayload _ _).bindPure ?_
  rw [← hdelay]

theorem decodeConnect_remaining {p : ConnectPacket} (hp : (MqttPacketV5.Connect p).WellFormed)
    (hlen : (connectRemaining p).length < 2 ^ 28) (fixedHeader : UInt8) :
    decodeConnect (connectRemaining p) fixedHeader = .ok p := by
  obtain ⟨hprops, hid, hwill, huser, hpass⟩ := hp
  refine runOn_of_readsEnd ?_
  simp only [connectRemaining, protocolName_bytes, List.append_assoc, List.length_append] at hlen ⊢
  refine (Scan.reads_string (by decide)).bindEnd ?_
  refine ReadsEnd.ensured ?_ (by simp) _
  refine (Scan.reads_next 5).bindEnd ?_
  refine (Scanning.reads_reject rfl _).bindNilEnd ?_
  refine ReadsEnd.ensured ?_ (by simp) _
  refine (Scan.reads_next _).bindEnd ?_
  simp only [connectFlags_clean, connectFlags_will, connectFlags_password, connectFlags_username]
  refine ReadsEnd.ensured ?_ (by simp [u16ToBeBytes]) _
  refine (Scan.reads_u16 p.keepAlive).bindEnd ?_
  refine (reads_scanProperties hprops (by omega)).bindEnd ?_
  refine (Scan.reads_string hid).bindEnd ?_
  have hw : ∀ w, p.will = some w → Reads (decodeWill
      ((QoS.fromU8 ((connectFlags p.cleanStart (p.will.map fun w => (w.qos, w.retain)) p.password.isSome
        p.username.isSome >>> 3) &&& 0x03)).getD .AtMostOnce)
      (connectFlags p.cleanStart (p.will.map fun w => (w.qos, w.retain)) p.password.isSome
        p.username.isSome &&& 0x20 != 0)) (encodeWill w) w := by
    intro w hw
    simp only [hw, Option.elim_some] at hlen
    rw [hw, Option.map_some, connectFlags_willQos, connectFlags_willRetain]
    exact reads_decodeWill (hwill w hw) (by omega)
  refine (Scanning.reads_readIf p.will (by simp) hw).bindEnd ?_
  refine (Scanning.reads_readIf p.username rfl fun u hu => Scan.reads_string (huser u hu)).bindEnd ?_
  refine ((Scanning.reads_readIf p.password rfl fun s hs => Scan.reads_string (hpass s hs)).bindPure ?_).toEnd
  rfl

theorem sessionPresent_bit (b : Bool) : ((if b then 0x01 else 0x00 : UInt8) &&& 0x01 != 0) = b := by
  cases b <;> rfl

theorem decodeConnack_remaining {p : ConnAckPacket} (hp : p.properties.WellFormed)
    (hlen : p.properties.encode.length < 2 ^ 28) (fixedHeader : UInt8) :
    decodeConnack ((if p.sessionPresent then 0x01 else 0x00) :: p.reasonCode.toU8 :: p.properties.encode)
      fixedHeader = .ok p := by
  simp only [decodeConnack, ReasonCode.fromU8_toU8, okOr, ok_bind, Properties.decode_encode_self hp hlen,
    sessionPresent_bit]
  rfl

theorem PublishPacket.sentId_eq {p : PublishPacket} (h : p.packetId.isSome ↔ p.qos ≠ .AtMostOnce) :
    p.sentId = p.packetId ∧ (p.qos != .AtMostOnce) = p.packetId.isSome := by
  by_cases hq : p.qos = .AtMostOnce
  · have hn : p.packetId = none := by
      rw [← Option.not_isSome_iff_eq_none, h]
      exact not_not.mpr hq
    simp [PublishPacket.sentId, hq, hn]
  · have hs : p.packetId.isSome = true := h.mpr hq
    simp [PublishPacket.sentId, hq, hs]

theorem decodePublish_remaining {p : PublishPacket} (hp : (MqttPacketV5.Publish p).WellFormed)
    (hlen : p.properties.encode.length < 2 ^ 28) (dup : Bool) :
    decodePublish (encodeString p.topic ++ (p.properties.encode ++ (p.sentId.elim [] u16ToBeBytes ++ p.payload)))
      (publishFixedByte p.qos p.retain dup) = .ok p := by
  obtain ⟨hprops, htopic, hpid⟩ := hp
  obtain ⟨hsent, hflag⟩ := PublishPacket.sentId_eq hpid
  simp only [decodePublish, publishFixedByte_qos, okOr, ok_bind, publishFixedByte_retain, hsent]
  refine runOn_of_readsEnd ?_
  refine (Scan.reads_string htopic).bindEnd ?_
  refine (reads_scanProperties hprops hlen).bindEnd ?_
  refine (Scanning.reads_readIf p.packetId hflag fun pid _ => (Scan.reads_u16 pid).ensured ?_ _).bindEnd ?_
  · simp [u16ToBeBytes]
  · exact (Scanning.readsEnd_takeRest _ p.payload).bindPure rfl

theorem decodeReason_remaining {c : ReasonCode} {p : Properties} (hp : p.WellFormed)
    (hlen : p.encode.length < 2 ^ 28) :
    decodeReason (c.toU8 :: p.encode) = .ok { reasonCode := c, properties := p } := by
  have hlong : (c.toU8 :: p.encode).length > 1 := by
    have h := p.encode_pos
    simp only [List.length_cons]
    omega
  simp only [decodeReason, hlong, if_true, List.drop_succ_cons, List.drop_zero, ReasonCode.fromU8_toU8,
    Option.getD_some, Properties.decode_encode_self hp hlen, ok_bind]
  rfl

theorem decodeAck_remaining (name : String) {p : AckPacket} (hp : p.properties.WellFormed)
    (hlen : p.properties.encode.length < 2 ^ 28) :
    decodeAck name (u16ToBeBytes p.packetId ++ (p.reasonCode.toU8 :: p.properties.encode)) = .ok p := by
  simp only [u16ToBeBytes, List.cons_append, List.nil_append, decodeAck, u16_roundtrip,
    decodeReason_remaining hp hlen, ok_bind]
  rfl

theorem subscribeOptions_bits (qos : QoS) (noLocal retainAsPublished : Bool) (handling : RetainHandling) :
    let options := subscribeOptions qos noLocal retainAsPublished handling
    QoS.fromU8 (options &&& 0x03) = some qos ∧ (options &&& 0x04 != 0) = noLocal ∧
      (options &&& 0x08 != 0) = retainAsPublished ∧
      (RetainHandling.fromU8 ((options >>> 4) &&& 0x03)).getD .Send = handling := by
  cases qos <;> cases noLocal <;> cases retainAsPublished <;> cases handling <;> decide

theorem reads_scanSubscribeFilter {f : SubscribeFilter} (h : Fits f.path) :
    Reads scanSubscribeFilter (encodeSubscribeFilter f) f := by
  obtain ⟨hq, hlocal, hretain, hhandling⟩ :=
    subscribeOptions_bits f.qos f.noLocal f.retainAsPublished f.retainHandling
  refine (Scan.reads_string h).bind ?_
  refine Reads.ensured ?_ (by simp) _
  refine (Scan.reads_next _).bindPure ?_
  simp only [hq, hlocal, hretain, hhandling]
  rfl

theorem scanFilters_remaining {α : Type} {item : Scan α} {enc : α → Bytes} {pid : PacketId} {p : Properties}
    {filters : List α} (hp : p.WellFormed) (hlen : p.encode.length < 2 ^ 28)
    (hpos : ∀ x ∈ filters, 0 < (enc x).length) (hitem : ∀ x ∈ filters, Reads item (enc x) x) (tooShort : String) :
    (scanFilters item tooShort).runOn (u16ToBeBytes pid ++ (p.encode ++ filters.flatMap enc)) =
      .ok (pid, filters, p) := by
  refine runOn_of_readsEnd ?_
  refine ReadsEnd.ensured ?_ (by simp [u16ToBeBytes]) _
  refine (Scan.reads_u16 pid).bindEnd ?_
  refine (reads_scanProperties hp hlen).bindEnd ?_
  exact (Scanning.readsEnd_whileData hpos hitem).bindPure rfl

theorem decodeSubscribe_remaining {p : SubscribePacket} (hp : (MqttPacketV5.Subscribe p).WellFormed)
    (hlen : p.properties.encode.length < 2 ^ 28) :
    decodeSubscribe (u16ToBeBytes p.packetId ++
      (p.properties.encode ++ p.filters.flatMap encodeSubscribeFilter)) = .ok p := by
  rw [decodeSubscribe, scanFilters_remaining hp.1 hlen (fun f _ => by simp [encodeSubscribeFilter])
    fun f hf => reads_scanSubscribeFilter (hp.2 f hf)]
  rfl

theorem decodeUnsubscribe_remaining {p : UnsubscribePacket} (hp : (MqttPacketV5.Unsubscribe p).WellFormed)
    (hlen : p.properties.encode.length < 2 ^ 28) :
    decodeUnsubscribe (u16ToBeBytes p.packetId ++
      (p.properties.encode ++ p.filters.flatMap encodeString)) = .ok p := by
  rw [decodeUnsubscribe, scanFilters_remaining hp.1 hlen (fun f _ => by simp [encodeString])
    fun f hf => Scan.reads_string (hp.2 f hf)]
  rfl

theorem decodeCodes_remaining (name : String) {p : SubAckPacket} (hp : p.properties.WellFormed)
    (hlen : p.properties.encode.length < 2 ^ 28) :
    decodeCodes name (u16ToBeBytes p.packetId ++ (p.properties.encode ++ p.reasonCodes.map ReasonCode.toU8)) =
      .ok p := by
  have hcodes : (p.reasonCodes.map ReasonCode.toU8).filterMap ReasonCode.fromU8 = p.reasonCodes := by
    have hc : ReasonCode.fromU8 ∘ ReasonCode.toU8 = some := funext ReasonCode.fromU8_toU8
    rw [List.filterMap_map, hc, List.filterMap_some]
  refine runOn_of_readsEnd ?_
  refine ReadsEnd.ensured ?_ (by simp [u16ToBeBytes]) _
  refine (Scan.reads_u16 p.packetId).bindEnd ?_
  refine (reads_scanProperties hp hlen).bindEnd ?_
  refine (Scanning.readsEnd_takeRest _ _).bindPure ?_
  rw [hcodes]

theorem decodeAuth_remaining {p : ReasonPacket} (hp : p.properties.WellFormed)
    (hlen : p.properties.encode.length < 2 ^ 28) : decodeAuth (p.reasonCode.toU8 :: p.properties.encode) = .ok p := by
  simp only [decodeAuth, ReasonCode.fromU8_toU8, okOr, ok_bind, Properties.decode_encode_self hp hlen]
  rfl

theorem properties_lt {pid : PacketId} {p : Properties} {tail : Bytes} {bound : ℕ}
    (h : (u16ToBeBytes pid ++ (p.encode ++ tail)).length < bound) : p.encode.length < bound := by
  simp only [List.length_append] at h
  omega

theorem properties_lt_ack {pid : PacketId} {c : ReasonCode} {p : Properties} {bound : ℕ}
    (h : (u16ToBeBytes pid ++ (c.toU8 :: p.encode)).length < bound) : p.encode.length < bound := by
  simp only [List.length_append, List.length_cons] at h
  omega

/-- Every encoding is a frame whose body, if the length field can hold its length, decodes to the
    packet. -/
theorem encodePacket_frame {p : MqttPacketV5} (hp : p.WellFormed) : ∃ fixedByte packetType remaining,
    encodePacket p = .ok (frame fixedByte remaining) ∧ PacketType.fromU8 fixedByte = some packetType ∧
      (remaining.length < 2 ^ 28 → decodeBody packetType remaining fixedByte = .ok p) := by
  cases p with
  | Connect p =>
    refine ⟨_, .Connect, connectRemaining p, rfl, rfl, fun hlen => ?_⟩
    rw [decodeBody, decodeConnect_remaining hp hlen]; rfl
  | ConnAck p =>
    refine ⟨_, .ConnAck, _, rfl, rfl, fun hlen => ?_⟩
    rw [decodeBody, decodeConnack_remaining hp (by simp only [List.length_cons] at hlen; omega)]; rfl
  | Publish p =>
    refine ⟨_, .Publish, _, rfl, publishFixedByte_type _ _ _, fun hlen => ?_⟩
    rw [decodeBody, decodePublish_remaining hp (by simp only [List.length_append] at hlen; omega)]; rfl
  | PubAck p =>
    refine ⟨_, .PubAck, _, rfl, rfl, fun hlen => ?_⟩
    rw [decodeBody, decodePuback, decodeAck_remaining _ hp (properties_lt_ack hlen)]; rfl
  | PubRec p =>
    refine ⟨_, .PubRec, _, rfl, rfl, fun hlen => ?_⟩
    rw [decodeBody, decodePubrec, decodeAck_remaining _ hp (properties_lt_ack hlen)]; rfl
  | PubRel p =>
    refine ⟨_, .PubRel, _, rfl, rfl, fun hlen => ?_⟩
    rw [decodeBody, decodePubrel, decodeAck_remaining _ hp (properties_lt_ack hlen)]; rfl
  | PubComp p =>
    refine ⟨_, .PubComp, _, rfl, rfl, fun hlen => ?_⟩
    rw [decodeBody, decodePubcomp, decodeAck_remaining _ hp (properties_lt_ack hlen)]; rfl
  | Subscribe p =>
    refine ⟨_, .Subscribe, _, rfl, rfl, fun hlen => ?_⟩
    rw [decodeBody, decodeSubscribe_remaining hp (properties_lt hlen)]; rfl
  | SubAck p =>
    refine ⟨_, .SubAck, _, rfl, rfl, fun hlen => ?_⟩
    rw [decodeBody, decodeSuback, decodeCodes_remaining _ hp (properties_lt hlen)]; rfl
  | Unsubscribe p =>
    refine ⟨_, .Unsubscribe, _, rfl, rfl, fun hlen => ?_⟩
    rw [decodeBody, decodeUnsubscribe_remaining hp (properties_lt hlen)]; rfl
  | UnsubAck p =>
    refine ⟨_, .UnsubAck, _, rfl, rfl, fun hlen => ?_⟩
    rw [decodeBody, decodeUnsuback, decodeCodes_remaining _ hp (properties_lt hlen)]; rfl
  | PingReq => exact ⟨_, .PingReq, [], rfl, rfl, fun _ => rfl⟩
  | PingResp => exact ⟨_, .PingResp, [], rfl, rfl, fun _ => rfl⟩
  | Disconnect p =>
    refine ⟨_, .Disconnect, _, rfl, rfl, fun hlen => ?_⟩
    rw [decodeBody, decodeDisconnect, decodeReason_remaining hp (by simp only [List.length_cons] at hlen; omega)]; rfl
  | Auth p =>
    refine ⟨_, .Auth, _, rfl, rfl, fun hlen => ?_⟩
    rw [decodeBody, decodeAuth_remaining hp (by simp only [List.length_cons] at hlen; omega)]; rfl

theorem decodePacket_sent {p : MqttPacketV5} (hp : p.WellFormed) {b : Bytes} (henc : encodePacket p = .ok b)
    (hmax : b.length ≤ 10 * 1024 * 1024) (r : Bytes) : decodePacket (b ++ r) = .ok (some (p, b.length)) := by
  obtain ⟨fixedByte, packetType, remaining, hframe, htype, hbody⟩ := encodePacket_frame hp
  obtain rfl : frame fixedByte remaining = b := Except.ok.inj (hframe.symm.trans henc)
  have hlen : remaining.length < 2 ^ 28 := by
    have h := frame_length fixedByte remaining
    omega
  rw [decodePacket, MAX_PACKET_SIZE, decodeFrame_frame decodeBody r htype hmax (by decide), hbody hlen]
  rfl

/-- The round trip of the whole format: a well-formed packet is encoded, and if the encoding is at
    most 10 MiB then it decodes to the packet and its own length, whatever bytes follow. -/
theorem decodePacketV5_encodePacket {p : MqttPacketV5} (hp : p.WellFormed) :
    ∃ b, encodePacket p = .ok b ∧ (b.length ≤ 10 * 1024 * 1024 →
      ∀ r, decodePacket (b ++ r) = .ok (some (p, b.length))) := by
  obtain ⟨fixedByte, packetType, remaining, henc, _, _⟩ := encodePacket_frame hp
  exact ⟨_, henc, fun hmax r => decodePacket_sent hp henc hmax r⟩

def publishWithProperties : PublishPacket where
  topic := "sensor/1"
  payload := [0x01, 0x02]
  qos := .AtLeastOnce
  retain := true
  packetId := some 10
  properties := { inner := [(.PayloadFormatIndicator, .Byte 1), (.SubscriptionIdentifier, .VariableByteInteger 300),
    (.ContentType, .UTF8String "text/plain"), (.UserProperty, .Pair "unit" "°C")] }

theorem publishWithProperties_wellFormed : (MqttPacketV5.Publish publishWithProperties).WellFormed := by
  refine ⟨?_, by decide, by decide⟩
  intro e he
  simp only [publishWithProperties, List.mem_cons, List.not_mem_nil, or_false] at he
  obtain rfl | rfl | rfl | rfl := he
  · exact ⟨rfl, trivial⟩
  · exact ⟨rfl, show (300 : UInt32).toNat < 2 ^ 28 by decide⟩
  · exact ⟨rfl, show Fits "text/plain" by decide⟩
  · exact ⟨rfl, show Fits "unit" by decide, show Fits "°C" by decide⟩

theorem decodePacketV5_encodePacket_publish : (MqttPacketV5.Publish publishWithProperties).WellFormed ∧
    ∃ b, encodePacket (.Publish publishWithProperties) = .ok b ∧ b.length ≤ 10 * 1024 * 1024 ∧
      ∀ r, decodePacket (b ++ r) = .ok (some (.Publish publishWithProperties, b.length)) := by
  obtain ⟨b, henc, hdec⟩ := decodePacketV5_encodePacket publishWithProperties_wellFormed
  have hmax : b.length ≤ 10 * 1024 * 1024 := by
    cases henc
    decide
  exact ⟨publishWithProperties_wellFormed, b, henc, hmax, hdec hmax⟩

end AtomMqtt.V5
