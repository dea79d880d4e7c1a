import AtomMqtt.V5RoundTrip

set_option autoImplicit false

/-! The layout of a PUBLISH in MQTT 5.0. The standard puts the packet identifier before the properties, the
encoder and the decoder put it after them. The two agree with each other, and with the standard where the order
makes no difference. -/
namespace AtomMqtt.V5

/-- Topic, packet identifier, properties with their length, payload, in the order of the standard. -/
def standardPublish (topic : String) (packetId : PacketId) (properties : Properties) (payload : Bytes) : Bytes :=
  encodeString topic ++ (u16ToBeBytes packetId ++ (properties.encode ++ payload))

theorem frame_right_inj {fixedByte : UInt8} {remaining remaining' : Bytes}
    (hlen : remaining.length = remaining'.length) :
    frame fixedByte remaining = frame fixedByte remaining' ↔ remaining = remaining' := by
  rw [frame, frame, hlen, List.cons_inj_right, List.append_right_inj]

section
variable {p : PublishPacket} {packetId : PacketId}

theorem PublishPacket.sentId_of_qos (hqos : p.qos ≠ .AtMostOnce) (hid : p.packetId = some packetId) :
    p.sentId = some packetId := by
  rw [PublishPacket.sentId, if_pos (bne_iff_ne.mpr hqos), hid]

theorem encodePublish_standard (hqos : p.qos ≠ .AtMostOnce) (hid : p.packetId = some packetId) :
    encodePublish p = .ok (frame (publishFixedByte p.qos p.retain false)
        (standardPublish p.topic packetId p.properties p.payload)) ↔
      u16ToBeBytes packetId ++ p.properties.encode = p.properties.encode ++ u16ToBeBytes packetId := by
  have hlen : (encodeString p.topic ++ (p.properties.encode ++ (u16ToBeBytes packetId ++ p.payload))).length =
      (standardPublish p.topic packetId p.properties p.payload).length := by
    simp only [standardPublish, List.length_append]
    omega
  rw [encodePublish, PublishPacket.sentId_of_qos hqos hid, Option.elim_some, Except.ok.injEq, frame_right_inj hlen,
    standardPublish, List.append_right_inj, ← List.append_assoc, ← List.append_assoc, List.append_left_inj]
  exact eq_comm

/-- The layout of the standard is decoded to the fields and written for them exactly if the packet identifier and
    the properties are the same bytes in either order. -/
theorem publishLayout_iff (hprops : p.properties.WellFormed) (hlen : p.properties.encode.length < 2 ^ 28)
    (htopic : Fits p.topic) (hqos : p.qos ≠ .AtMostOnce) (hid : p.packetId = some packetId) :
    ((∀ dup, decodePublish (standardPublish p.topic packetId p.properties p.payload)
        (publishFixedByte p.qos p.retain dup) = .ok p) ∧
      encodePublish p = .ok (frame (publishFixedByte p.qos p.retain false)
        (standardPublish p.topic packetId p.properties p.payload))) ↔
      u16ToBeBytes packetId ++ p.properties.encode = p.properties.encode ++ u16ToBeBytes packetId := by
  constructor
  · rintro ⟨_, hencode⟩
    exact (encodePublish_standard hqos hid).mp hencode
  · intro hsame
    refine ⟨?_, (encodePublish_standard hqos hid).mpr hsame⟩
    intro dup
    have hwell : (MqttPacketV5.Publish p).WellFormed := by
      refine ⟨hprops, htopic, ?_⟩
      rw [hid]
      exact iff_of_true rfl hqos
    have hbody : standardPublish p.topic packetId p.properties p.payload =
        encodeString p.topic ++ (p.properties.encode ++ (p.sentId.elim [] u16ToBeBytes ++ p.payload)) := by
      rw [standardPublish, PublishPacket.sentId_of_qos hqos hid, Option.elim_some,
        ← List.append_assoc (u16ToBeBytes packetId), hsame, List.append_assoc]
    rw [hbody]
    exact decodePublish_remaining hwell hlen dup

end

def publishZero : PublishPacket where
  topic := "test/topic"
  payload := asBytes "hello v5"
  qos := .AtLeastOnce
  retain := false
  packetId := some 0
  properties := Properties.new

theorem publishLayout_zero :
    ((∀ dup, decodePublish (standardPublish publishZero.topic 0 publishZero.properties publishZero.payload)
        (publishFixedByte publishZero.qos publishZero.retain dup) = .ok publishZero) ∧
      encodePublish publishZero = .ok (frame (publishFixedByte publishZero.qos publishZero.retain false)
        (standardPublish publishZero.topic 0 publishZero.properties publishZero.payload))) ↔
      u16ToBeBytes 0 ++ publishZero.properties.encode = publishZero.properties.encode ++ u16ToBeBytes 0 := by
  apply publishLayout_iff
  · intro e he
    cases he
  · decide
  · decide
  · decide
  · rfl

/-- The first byte of the packet identifier 10 is taken for the length of the properties. -/
theorem publishLayout_misread :
    decodePublish (standardPublish "test/topic" 10 Properties.new [0x68, 0x69])
        (publishFixedByte .AtLeastOnce false false) =
      .ok { topic := "test/topic", payload := [0x68, 0x69], qos := .AtLeastOnce, retain := false
            packetId := some 2560, properties := Properties.new } ∧
    encodePublish { topic := "test/topic", payload := [0x68, 0x69], qos := .AtLeastOnce, retain := false
                    packetId := some 10, properties := Properties.new } ≠
      .ok (frame (publishFixedByte .AtLeastOnce false false)
        (standardPublish "test/topic" 10 Properties.new [0x68, 0x69])) := by
  decide +kernel

end AtomMqtt.V5
