import AtomMqtt.FramedCodec
import AtomMqtt.IncrementalDecoding

set_option autoImplicit false

/-! A stream of packets through the framed codec. Frames are free of prefixes, so the codec cuts a stream of
them at its frames, however the stream arrives. -/
namespace AtomMqtt
open Framing

/-- These bytes are as many as their remaining length says. -/
def IsFrame (bytes : Bytes) : Prop :=
  ∃ remainingLen lenBytes, decodeRemainingLength (bytes.drop 1) = .ok (remainingLen, lenBytes) ∧
    bytes.length = 1 + lenBytes + remainingLen

theorem IsFrame.length {bytes : Bytes} (h : IsFrame bytes) : 2 ≤ bytes.length := by
  obtain ⟨remainingLen, lenBytes, hr, hlen⟩ := h
  have hpos : 0 < lenBytes := decodeRemainingLoop_pos hr
  omega

theorem IsFrame.append {bytes : Bytes} (h : IsFrame bytes) (rest : Bytes) : ∃ remainingLen lenBytes,
    decodeRemainingLength ((bytes ++ rest).drop 1) = .ok (remainingLen, lenBytes) ∧
      bytes.length = 1 + lenBytes + remainingLen := by
  have htwo := h.length
  obtain ⟨remainingLen, lenBytes, hr, hlen⟩ := h
  refine ⟨remainingLen, lenBytes, ?_, hlen⟩
  rw [List.drop_append_of_le_length (by omega)]
  exact decodeRemainingLength_append hr rest

theorem IsFrame.unique {bytes bytes' rest rest' : Bytes} (h : IsFrame bytes) (h' : IsFrame bytes')
    (heq : bytes ++ rest = bytes' ++ rest') : bytes = bytes' ∧ rest = rest' := by
  obtain ⟨remainingLen, lenBytes, hr, hlen⟩ := h.append rest
  obtain ⟨remainingLen', lenBytes', hr', hlen'⟩ := h'.append rest'
  rw [heq, hr'] at hr
  cases hr
  exact List.append_inj heq (hlen.trans hlen'.symm)

theorem isFrame_frame {fixedByte : UInt8} {remaining : Bytes} (h : remaining.length < 2 ^ 28) :
    IsFrame (frame fixedByte remaining) :=
  ⟨_, _, decodeRemainingLength_encode h remaining, frame_length fixedByte remaining⟩

theorem isFrame_take {src : Bytes} {remainingLen lenBytes : ℕ}
    (hr : decodeRemainingLength (src.drop 1) = .ok (remainingLen, lenBytes))
    (hlen : 1 + lenBytes + remainingLen ≤ src.length) : IsFrame (src.take (1 + lenBytes + remainingLen)) := by
  obtain ⟨used, rest, hsplit, hlenBytes, hused⟩ := decodeRemainingLoop_used hr
  refine ⟨remainingLen, lenBytes, ?_, ?_⟩
  · have htake : (src.take (1 + lenBytes + remainingLen)).drop 1 = used ++ rest.take remainingLen := by
      rw [List.drop_take, hsplit, List.take_append]
      have hall : used.take (1 + lenBytes + remainingLen - 1) = used := List.take_of_length_le (by omega)
      rw [hall, show 1 + lenBytes + remainingLen - 1 - used.length = remainingLen by omega]
    rw [htake]
    exact decodeRemainingLength_append hused _
  · rw [List.length_take]
    omega

section
variable (codec : MqttFramedCodec)

theorem decode_frame {bytes : Bytes} (h : IsFrame bytes) (rest : Bytes)
    (hmax : bytes.length ≤ codec.inner.maxPacketSize) :
    codec.decode (bytes ++ rest) = (codec.inner.decode bytes, rest) := by
  have htwo := h.length
  obtain ⟨remainingLen, lenBytes, hr, hlen⟩ := h.append rest
  have hlong : ¬ (bytes ++ rest).length < 2 := by
    rw [List.length_append]
    omega
  have hwhole : ¬ (bytes ++ rest).length < bytes.length := by
    rw [List.length_append]
    omega
  have hfit : ¬ bytes.length > codec.inner.maxPacketSize := by omega
  simp only [MqttFramedCodec.decode, hlong, if_false, hr, ← hlen, hwhole, hfit, List.take_left, List.drop_left]

theorem decode_oversized {bytes : Bytes} (h : IsFrame bytes) (rest : Bytes)
    (hmax : codec.inner.maxPacketSize < bytes.length) :
    codec.decode (bytes ++ rest) = (err (.PacketTooLarge bytes.length), bytes ++ rest) := by
  have htwo := h.length
  obtain ⟨remainingLen, lenBytes, hr, hlen⟩ := h.append rest
  have hlong : ¬ (bytes ++ rest).length < 2 := by
    rw [List.length_append]
    omega
  have hwhole : ¬ (bytes ++ rest).length < bytes.length := by
    rw [List.length_append]
    omega
  simp only [MqttFramedCodec.decode, hlong, if_false, hr, ← hlen, hwhole, gt_iff_lt, hmax, if_true]

theorem decode_waits {src : Bytes} (h : ∀ bytes rest, src = bytes ++ rest → ¬ IsFrame bytes) :
    codec.decode src = (.ok none, src) := by
  rw [MqttFramedCodec.decode]
  by_cases htwo : src.length < 2
  · rw [if_pos htwo]
  · rw [if_neg htwo]
    cases hr : decodeRemainingLength (src.drop 1) with
    | error e =>
      obtain rfl := decodeRemainingLength_error hr
      rfl
    | ok result =>
      obtain ⟨remainingLen, lenBytes⟩ := result
      by_cases hshort : src.length < 1 + lenBytes + remainingLen
      · simp only [hshort, if_true]
      · have hframe := isFrame_take hr (Nat.le_of_not_lt hshort)
        exact absurd hframe (h _ _ (List.take_append_drop _ _).symm)

theorem decode_part {received missing : Bytes} (h : IsFrame (received ++ missing)) (hmissing : missing ≠ []) :
    codec.decode received = (.ok none, received) := by
  apply decode_waits
  rintro bytes rest rfl hbytes
  rw [List.append_assoc] at h
  have heq : bytes ++ (rest ++ missing) = (bytes ++ (rest ++ missing)) ++ [] := (List.append_nil _).symm
  have hrest := (hbytes.unique h heq).2
  exact hmissing (List.append_eq_nil_iff.mp hrest).2

end

theorem decodeConnect_sent (codec : MqttCodec) {p : V3.ConnectPacket} (hp : (V3.MqttPacketV3.Connect p).WellFormed)
    {bytes : Bytes} (henc : V3.encodePacket (.Connect p) = .ok bytes) (hmax : bytes.length ≤ codec.maxPacketSize)
    (hlimit : bytes.length ≤ 10 * 1024 * 1024) : codec.decodeConnect bytes = .ok (some (.V311 (.Connect p))) := by
  obtain rfl : frame PacketType.Connect.toU8 (V3.connectRemaining p) = bytes := Except.ok.inj henc
  have hsent := V3.decodePacket_sent hp henc hlimit []
  rw [List.append_nil] at hsent
  have htotal := frame_length PacketType.Connect.toU8 (V3.connectRemaining p)
  have hpos := encodeRemainingLength_pos (V3.connectRemaining p).length
  obtain ⟨rest, hbody, hrest⟩ : ∃ rest, V3.connectRemaining p = [0x00, 0x04, 0x4D, 0x51, 0x54, 0x54, 0x04] ++ rest ∧
      3 ≤ rest.length := by
    refine ⟨_, rfl, ?_⟩
    simp [u16ToBeBytes]
  have hr := frame_header PacketType.Connect.toU8 (show (V3.connectRemaining p).length < 2 ^ 28 by omega)
  have hslice : slice (frame PacketType.Connect.toU8 (V3.connectRemaining p))
      (1 + (encodeRemainingLength (V3.connectRemaining p).length).length)
      (frame PacketType.Connect.toU8 (V3.connectRemaining p)).length = .ok (V3.connectRemaining p) := by
    apply slice_eq_ok_iff.mpr
    refine ⟨by omega, le_rfl, ?_⟩
    rw [List.take_length, frame_drop]
  have hten : ¬ (frame PacketType.Connect.toU8 (V3.connectRemaining p)).length < 10 := by
    rw [htotal, hbody, List.length_append]
    simp only [List.length_cons, List.length_nil]
    omega
  have hhead : ¬ (frame PacketType.Connect.toU8 (V3.connectRemaining p)).length <
      1 + (encodeRemainingLength (V3.connectRemaining p).length).length := by omega
  have hlong : ¬ (V3.connectRemaining p).length < 7 := by
    rw [hbody, List.length_append]
    simp only [List.length_cons, List.length_nil]
    omega
  have hlevel : (V3.connectRemaining p).getD 6 0 = 4 := by
    rw [hbody]
    rfl
  have hfit : ¬ (frame PacketType.Connect.toU8 (V3.connectRemaining p)).length > codec.maxPacketSize := by omega
  simp only [MqttCodec.decodeConnect, hten, if_false, hr, ok_bind, hhead, ← htotal, lt_irrefl, hfit, hslice, hlong, hlevel,
    UInt8.reduceToNat, hsent, connectPacket, okOr]
  rfl

theorem inner_decode_sent (codec : MqttCodec) {p : V3.MqttPacketV3} (hp : p.WellFormed) {bytes : Bytes}
    (henc : V3.encodePacket p = .ok bytes) (hmax : bytes.length ≤ codec.maxPacketSize)
    (hlimit : bytes.length ≤ 10 * 1024 * 1024) : codec.decode bytes = .ok (some (.V311 p)) := by
  have hsent := V3.decodePacket_sent hp henc hlimit []
  rw [List.append_nil] at hsent
  obtain ⟨fixedByte, packetType, remaining, hframe, htype, hbody⟩ := V3.encodePacket_frame hp
  obtain rfl : frame fixedByte remaining = bytes := Except.ok.inj (hframe.symm.trans henc)
  by_cases hconnect : packetType = .Connect
  · subst hconnect
    obtain ⟨c, _, rfl⟩ := map_eq_ok.mp hbody
    have hdecoded := decodeConnect_sent codec hp henc hmax hlimit
    rw [frame] at hdecoded ⊢
    simp only [MqttCodec.decode, htype, okOr, ok_bind, beq_self_eq_true, if_true, hdecoded]
  · have hother : (packetType == .Connect) = false := beq_eq_false_iff_ne.mpr hconnect
    rw [frame] at hsent ⊢
    simp only [MqttCodec.decode, htype, okOr, ok_bind, hother, Bool.false_eq_true, if_false, hsent, unwrapOrNone]
    rfl

/-- What a sender of this codec may make one packet of. -/
structure Framed (codec : MqttFramedCodec) (p : V3.MqttPacketV3) : Prop where
  wellFormed : p.WellFormed
  length : (sentBytes (.V311 p)).length ≤ min codec.inner.maxPacketSize V3.MAX_PACKET_SIZE

theorem pulled {codec : MqttFramedCodec} {p : V3.MqttPacketV3} (h : Framed codec p) :
    Pulled sentBytes codec.decode (.V311 p) := by
  obtain ⟨hp, hlength⟩ := h
  obtain ⟨hmax, hlimit⟩ := le_min_iff.mp hlength
  obtain ⟨fixedByte, packetType, remaining, henc, _, _⟩ := V3.encodePacket_frame hp
  have hbytes : sentBytes (.V311 p) = frame fixedByte remaining := by
    rw [sentBytes, encodePacket, henc]
    rfl
  rw [hbytes] at hmax hlimit
  have hframe : IsFrame (frame fixedByte remaining) := by
    apply isFrame_frame
    have htotal := frame_length fixedByte remaining
    rw [V3.MAX_PACKET_SIZE] at hlimit
    omega
  constructor
  · intro r
    rw [hbytes, decode_frame codec hframe r hmax, inner_decode_sent codec.inner hp henc hmax hlimit]
  · intro received missing hpart hmissing
    rw [hbytes] at hpart
    rw [hpart] at hframe
    exact decode_part codec hframe hmissing

theorem encode_all (codec : MqttFramedCodec) (packets : List MqttPacket) (dst : Bytes) :
    packets.foldlM (fun dst item => codec.encode item dst) dst = .ok (dst ++ packets.flatMap sentBytes) := by
  induction packets generalizing dst with
  | nil =>
    rw [List.flatMap_nil, List.append_nil]
    rfl
  | cons packet packets ih =>
    obtain ⟨bytes, henc⟩ := encodePacket_ok packet
    have hbytes : sentBytes packet = bytes := by
      rw [sentBytes, henc]
      rfl
    rw [List.foldlM_cons, MqttFramedCodec.encode, henc, List.flatMap_cons, hbytes, ← List.append_assoc]
    exact ih (dst ++ bytes)

/-- The packets encoded one after the other, in whatever chunks the bytes arrive, are what the codec decodes, and it
    is left with an empty buffer. -/
theorem framed_stream (codec : MqttFramedCodec) (packets : List V3.MqttPacketV3) (h : ∀ p ∈ packets, Framed codec p) :
    ∃ stream, (packets.map .V311).foldlM (fun dst item => codec.encode item dst) [] = .ok stream ∧
      ∀ chunks : List Bytes, chunks.flatten = stream → ∀ decoded left,
        Pulls codec.decode [] chunks decoded left ↔ decoded = packets.map .V311 ∧ left = [] := by
  refine ⟨_, encode_all codec (packets.map .V311) [], ?_⟩
  intro chunks hchunks decoded left
  have hitems : ∀ x ∈ packets.map .V311, Pulled sentBytes codec.decode x := by
    intro x hx
    obtain ⟨p, hp, rfl⟩ := List.mem_map.mp hx
    exact pulled (h p hp)
  have hempty : codec.decode [] = (.ok none, []) := rfl
  have hstream : [] ++ chunks.flatten = (packets.map MqttPacket.V311).flatMap sentBytes := hchunks
  have hpulls := pulls_stream hempty chunks (packets.map .V311) hitems hstream
  constructor
  · intro h'
    exact h'.unique hpulls
  · rintro ⟨rfl, rfl⟩
    exact hpulls

theorem framed_stream_connect : ∃ stream : Bytes,
    (([.Connect V3.connectWithWill, .PingReq] : List V3.MqttPacketV3).map .V311).foldlM
      (fun dst item => (MqttFramedCodec.new 100).encode item dst) [] = .ok stream ∧
    Pulls (MqttFramedCodec.new 100).decode [] [stream.take 1, (stream.drop 1).take 5, stream.drop 6]
      [.V311 (.Connect V3.connectWithWill), .V311 .PingReq] [] := by
  have hframed : ∀ p ∈ ([.Connect V3.connectWithWill, .PingReq] : List V3.MqttPacketV3),
      Framed (MqttFramedCodec.new 100) p := by
    intro p hp
    simp only [List.mem_cons, List.not_mem_nil, or_false] at hp
    rcases hp with rfl | rfl
    · exact ⟨V3.connectWithWill_wellFormed, by decide +kernel⟩
    · exact ⟨trivial, by decide +kernel⟩
  obtain ⟨stream, hencode, hpulls⟩ := framed_stream (MqttFramedCodec.new 100) _ hframed
  refine ⟨stream, hencode, (hpulls _ ?_ _ _).mpr ⟨rfl, rfl⟩⟩
  have hrest : stream.drop 6 = (stream.drop 1).drop 5 := by rw [List.drop_drop]
  rw [hrest]
  simp only [List.flatten_cons, List.flatten_nil, List.append_nil, List.take_append_drop]

end AtomMqtt
