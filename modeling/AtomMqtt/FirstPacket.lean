import AtomMqtt.Server
import AtomMqtt.Wire

set_option autoImplicit false

/-! The first packet of a connection. -/
namespace AtomMqtt
open Scanning

section
variable {fixedHeader : UInt8}

theorem decodeBodyV3_connect {packetType : PacketType} {data : Bytes} {connect : V3.ConnectPacket}
    (h : V3.decodeBody packetType data fixedHeader = .ok (.Connect connect)) :
    packetType = .Connect ∧ V3.decodeConnect data fixedHeader = .ok connect := by
  cases packetType <;> simp only [V3.decodeBody] at h
  case Connect =>
    obtain ⟨p, hp, heq⟩ := map_eq_ok.mp h
    cases heq
    exact ⟨rfl, hp⟩
  case PingReq | PingResp | Disconnect | Auth => cases h
  all_goals
    obtain ⟨p, -, heq⟩ := map_eq_ok.mp h
    cases heq

theorem decodeBodyV5_connect {packetType : PacketType} {data : Bytes} {connect : V5.ConnectPacket}
    (h : V5.decodeBody packetType data fixedHeader = .ok (.Connect connect)) :
    packetType = .Connect ∧ V5.decodeConnect data fixedHeader = .ok connect := by
  cases packetType <;> simp only [V5.decodeBody] at h
  case Connect =>
    obtain ⟨p, hp, heq⟩ := map_eq_ok.mp h
    cases heq
    exact ⟨rfl, hp⟩
  case PingReq | PingResp => cases h
  all_goals
    obtain ⟨p, -, heq⟩ := map_eq_ok.mp h
    cases heq

end

theorem connectFields_eq_some {packet : MqttPacket} {c : ConnectFields} (h : connectFields packet = some c) :
    (∃ connect, packet = .V311 (.Connect connect) ∧ c.version = .V311) ∨
      ∃ connect, packet = .V5 (.Connect connect) ∧ c.version = .V5 := by
  cases packet with
  | V311 p =>
    cases p with
    | Connect connect =>
      cases h
      exact .inl ⟨connect, rfl, rfl⟩
    | _ => cases h
  | V5 p =>
    cases p with
    | Connect connect =>
      cases h
      exact .inr ⟨connect, rfl, rfl⟩
    | _ => cases h

theorem decodeConnect_versions {data : Bytes} {fixedHeader : UInt8} {p : V5.ConnectPacket} {q : V3.ConnectPacket}
    (h5 : V5.decodeConnect data fixedHeader = .ok p) : V3.decodeConnect data fixedHeader ≠ .ok q := by
  intro h3
  simp only [V5.decodeConnect, V3.decodeConnect, Scan.runOn, V5.scanConnect, V3.scanConnect, bind_apply] at h5 h3
  cases hname : Scan.string data 0 with
  | error e =>
    rw [hname] at h5
    cases h5
  | ok name =>
    simp only [hname] at h5 h3
    cases hensure : Scan.ensure 1 (.InvalidPacket "Missing protocol level") data name.2 with
    | error e =>
      rw [hensure] at h5
      cases h5
    | ok here =>
      simp only [hensure] at h5 h3
      cases hlevel : Scan.next data here.2 with
      | error e =>
        rw [hlevel] at h5
        cases h5
      | ok level =>
        simp only [hlevel, Scan.reject, reject] at h5 h3
        by_cases hfive : level.1 = 5
        · simp [hfive] at h3
        · simp [hfive] at h5

theorem not_decodePacketV3 {buf : Bytes} {connect : V5.ConnectPacket} {size : ℕ}
    (h : V5.decodePacket buf = .ok (some (.Connect connect, size))) (p : V3.MqttPacketV3) (n : ℕ) :
    V3.decodePacket buf ≠ .ok (some (p, n)) := by
  intro hdecode
  obtain ⟨fixedHeader, tail, packetType, len, lenBytes, data, rfl, htype, hr, rfl, -, -, -, hs, hbody⟩ :=
    decodeFrame_eq_some_iff.mp h
  obtain ⟨fixedHeader', tail', packetType', len', lenBytes', data', hcons, htype', hr', rfl, -, -, -, hs', hbody'⟩ :=
    decodeFrame_eq_some_iff.mp hdecode
  obtain ⟨rfl, rfl⟩ := List.cons.inj hcons
  obtain rfl : packetType = packetType' := Option.some.inj (htype.symm.trans htype')
  obtain ⟨rfl, rfl⟩ : len = len' ∧ lenBytes = lenBytes' := by
    simpa using Except.ok.inj (hr.symm.trans hr')
  obtain rfl : data = data' := Except.ok.inj (hs.symm.trans hs')
  obtain ⟨rfl, hconnect⟩ := decodeBodyV5_connect hbody
  obtain ⟨q, hq, -⟩ := map_eq_ok.mp hbody'
  exact decodeConnect_versions hconnect hq

end AtomMqtt
