import AtomMqtt.Codec
import AtomMqtt.Wire
import AtomMqtt.Library.ScanBounds

set_option autoImplicit false

/-! The decoders stay inside their data. Neither `panic` nor `stuck` is a fault of a decoder: an input that is
no packet is answered by an error of MQTT. -/
namespace AtomMqtt
open Scanning

def Fault.IsError (e : Fault) : Prop := ∃ error, e = .mqtt error

theorem isError (e : MqttError) : Fault.IsError (.mqtt e) := ⟨e, rfl⟩

/-- The decoder of a whole slice returns or gives an error. -/
def Answers {α : Type} (result : MqttResult α) : Prop := ∀ e, result = .error e → e.IsError

theorem answers_ok {α : Type} (x : α) : Answers (.ok x) := nofun

theorem answers_err {α : Type} (e : MqttError) : Answers (err e : MqttResult α) := by
  intro e' h
  cases h
  exact isError e

theorem answers_okOr {α : Type} (opt : Option α) (e : MqttError) : Answers (okOr opt e) := by
  cases opt with
  | none => exact answers_err e
  | some x => exact answers_ok x

theorem Answers.bind {α β : Type} {x : MqttResult α} {f : α → MqttResult β} (h : Answers x)
    (hf : ∀ a, x = .ok a → Answers (f a)) : Answers (x >>= f) := by
  cases hx : x with
  | error e =>
    intro e' he
    cases he
    exact h e hx
  | ok a => exact hf a hx

theorem Answers.map {α β : Type} {x : MqttResult α} (h : Answers x) (f : α → β) : Answers (f <$> x) := by
  cases hx : x with
  | error e =>
    intro e' he
    cases he
    exact h e hx
  | ok a => exact answers_ok (f a)

theorem answers_decodeRemainingLength (buf : Bytes) : Answers (decodeRemainingLength buf) := by
  intro e h
  exact decodeRemainingLength_error h ▸ isError _

theorem decodeRemainingLength_bounds {buf : Bytes} {length consumed : ℕ}
    (h : decodeRemainingLength buf = .ok (length, consumed)) : 1 ≤ consumed ∧ consumed ≤ buf.length := by
  obtain ⟨used, rest, rfl, hconsumed, _⟩ := decodeRemainingLoop_used h
  have hpos := decodeRemainingLoop_pos h
  rw [List.length_append]
  omega

theorem answers_slice {data : Bytes} {i j : ℕ} (hij : i ≤ j) (hj : j ≤ data.length) : Answers (slice data i j) := by
  rw [slice, if_pos ⟨hij, hj⟩]
  exact answers_ok _

theorem answers_decodeString (buf : Bytes) : Answers (decodeString buf) := by
  match buf with
  | [] => exact answers_err _
  | [_] => exact answers_err _
  | hi :: lo :: rest =>
    simp only [decodeString]
    split
    · exact answers_err _
    · rename_i hlen
      refine (answers_slice (by omega) (by omega)).bind fun bytes _ => ?_
      exact (answers_okOr _ _).bind fun s _ => answers_ok _

theorem decodeString_bounds {buf : Bytes} {s : String} {consumed : ℕ} (h : decodeString buf = .ok (s, consumed)) :
    1 ≤ consumed ∧ consumed ≤ buf.length := by
  match buf with
  | [] => cases h
  | [_] => cases h
  | hi :: lo :: rest =>
    simp only [decodeString] at h
    split at h
    · cases h
    · rename_i hlen
      obtain ⟨bytes, _, h⟩ := bind_eq_ok.mp h
      obtain ⟨s', _, h⟩ := bind_eq_ok.mp h
      cases h
      omega

section
variable {α : Type} {data : Bytes}

abbrev Bounded (data : Bytes) (need : ℕ) (m : Scan α) (read left : ℕ) : Prop :=
  Guarded Fault.IsError data need m read left

theorem bounded_string : Bounded data 0 Scan.string 1 0 :=
  guarded_onRest _ (fun _ _ _ h => decodeString_bounds h) fun rest => answers_decodeString rest

theorem bounded_ensure (n : ℕ) (e : MqttError) : Bounded data 0 (Scan.ensure n e) 0 n := guarded_ensure n (isError e)

theorem bounded_reject (c : Bool) (e : MqttError) : Bounded data 0 (Scan.reject c e) 0 0 :=
  guarded_reject c (isError e) 0

theorem bounded_next (n : ℕ) : Bounded data (n + 1) Scan.next 1 n := guarded_next _ n

theorem bounded_okOr (opt : Option α) (e : MqttError) : Bounded data 0 (Scan.okOr opt e) 0 0 := by
  cases opt with
  | none => exact guarded_error (isError e) 0 0 0
  | some x => exact guarded_pure x 0

theorem bounded_takeN (n : ℕ) : Bounded data n (Scan.takeN n) 0 0 :=
  (guarded_takeN _ n).mono le_rfl (Nat.zero_le n) le_rfl

theorem bounded_u16 : Bounded data 2 Scan.u16 0 0 :=
  (bounded_next 1).bind fun _ => (bounded_next 0).bind fun _ => guarded_pure _ 0

theorem bounded_length16 : Bounded data 2 Scan.length16 0 0 :=
  (bounded_next 1).bind fun _ => (bounded_next 0).bind fun _ => guarded_pure _ 0

theorem bounded_willPayload (missing truncated : String) : Bounded data 0 (willPayload missing truncated) 0 0 :=
  (bounded_ensure 2 _).bind fun _ => bounded_length16.bind fun n => (bounded_ensure n _).bind fun _ => bounded_takeN n

theorem answers_runOn {m : Scan α} (h : Bounded data 0 m 0 0) : Answers (m.runOn data) := by
  intro e he
  unfold Scan.runOn at he
  cases hm : m data 0 with
  | error e' =>
    rw [hm] at he
    cases he
    exact h.fault (Nat.zero_le _) hm
  | ok result =>
    rw [hm] at he
    cases he

theorem answers_decodeFrame {maxPacketSize : ℕ} {body : PacketType → Bytes → UInt8 → MqttResult α}
    (hbody : ∀ packetType data fixedHeader, Answers (body packetType data fixedHeader)) (src : Bytes) :
    Answers (decodeFrame maxPacketSize body src) := by
  match src with
  | [] => exact answers_ok _
  | fixedHeader :: tail =>
    simp only [decodeFrame]
    refine (answers_okOr _ _).bind fun packetType _ => ?_
    split
    · exact answers_ok _
    · refine (answers_decodeRemainingLength tail).bind ?_
      rintro ⟨remainingLen, lenBytes⟩ _
      split
      · exact answers_err _
      · split
        · exact answers_ok _
        · refine (answers_slice (by omega) (by omega)).bind fun packetData _ => ?_
          exact (hbody _ _ _).bind fun packet _ => answers_ok _

end

namespace V3

section
variable {data : Bytes}

theorem bounded_decodeWill (qos : QoS) (retain : Bool) : Bounded data 0 (decodeWill qos retain) 0 0 :=
  bounded_string.bind fun _ => (bounded_willPayload _ _).bind fun _ => guarded_pure _ 0

theorem bounded_scanConnect : Bounded data 0 scanConnect 0 0 := by
  refine bounded_string.bind fun protocolName => ?_
  refine (bounded_ensure 1 _).bind fun _ => (bounded_next 0).bind fun level => (bounded_reject _ _).bind fun _ => ?_
  refine (bounded_ensure 1 _).bind fun _ => (bounded_next 0).bind fun flags => ?_
  refine (bounded_ensure 2 _).bind fun _ => bounded_u16.bind fun keepAlive => bounded_string.bind fun clientId => ?_
  refine (guarded_readIf _ (bounded_decodeWill _ _)).bind fun will => ?_
  refine (guarded_readIf _ bounded_string).bind fun username => (guarded_readIf _ bounded_string).bind fun password => ?_
  exact guarded_pure _ 0

theorem bounded_scanPublish (qos : QoS) (retain : Bool) : Bounded data 0 (scanPublish qos retain) 0 0 := by
  refine bounded_string.bind fun topic => ?_
  refine (guarded_readIf _ ((bounded_ensure 2 _).bind fun _ => bounded_u16)).bind fun packetId => ?_
  exact (guarded_takeRest _).bind fun payload => guarded_pure _ 0

theorem bounded_scanSubscribeFilter : Bounded data 1 scanSubscribeFilter 1 0 := by
  refine Guarded.mono ?_ (Nat.zero_le 1) le_rfl le_rfl
  refine bounded_string.bindRead fun path => ?_
  refine (bounded_ensure 1 _).bind fun _ => (bounded_next 0).bind fun options => ?_
  exact (bounded_okOr _ _).bind fun qos => guarded_pure _ 0

theorem answers_decodeSubscribe (data : Bytes) : Answers (decodeSubscribe data) := by
  refine answers_runOn ?_
  refine (bounded_ensure 2 _).bind fun _ => bounded_u16.bind fun packetId => ?_
  exact (guarded_whileData _ bounded_scanSubscribeFilter).bind fun filters => guarded_pure _ 0

theorem answers_decodeUnsubscribe (data : Bytes) : Answers (decodeUnsubscribe data) := by
  refine answers_runOn ?_
  refine (bounded_ensure 2 _).bind fun _ => bounded_u16.bind fun packetId => ?_
  exact (guarded_whileData _ (bounded_string.mono (Nat.zero_le 1) le_rfl le_rfl)).bind fun filters => guarded_pure _ 0

theorem answers_decodeAck (name : String) (data : Bytes) : Answers (decodeAck name data) := by
  match data with
  | [] => exact answers_err _
  | [_] => exact answers_err _
  | hi :: lo :: rest => exact answers_ok _

theorem answers_decodeConnack (data : Bytes) (fixedHeader : UInt8) : Answers (decodeConnack data fixedHeader) := by
  match data with
  | [] => exact answers_err _
  | [_] => exact answers_err _
  | flags :: code :: rest => exact (answers_okOr _ _).bind fun returnCode _ => answers_ok _

theorem answers_decodeSuback (data : Bytes) : Answers (decodeSuback data) := by
  match data with
  | [] => exact answers_err _
  | [_] => exact answers_err _
  | hi :: lo :: codes => exact answers_ok _

theorem answers_decodeBody (packetType : PacketType) (data : Bytes) (fixedHeader : UInt8) :
    Answers (decodeBody packetType data fixedHeader) := by
  cases packetType with
  | Connect => exact (answers_runOn bounded_scanConnect).map _
  | ConnAck => exact (answers_decodeConnack data fixedHeader).map _
  | Publish => exact ((answers_okOr _ _).bind fun qos _ => answers_runOn (bounded_scanPublish _ _)).map _
  | PubAck | PubRec | PubRel | PubComp | UnsubAck => exact (answers_decodeAck _ data).map _
  | Subscribe => exact (answers_decodeSubscribe data).map _
  | SubAck => exact (answers_decodeSuback data).map _
  | Unsubscribe => exact (answers_decodeUnsubscribe data).map _
  | PingReq | PingResp | Disconnect => exact answers_ok _
  | Auth => exact answers_err _

theorem answers_decodePacket (src : Bytes) : Answers (decodePacket src) := answers_decodeFrame answers_decodeBody src

end

end V3

namespace V5

section
variable {data : Bytes}

theorem bounded_scanU32 : Bounded data 4 scanU32 0 0 :=
  (bounded_next 3).bind fun _ => (bounded_next 2).bind fun _ => (bounded_next 1).bind fun _ =>
    (bounded_next 0).bind fun _ => guarded_pure _ 0

theorem bounded_within {stop : ℕ} (hstop : stop ≤ data.length) (n : ℕ) (e : MqttError) :
    Bounded data 0 (Scan.within stop n e) 0 n := guarded_within hstop n (isError e)

theorem bounded_scanValue {stop : ℕ} (hstop : stop ≤ data.length) (shape : Shape) :
    Bounded data 0 (scanValue stop shape) 0 0 := by
  cases shape with
  | Byte => exact (bounded_within hstop 1 _).bind fun _ => (bounded_next 0).bind fun _ => guarded_pure _ 0
  | TwoByteInteger => exact (bounded_within hstop 2 _).bind fun _ => bounded_u16.bind fun _ => guarded_pure _ 0
  | FourByteInteger => exact (bounded_within hstop 4 _).bind fun _ => bounded_scanU32.bind fun _ => guarded_pure _ 0
  | VariableByteInteger =>
    have hlength : Bounded data 0 (Scan.onRest decodeRemainingLength) 1 0 :=
      guarded_onRest _ (fun _ _ _ h => decodeRemainingLength_bounds h) fun rest => answers_decodeRemainingLength rest
    exact hlength.bind fun _ => guarded_pure _ 0
  | BinaryData =>
    refine (bounded_within hstop 2 _).bind fun _ => bounded_length16.bind fun len => ?_
    exact (bounded_within hstop len _).bind fun _ => (bounded_takeN len).bind fun _ => guarded_pure _ 0
  | UTF8String => exact bounded_string.bind fun _ => guarded_pure _ 0
  | Pair => exact bounded_string.bind fun _ => bounded_string.bind fun _ => guarded_pure _ 0

theorem bounded_scanProperty {stop : ℕ} (hstop : stop ≤ data.length) : Bounded data 1 (scanProperty stop) 1 0 := by
  refine (bounded_next 0).bindRead fun idByte => (bounded_okOr _ _).bind fun id => ?_
  exact (bounded_scanValue hstop _).bind fun value => guarded_pure _ 0

theorem answers_properties (data : Bytes) : Answers (Properties.decode data) := by
  rw [Properties.decode]
  split
  · exact answers_ok _
  · refine (answers_decodeRemainingLength data).bind fun (propsLen, lenBytes) hr => ?_
    dsimp only
    split
    · exact answers_ok _
    · split
      · exact answers_err _
      · rename_i hlen
        refine Answers.bind ?_ fun _ _ => answers_ok _
        have hstop : lenBytes + propsLen ≤ data.length := Nat.le_of_not_lt hlen
        have hloop := guarded_whileBefore (.stuck : Fault) (bounded_scanProperty hstop) hstop propsLen lenBytes (by omega)
          le_rfl
        intro e he
        rw [he] at hloop
        exact hloop

theorem properties_bounds {data : Bytes} {properties : Properties} {consumed : ℕ}
    (h : Properties.decode data = .ok (properties, consumed)) : 0 ≤ consumed ∧ consumed ≤ data.length := by
  refine ⟨Nat.zero_le _, ?_⟩
  rw [Properties.decode] at h
  split at h
  · cases h
    exact Nat.zero_le _
  · obtain ⟨⟨propsLen, lenBytes⟩, hr, h⟩ := bind_eq_ok.mp h
    have hbounds := decodeRemainingLength_bounds hr
    dsimp only at h
    split at h
    · cases h
      exact hbounds.2
    · split at h
      · cases h
      · obtain ⟨_, _, h⟩ := bind_eq_ok.mp h
        cases h
        omega

theorem bounded_scanProperties : Bounded data 0 scanProperties 0 0 :=
  guarded_onRest _ (fun _ _ _ h => properties_bounds h) fun rest => answers_properties rest

theorem bounded_decodeWill (qos : QoS) (retain : Bool) : Bounded data 0 (decodeWill qos retain) 0 0 := by
  refine bounded_scanProperties.bind fun properties => bounded_string.bind fun topic => ?_
  exact (bounded_willPayload _ _).bind fun payload => guarded_pure _ 0

theorem bounded_scanConnect : Bounded data 0 scanConnect 0 0 := by
  refine bounded_string.bind fun protocolName => ?_
  refine (bounded_ensure 1 _).bind fun _ => (bounded_next 0).bind fun level => (bounded_reject _ _).bind fun _ => ?_
  refine (bounded_ensure 1 _).bind fun _ => (bounded_next 0).bind fun flags => ?_
  refine (bounded_ensure 2 _).bind fun _ => bounded_u16.bind fun keepAlive => ?_
  refine bounded_scanProperties.bind fun properties => bounded_string.bind fun clientId => ?_
  refine (guarded_readIf _ (bounded_decodeWill _ _)).bind fun will => ?_
  refine (guarded_readIf _ bounded_string).bind fun username => (guarded_readIf _ bounded_string).bind fun password => ?_
  exact guarded_pure _ 0

theorem bounded_scanPublish (qos : QoS) (retain : Bool) : Bounded data 0 (scanPublish qos retain) 0 0 := by
  refine bounded_string.bind fun topic => bounded_scanProperties.bind fun properties => ?_
  refine (guarded_readIf _ ((bounded_ensure 2 _).bind fun _ => bounded_u16)).bind fun packetId => ?_
  exact (guarded_takeRest _).bind fun payload => guarded_pure _ 0

theorem bounded_scanSubscribeFilter : Bounded data 1 scanSubscribeFilter 1 0 := by
  refine Guarded.mono ?_ (Nat.zero_le 1) le_rfl le_rfl
  refine bounded_string.bindRead fun path => ?_
  refine (bounded_ensure 1 _).bind fun _ => (bounded_next 0).bind fun options => ?_
  exact (bounded_okOr _ _).bind fun qos => guarded_pure _ 0

theorem bounded_scanFilters {α : Type} {item : Scan α} (hitem : Bounded data 1 item 1 0) (tooShort : String) :
    Bounded data 0 (scanFilters item tooShort) 0 0 := by
  refine (bounded_ensure 2 _).bind fun _ => bounded_u16.bind fun packetId => ?_
  refine bounded_scanProperties.bind fun properties => ?_
  exact (guarded_whileData _ hitem).bind fun filters => guarded_pure _ 0

theorem answers_decodeReason (data : Bytes) : Answers (decodeReason data) := by
  simp only [decodeReason]
  split
  · exact (answers_properties _).bind fun _ _ => answers_ok _
  · exact answers_ok _

theorem answers_decodeAck (name : String) (data : Bytes) : Answers (decodeAck name data) := by
  match data with
  | [] => exact answers_err _
  | [_] => exact answers_err _
  | hi :: lo :: rest => exact (answers_decodeReason rest).bind fun reason _ => answers_ok _

theorem answers_decodeConnack (data : Bytes) (fixedHeader : UInt8) : Answers (decodeConnack data fixedHeader) := by
  match data with
  | [] => exact answers_err _
  | [_] => exact answers_err _
  | flags :: code :: rest =>
    refine (answers_okOr _ _).bind fun reasonCode _ => ?_
    exact (answers_properties rest).bind fun properties _ => answers_ok _

theorem answers_decodeCodes (name : String) (data : Bytes) : Answers (decodeCodes name data) := by
  refine answers_runOn ?_
  refine (bounded_ensure 2 _).bind fun _ => bounded_u16.bind fun packetId => ?_
  exact bounded_scanProperties.bind fun properties => (guarded_takeRest _).bind fun codes => guarded_pure _ 0

theorem answers_decodeAuth (data : Bytes) : Answers (decodeAuth data) := by
  match data with
  | [] => exact answers_err _
  | code :: rest =>
    refine (answers_okOr _ _).bind fun reasonCode _ => ?_
    exact (answers_properties rest).bind fun properties _ => answers_ok _

theorem answers_decodeBody (packetType : PacketType) (data : Bytes) (fixedHeader : UInt8) :
    Answers (decodeBody packetType data fixedHeader) := by
  cases packetType with
  | Connect => exact (answers_runOn bounded_scanConnect).map _
  | ConnAck => exact (answers_decodeConnack data fixedHeader).map _
  | Publish => exact ((answers_okOr _ _).bind fun qos _ => answers_runOn (bounded_scanPublish _ _)).map _
  | PubAck | PubRec | PubRel | PubComp => exact (answers_decodeAck _ data).map _
  | Subscribe =>
    exact ((answers_runOn (bounded_scanFilters bounded_scanSubscribeFilter _)).bind fun _ _ => answers_ok _).map _
  | SubAck | UnsubAck => exact (answers_decodeCodes _ data).map _
  | Unsubscribe =>
    have hstring : Bounded data 1 Scan.string 1 0 := bounded_string.mono (Nat.zero_le 1) le_rfl le_rfl
    exact ((answers_runOn (bounded_scanFilters hstring _)).bind fun _ _ => answers_ok _).map _
  | PingReq | PingResp => exact answers_ok _
  | Disconnect => exact (answers_decodeReason data).map _
  | Auth => exact (answers_decodeAuth data).map _

theorem answers_decodePacket (src : Bytes) : Answers (decodePacket src) := answers_decodeFrame answers_decodeBody src

end

end V5

end AtomMqtt
