import AtomMqtt.FramedLosses
import AtomMqtt.MachineCodec
import AtomMqtt.PacketLimit
import AtomMqtt.Resending

set_option autoImplicit false

/-! No decoder leaves its slice, and none overflows. As far as a slice leaves room above its length for the
length that four bytes can declare, the arithmetic of the machine is that of the natural numbers, and the
decoders of the machine are those that stay inside their data. -/
namespace AtomMqtt
open Scanning

namespace Machine

section
variable {usizeMax : ℕ}

theorem add_eq {a b : ℕ} (h : a + b ≤ usizeMax) : add usizeMax a b = .ok (a + b) := if_pos h

theorem mul_eq {a b : ℕ} (h : a * b ≤ usizeMax) : mul usizeMax a b = .ok (a * b) := if_pos h

theorem addsTo : AddsTo (add usizeMax) usizeMax := fun _ _ h => add_eq h

theorem sliceFrom_eq {data : Bytes} {start : ℕ} (h : start ≤ data.length) : sliceFrom data start = .ok (data.drop start) := by
  rw [sliceFrom, slice, if_pos ⟨h, Nat.le_refl _⟩, List.take_length]

theorem index_eq {data : Bytes} {i : ℕ} (h : i < data.length) : index data i = .ok data[i] := by
  rw [index, List.getElem?_eq_getElem h]
  rfl

theorem index_getD {data : Bytes} {i : ℕ} (h : i < data.length) : index data i = .ok (data.getD i 0) := by
  rw [index_eq h, List.getD_eq_getElem?_getD, List.getElem?_eq_getElem h]
  rfl

/-- At the `i`-th byte the value is below `128 ^ i`, the multiplier. Induction on the bytes. -/
theorem decodeRemainingLoop_eq (hroom : 2 ^ 28 ≤ usizeMax) {buf : Bytes} : ∀ {i value : ℕ},
    i ≤ MAX_REMAINING_LENGTH_BYTES → value < 128 ^ i →
      decodeRemainingLoop usizeMax buf i value (128 ^ i) = AtomMqtt.decodeRemainingLoop buf i value (128 ^ i) := by
  induction buf with
  | nil =>
    intro i value _ _
    rfl
  | cons byte buf ih =>
    intro i value hi hvalue
    have hfour : MAX_REMAINING_LENGTH_BYTES = 4 := rfl
    rw [decodeRemainingLoop, AtomMqtt.decodeRemainingLoop, add_eq (by omega), ok_bind]
    dsimp only
    by_cases hend : i + 1 > MAX_REMAINING_LENGTH_BYTES
    · rw [if_pos hend, if_pos hend]
    · have hpow : 128 ^ (i + 1) ≤ 2 ^ 28 := by
        calc
          128 ^ (i + 1) ≤ 128 ^ 4 := Nat.pow_le_pow_right (by decide) (by omega)
          _ = 2 ^ 28 := by decide
      have hnext : 128 ^ (i + 1) = 128 ^ i * 128 := Nat.pow_succ 128 i
      have hlow : byte.toNat &&& 0x7F < 128 := Nat.and_lt_two_pow _ (by decide : 0x7F < 2 ^ 7)
      have hproduct : (byte.toNat &&& 0x7F) * 128 ^ i ≤ 127 * 128 ^ i := Nat.mul_le_mul_right _ (by omega)
      rw [if_neg hend, if_neg hend, mul_eq (by omega), ok_bind, add_eq (by omega), ok_bind, mul_eq (by omega), ok_bind,
        ← hnext]
      split
      · rfl
      · exact ih (by omega) (by omega)

theorem decodeRemainingLength_eq (hroom : 2 ^ 28 ≤ usizeMax) (buf : Bytes) :
    decodeRemainingLength usizeMax buf = AtomMqtt.decodeRemainingLength buf :=
  decodeRemainingLoop_eq hroom (Nat.zero_le _) Nat.one_pos

theorem decodeString_eq (hroom : 2 ^ 28 ≤ usizeMax) (buf : Bytes) :
    decodeString usizeMax buf = AtomMqtt.decodeString buf := by
  match buf with
  | [] => rfl
  | [_] => rfl
  | hi :: lo :: tail =>
    have htwo : ¬ (hi :: lo :: tail).length < 2 := by simp
    obtain ⟨_, _, hmax⟩ := length16_inverse hi lo
    rw [decodeString, if_neg htwo]
    change (add usizeMax 2 (hi.toNat <<< 8 ||| lo.toNat) >>= _) = _
    rw [add_eq (by omega)]
    rfl

section
variable {data : Bytes} (hroom : data.length + 2 ^ 28 ≤ usizeMax)
include hroom

theorem same_ensure {n : ℕ} (hn : n ≤ 65535) (e : MqttError) : SameFrom data 0 (ensure usizeMax n e) (Scan.ensure n e) :=
  Scanning.same_ensure addsTo (by omega) _

theorem same_within {n : ℕ} (hn : n ≤ 65535) (limit : ℕ) (e : MqttError) :
    SameFrom data 0 (within usizeMax limit n e) (Scan.within limit n e) :=
  Scanning.same_within addsTo (by omega) _

theorem same_next : SameFrom data 1 (next usizeMax) Scan.next := Scanning.same_next addsTo (by omega) _

theorem same_takeN (n : ℕ) : SameFrom data n (takeN usizeMax n) (Scan.takeN n) :=
  Scanning.same_takeN addsTo (by omega) _

theorem same_string : SameFrom data 0 (string usizeMax) Scan.string :=
  Scanning.same_onRest addsTo (by omega) _ (fun _ => decodeString_eq (by omega) _) fun h => (decodeString_bounds h).2

theorem same_u16 : SameFrom data 2 (u16 usizeMax) Scan.u16 := by
  refine ((same_next hroom).mono (by decide)).bind (bounded_next 1) fun hi => ?_
  exact (same_next hroom).bind (bounded_next 0) fun lo => sameFrom_refl _ 0

theorem same_length16 : SameFrom data 2 (length16 usizeMax) Scan.length16 := by
  refine ((same_next hroom).mono (by decide)).bind (bounded_next 1) fun hi => ?_
  exact (same_next hroom).bind (bounded_next 0) fun lo => sameFrom_refl _ 0

theorem same_willPayload (missing truncated : String) :
    SameFrom data 0 (willPayload usizeMax missing truncated) (AtomMqtt.willPayload missing truncated) := by
  refine (same_ensure hroom (by decide) _).bind (bounded_ensure 2 _) fun _ => ?_
  refine (same_length16 hroom).bindOn bounded_length16 yields_length16 fun n hn => ?_
  exact (same_ensure hroom hn _).bind (bounded_ensure n _) fun _ => same_takeN hroom n

omit hroom in
theorem runOn_same {α : Type} {m' m : Scan α} (h : SameFrom data 0 m' m) : m'.runOn data = m.runOn data := by
  unfold Scan.runOn
  rw [h 0 (Nat.zero_le _)]

end

theorem decodeFrame_eq {α : Type} {maxPacketSize : ℕ} {body' body : PacketType → Bytes → UInt8 → MqttResult α} {src : Bytes}
    (hroom : src.length + 2 ^ 28 ≤ usizeMax)
    (hbody : ∀ packetType data fixedHeader, data.length ≤ src.length →
      body' packetType data fixedHeader = body packetType data fixedHeader) :
    decodeFrame usizeMax maxPacketSize body' src = AtomMqtt.decodeFrame maxPacketSize body src := by
  cases src with
  | nil => rfl
  | cons fixedHeader tail =>
    have hne : (fixedHeader :: tail).isEmpty = false := rfl
    have hindex : index (fixedHeader :: tail) 0 = .ok fixedHeader := rfl
    have htail : sliceFrom (fixedHeader :: tail) 1 = .ok tail := sliceFrom_eq (by simp)
    simp only [decodeFrame, AtomMqtt.decodeFrame, hne, Bool.false_eq_true, if_false, hindex, ok_bind, htail,
      decodeRemainingLength_eq (show 2 ^ 28 ≤ usizeMax by omega)]
    cases okOr (PacketType.fromU8 fixedHeader)
      (.InvalidPacket ("Unknown packet type: 0x" ++ hexByte fixedHeader)) with
    | error e => rfl
    | ok packetType =>
      simp only [ok_bind]
      split
      · rfl
      · cases hr : AtomMqtt.decodeRemainingLength tail with
        | error e => rfl
        | ok result =>
          obtain ⟨remainingLen, lenBytes⟩ := result
          have hconsumed := (decodeRemainingLength_bounds hr).2
          have hlt := decodeRemainingLength_lt hr
          rw [List.length_cons] at hroom
          simp only [ok_bind, add_eq (show 1 + lenBytes ≤ usizeMax by omega),
            add_eq (show 1 + lenBytes + remainingLen ≤ usizeMax by omega)]
          split
          · rfl
          · split
            · rfl
            · cases hs : slice (fixedHeader :: tail) (1 + lenBytes) (1 + lenBytes + remainingLen) with
              | error e => rfl
              | ok data =>
                have hle : data.length ≤ (fixedHeader :: tail).length := by
                  obtain ⟨_, _, rfl⟩ := slice_eq_ok_iff.mp hs
                  rw [List.length_drop, List.length_take]
                  omega
                simp only [ok_bind, hbody packetType data fixedHeader hle]

end
end Machine

namespace V3.Machine
open AtomMqtt.Machine

section
variable {usizeMax : ℕ} {data : Bytes} (hroom : data.length + 2 ^ 28 ≤ usizeMax)
include hroom

theorem same_decodeWill (qos : QoS) (retain : Bool) :
    SameFrom data 0 (decodeWill usizeMax qos retain) (V3.decodeWill qos retain) := by
  refine (same_string hroom).bind bounded_string fun topic => ?_
  exact (same_willPayload hroom _ _).bind (bounded_willPayload _ _) fun message => sameFrom_refl _ 0

theorem same_scanConnect : SameFrom data 0 (scanConnect usizeMax) V3.scanConnect := by
  refine (same_string hroom).bind bounded_string fun protocolName => ?_
  refine (same_ensure hroom (by decide) _).bind (bounded_ensure 1 _) fun _ => ?_
  refine (same_next hroom).bind (bounded_next 0) fun level => ?_
  refine (sameFrom_refl _ 0).bind (bounded_reject _ _) fun _ => ?_
  refine (same_ensure hroom (by decide) _).bind (bounded_ensure 1 _) fun _ => ?_
  refine (same_next hroom).bind (bounded_next 0) fun flags => ?_
  refine (same_ensure hroom (by decide) _).bind (bounded_ensure 2 _) fun _ => ?_
  refine (same_u16 hroom).bind bounded_u16 fun keepAlive => ?_
  refine (same_string hroom).bind bounded_string fun clientId => ?_
  refine (SameFrom.readIf _ (same_decodeWill hroom _ _)).bind (guarded_readIf _ (bounded_decodeWill _ _)) fun will => ?_
  refine (SameFrom.readIf _ (same_string hroom)).bind (guarded_readIf _ bounded_string) fun username => ?_
  refine (SameFrom.readIf _ (same_string hroom)).bind (guarded_readIf _ bounded_string) fun password => ?_
  exact sameFrom_refl _ 0

theorem same_scanPublish (qos : QoS) (retain : Bool) :
    SameFrom data 0 (scanPublish usizeMax qos retain) (V3.scanPublish qos retain) := by
  refine (same_string hroom).bind bounded_string fun topic => ?_
  have hid : SameFrom data 0 (ensure usizeMax 2 (.InvalidPacket "Missing packet ID in PUBLISH") >>= fun _ => u16 usizeMax)
      (Scan.ensure 2 (.InvalidPacket "Missing packet ID in PUBLISH") >>= fun _ => Scan.u16) :=
    (same_ensure hroom (by decide) _).bind (bounded_ensure 2 _) fun _ => same_u16 hroom
  refine (SameFrom.readIf _ hid).bind (guarded_readIf _ ((bounded_ensure 2 _).bind fun _ => bounded_u16)) fun packetId => ?_
  exact sameFrom_refl _ 0

theorem same_scanSubscribeFilter : SameFrom data 0 (scanSubscribeFilter usizeMax) V3.scanSubscribeFilter := by
  refine (same_string hroom).bind bounded_string fun path => ?_
  refine (same_ensure hroom (by decide) _).bind (bounded_ensure 1 _) fun _ => ?_
  exact (same_next hroom).bind (bounded_next 0) fun options => sameFrom_refl _ 0

theorem decodeSubscribe_eq : decodeSubscribe usizeMax data = V3.decodeSubscribe data := by
  refine runOn_same ?_
  refine (same_ensure hroom (by decide) _).bind (bounded_ensure 2 _) fun _ => ?_
  refine (same_u16 hroom).bind bounded_u16 fun packetId => ?_
  refine SameFrom.bind ?_ (guarded_whileData _ bounded_scanSubscribeFilter) fun filters => sameFrom_refl _ 0
  exact SameFrom.whileData _ ((same_scanSubscribeFilter hroom).mono (Nat.zero_le 1)) bounded_scanSubscribeFilter

theorem decodeUnsubscribe_eq : decodeUnsubscribe usizeMax data = V3.decodeUnsubscribe data := by
  have hstring : Bounded data 1 Scan.string 1 0 := bounded_string.mono (Nat.zero_le 1) le_rfl le_rfl
  refine runOn_same ?_
  refine (same_ensure hroom (by decide) _).bind (bounded_ensure 2 _) fun _ => ?_
  refine (same_u16 hroom).bind bounded_u16 fun packetId => ?_
  refine SameFrom.bind ?_ (guarded_whileData _ hstring) fun filters => sameFrom_refl _ 0
  exact SameFrom.whileData _ ((same_string hroom).mono (Nat.zero_le 1)) hstring

theorem decodePublish_eq (fixedHeader : UInt8) :
    decodePublish usizeMax data fixedHeader = V3.decodePublish data fixedHeader := by
  unfold decodePublish V3.decodePublish
  cases okOr (QoS.fromU8 ((fixedHeader >>> 1) &&& 0x03)) (.InvalidPacket "Invalid QoS") with
  | error e => rw [error_bind, error_bind]
  | ok qos => exact runOn_same (same_scanPublish hroom qos _)

omit hroom in
theorem fixed_eq (name : String) : decodeAck name data = V3.decodeAck name data ∧
    (∀ fixedHeader, decodeConnack data = V3.decodeConnack data fixedHeader) ∧ decodeSuback data = V3.decodeSuback data := by
  match data with
  | [] => exact ⟨rfl, fun _ => rfl, rfl⟩
  | [_] => exact ⟨rfl, fun _ => rfl, rfl⟩
  | hi :: lo :: rest =>
    have htwo : ¬ (hi :: lo :: rest).length < 2 := by simp
    have hdrop : sliceFrom (hi :: lo :: rest) 2 = .ok rest := sliceFrom_eq (by simp)
    refine ⟨?_, fun _ => ?_, ?_⟩
    · rw [decodeAck, if_neg htwo]
      rfl
    · rw [decodeConnack, if_neg htwo]
      rfl
    · rw [decodeSuback, if_neg htwo, hdrop]
      rfl

theorem decodeBody_eq (packetType : PacketType) (fixedHeader : UInt8) :
    decodeBody usizeMax packetType data fixedHeader = V3.decodeBody packetType data fixedHeader := by
  cases packetType with
  | Connect => exact congrArg (MqttPacketV3.Connect <$> ·) (runOn_same (same_scanConnect hroom))
  | ConnAck => exact congrArg (MqttPacketV3.ConnAck <$> ·) ((fixed_eq "").2.1 fixedHeader)
  | Publish => exact congrArg (MqttPacketV3.Publish <$> ·) (decodePublish_eq hroom fixedHeader)
  | PubAck => exact congrArg (MqttPacketV3.PubAck <$> ·) (fixed_eq _).1
  | PubRec => exact congrArg (MqttPacketV3.PubRec <$> ·) (fixed_eq _).1
  | PubRel => exact congrArg (MqttPacketV3.PubRel <$> ·) (fixed_eq _).1
  | PubComp => exact congrArg (MqttPacketV3.PubComp <$> ·) (fixed_eq _).1
  | Subscribe => exact congrArg (MqttPacketV3.Subscribe <$> ·) (decodeSubscribe_eq hroom)
  | SubAck => exact congrArg (MqttPacketV3.SubAck <$> ·) (fixed_eq "").2.2
  | Unsubscribe => exact congrArg (MqttPacketV3.Unsubscribe <$> ·) (decodeUnsubscribe_eq hroom)
  | UnsubAck => exact congrArg (MqttPacketV3.UnsubAck <$> ·) (fixed_eq _).1
  | PingReq | PingResp | Disconnect | Auth => rfl

theorem decodePacket_eq : decodePacket usizeMax data = V3.decodePacket data := by
  apply decodeFrame_eq hroom
  intro packetType part fixedHeader hpart
  exact decodeBody_eq (by omega) packetType fixedHeader

end
end V3.Machine

namespace V5.Machine
open AtomMqtt.Machine

section
variable {usizeMax : ℕ} {data : Bytes} (hroom : data.length + 2 ^ 28 ≤ usizeMax)
include hroom

theorem same_scanU32 : SameFrom data 4 (scanU32 usizeMax) V5.scanU32 := by
  refine ((same_next hroom).mono (by decide)).bind (bounded_next 3) fun a => ?_
  refine ((same_next hroom).mono (by decide)).bind (bounded_next 2) fun b => ?_
  refine ((same_next hroom).mono (by decide)).bind (bounded_next 1) fun c => ?_
  exact (same_next hroom).bind (bounded_next 0) fun d => sameFrom_refl _ 0

theorem same_scanValue {stop : ℕ} (hstop : stop ≤ data.length) (shape : Shape) :
    SameFrom data 0 (scanValue usizeMax stop shape) (V5.scanValue stop shape) := by
  cases shape with
  | Byte =>
    refine (same_within hroom (by decide) _ _).bind (bounded_within hstop 1 _) fun _ => ?_
    exact (same_next hroom).bind (bounded_next 0) fun v => sameFrom_refl _ 0
  | TwoByteInteger =>
    refine (same_within hroom (by decide) _ _).bind (bounded_within hstop 2 _) fun _ => ?_
    exact (same_u16 hroom).bind bounded_u16 fun v => sameFrom_refl _ 0
  | FourByteInteger =>
    refine (same_within hroom (by decide) _ _).bind (bounded_within hstop 4 _) fun _ => ?_
    exact (same_scanU32 hroom).bind bounded_scanU32 fun v => sameFrom_refl _ 0
  | VariableByteInteger =>
    have hlength : SameFrom data 0 (onRest usizeMax (AtomMqtt.Machine.decodeRemainingLength usizeMax))
        (Scan.onRest AtomMqtt.decodeRemainingLength) :=
      same_onRest addsTo (by omega) _ (fun _ => decodeRemainingLength_eq (by omega) _) fun h =>
        (decodeRemainingLength_bounds h).2
    have hbounded : Bounded data 0 (Scan.onRest AtomMqtt.decodeRemainingLength) 1 0 :=
      guarded_onRest _ (fun _ _ _ h => decodeRemainingLength_bounds h) fun rest => answers_decodeRemainingLength rest
    exact hlength.bind hbounded fun v => sameFrom_refl _ 0
  | BinaryData =>
    refine (same_within hroom (by decide) _ _).bind (bounded_within hstop 2 _) fun _ => ?_
    refine (same_length16 hroom).bindOn bounded_length16 yields_length16 fun n hn => ?_
    refine (same_within hroom hn _ _).bind (bounded_within hstop n _) fun _ => ?_
    exact (same_takeN hroom n).bind (bounded_takeN n) fun v => sameFrom_refl _ 0
  | UTF8String => exact (same_string hroom).bind bounded_string fun s => sameFrom_refl _ 0
  | Pair =>
    refine (same_string hroom).bind bounded_string fun key => ?_
    exact (same_string hroom).bind bounded_string fun value => sameFrom_refl _ 0

theorem same_scanProperty {stop : ℕ} (hstop : stop ≤ data.length) :
    SameFrom data 1 (scanProperty usizeMax stop) (V5.scanProperty stop) := by
  refine (same_next hroom).bind (bounded_next 0) fun idByte => ?_
  refine (sameFrom_refl _ 0).bind (bounded_okOr _ _) fun id => ?_
  exact (same_scanValue hroom hstop _).bind (bounded_scanValue hstop _) fun value => sameFrom_refl _ 0

theorem decodeProperties_eq : decodeProperties usizeMax data = Properties.decode data := by
  unfold decodeProperties Properties.decode
  split
  · rfl
  · rw [decodeRemainingLength_eq (by omega)]
    cases hr : AtomMqtt.decodeRemainingLength data with
    | error e => rfl
    | ok result =>
      obtain ⟨propsLen, lenBytes⟩ := result
      have hconsumed := (decodeRemainingLength_bounds hr).2
      have hlt := decodeRemainingLength_lt hr
      simp only [ok_bind]
      split
      · rfl
      · rw [add_eq (by omega), ok_bind]
        split
        · rfl
        · have hstop : lenBytes + propsLen ≤ data.length := by omega
          have hloop := SameFrom.whileBefore Fault.stuck (same_scanProperty hroom hstop) (bounded_scanProperty hstop) hstop
            propsLen lenBytes hconsumed
          rw [hloop]

omit hroom in
theorem decodeProperties_drop (hroom : data.length + 2 ^ 28 ≤ usizeMax) (n : ℕ) :
    decodeProperties usizeMax (data.drop n) = Properties.decode (data.drop n) :=
  decodeProperties_eq (by rw [List.length_drop]; omega)

theorem same_scanProperties : SameFrom data 0 (scanProperties usizeMax) V5.scanProperties :=
  same_onRest addsTo (by omega) _ (fun n => decodeProperties_drop hroom n) fun h => (properties_bounds h).2

theorem same_decodeWill (qos : QoS) (retain : Bool) :
    SameFrom data 0 (decodeWill usizeMax qos retain) (V5.decodeWill qos retain) := by
  refine (same_scanProperties hroom).bind bounded_scanProperties fun properties => ?_
  refine (same_string hroom).bind bounded_string fun topic => ?_
  exact (same_willPayload hroom _ _).bind (bounded_willPayload _ _) fun payload => sameFrom_refl _ 0

theorem same_scanConnect : SameFrom data 0 (scanConnect usizeMax) V5.scanConnect := by
  refine (same_string hroom).bind bounded_string fun protocolName => ?_
  refine (same_ensure hroom (by decide) _).bind (bounded_ensure 1 _) fun _ => ?_
  refine (same_next hroom).bind (bounded_next 0) fun level => ?_
  refine (sameFrom_refl _ 0).bind (bounded_reject _ _) fun _ => ?_
  refine (same_ensure hroom (by decide) _).bind (bounded_ensure 1 _) fun _ => ?_
  refine (same_next hroom).bind (bounded_next 0) fun flags => ?_
  refine (same_ensure hroom (by decide) _).bind (bounded_ensure 2 _) fun _ => ?_
  refine (same_u16 hroom).bind bounded_u16 fun keepAlive => ?_
  refine (same_scanProperties hroom).bind bounded_scanProperties fun properties => ?_
  refine (same_string hroom).bind bounded_string fun clientId => ?_
  refine (SameFrom.readIf _ (same_decodeWill hroom _ _)).bind (guarded_readIf _ (bounded_decodeWill _ _)) fun will => ?_
  refine (SameFrom.readIf _ (same_string hroom)).bind (guarded_readIf _ bounded_string) fun username => ?_
  refine (SameFrom.readIf _ (same_string hroom)).bind (guarded_readIf _ bounded_string) fun password => ?_
  exact sameFrom_refl _ 0

theorem same_scanPublish (qos : QoS) (retain : Bool) :
    SameFrom data 0 (scanPublish usizeMax qos retain) (V5.scanPublish qos retain) := by
  refine (same_string hroom).bind bounded_string fun topic => ?_
  refine (same_scanProperties hroom).bind bounded_scanProperties fun properties => ?_
  have hid : SameFrom data 0 (ensure usizeMax 2 (.InvalidPacket "Missing packet ID in PUBLISH") >>= fun _ => u16 usizeMax)
      (Scan.ensure 2 (.InvalidPacket "Missing packet ID in PUBLISH") >>= fun _ => Scan.u16) :=
    (same_ensure hroom (by decide) _).bind (bounded_ensure 2 _) fun _ => same_u16 hroom
  refine (SameFrom.readIf _ hid).bind (guarded_readIf _ ((bounded_ensure 2 _).bind fun _ => bounded_u16)) fun packetId => ?_
  exact sameFrom_refl _ 0

theorem decodePublish_eq (fixedHeader : UInt8) :
    decodePublish usizeMax data fixedHeader = V5.decodePublish data fixedHeader := by
  unfold decodePublish V5.decodePublish
  cases okOr (QoS.fromU8 ((fixedHeader >>> 1) &&& 0x03)) (.InvalidPacket "Invalid QoS") with
  | error e => rw [error_bind, error_bind]
  | ok qos => exact runOn_same (same_scanPublish hroom qos _)

theorem decodeReason_eq (n : ℕ) : decodeReason usizeMax data n = V5.decodeReason (data.drop n) := by
  have hlong : data.length > n + 1 ↔ (data.drop n).length > 1 := by
    rw [List.length_drop]
    omega
  have hproperties := decodeProperties_drop hroom (n + 1)
  unfold decodeReason V5.decodeReason
  by_cases hcode : data.length > n
  · have hget := index_eq hcode
    have hdrop : data.drop n = data[n] :: data.drop (n + 1) := List.drop_eq_getElem_cons hcode
    rw [if_pos hcode, hget]
    simp only [Except.map_ok, ok_bind, Option.bind_some, hlong]
    by_cases hmore : (data.drop n).length > 1
    · rw [if_pos hmore, if_pos hmore, sliceFrom_eq (by omega), ok_bind, hproperties, List.drop_drop, hdrop]
    · rw [if_neg hmore, if_neg hmore, hdrop]
  · have hnil : data.drop n = [] := List.drop_eq_nil_of_le (by omega)
    have hend : ¬ data.length > n + 1 := by omega
    rw [if_neg hcode, ok_bind]
    dsimp only
    rw [if_neg hend, hnil]
    rfl

theorem decodeAck_eq (name : String) : decodeAck usizeMax name data = V5.decodeAck name data := by
  match data with
  | [] => rfl
  | [_] => rfl
  | hi :: lo :: rest =>
    have htwo : ¬ (hi :: lo :: rest).length < 2 := by simp
    have hreason : decodeReason usizeMax (hi :: lo :: rest) 2 = V5.decodeReason rest := decodeReason_eq hroom 2
    rw [decodeAck, if_neg htwo, hreason]
    rfl

theorem decodeConnack_eq (fixedHeader : UInt8) : decodeConnack usizeMax data = V5.decodeConnack data fixedHeader := by
  match data with
  | [] => rfl
  | [_] => rfl
  | flags :: code :: rest =>
    have hne : ¬ (flags :: code :: rest).isEmpty = true := by simp
    have htwo : ¬ (flags :: code :: rest).length < 2 := by simp
    have hdrop : sliceFrom (flags :: code :: rest) 2 = .ok rest := sliceFrom_eq (by simp)
    have hproperties : decodeProperties usizeMax rest = Properties.decode rest := decodeProperties_drop hroom 2
    have hfirst : index (flags :: code :: rest) 0 = .ok flags := rfl
    have hsecond : index (flags :: code :: rest) 1 = .ok code := rfl
    rw [decodeConnack, if_neg hne, hfirst, ok_bind, if_neg htwo, hsecond, ok_bind, hdrop]
    simp only [ok_bind, hproperties]
    rfl

theorem decodeAuth_eq : decodeAuth usizeMax data = V5.decodeAuth data := by
  match data with
  | [] => rfl
  | code :: rest =>
    have hne : ¬ (code :: rest).isEmpty = true := by simp
    have hdrop : sliceFrom (code :: rest) 1 = .ok rest := sliceFrom_eq (by simp)
    have hproperties : decodeProperties usizeMax rest = Properties.decode rest := decodeProperties_drop hroom 1
    have hfirst : index (code :: rest) 0 = .ok code := rfl
    rw [decodeAuth, if_neg hne, hfirst, ok_bind, hdrop]
    simp only [ok_bind, hproperties]
    rfl

theorem same_scanSubscribeFilter : SameFrom data 0 (scanSubscribeFilter usizeMax) V5.scanSubscribeFilter := by
  refine (same_string hroom).bind bounded_string fun path => ?_
  refine (same_ensure hroom (by decide) _).bind (bounded_ensure 1 _) fun _ => ?_
  exact (same_next hroom).bind (bounded_next 0) fun options => sameFrom_refl _ 0

theorem same_scanFilters {α : Type} {item' item : Scan α} (h : SameFrom data 0 item' item)
    (hitem : Bounded data 1 item 1 0) (tooShort : String) :
    SameFrom data 0 (scanFilters usizeMax item' tooShort) (V5.scanFilters item tooShort) := by
  refine (same_ensure hroom (by decide) _).bind (bounded_ensure 2 _) fun _ => ?_
  refine (same_u16 hroom).bind bounded_u16 fun packetId => ?_
  refine (same_scanProperties hroom).bind bounded_scanProperties fun properties => ?_
  refine SameFrom.bind ?_ (guarded_whileData _ hitem) fun filters => sameFrom_refl _ 0
  exact SameFrom.whileData _ (h.mono (Nat.zero_le 1)) hitem

theorem decodeSubscribe_eq : decodeSubscribe usizeMax data = V5.decodeSubscribe data := by
  unfold decodeSubscribe V5.decodeSubscribe
  rw [runOn_same (same_scanFilters hroom (same_scanSubscribeFilter hroom) bounded_scanSubscribeFilter _)]

theorem decodeUnsubscribe_eq : decodeUnsubscribe usizeMax data = V5.decodeUnsubscribe data := by
  have hstring : Bounded data 1 Scan.string 1 0 := bounded_string.mono (Nat.zero_le 1) le_rfl le_rfl
  unfold decodeUnsubscribe V5.decodeUnsubscribe
  rw [runOn_same (same_scanFilters hroom (same_string hroom) hstring _)]

theorem decodeCodes_eq (name : String) : decodeCodes usizeMax name data = V5.decodeCodes name data := by
  refine runOn_same ?_
  refine (same_ensure hroom (by decide) _).bind (bounded_ensure 2 _) fun _ => ?_
  refine (same_u16 hroom).bind bounded_u16 fun packetId => ?_
  exact (same_scanProperties hroom).bind bounded_scanProperties fun properties => sameFrom_refl _ 0

theorem decodeBody_eq (packetType : PacketType) (fixedHeader : UInt8) :
    decodeBody usizeMax packetType data fixedHeader = V5.decodeBody packetType data fixedHeader := by
  cases packetType with
  | Connect => exact congrArg (MqttPacketV5.Connect <$> ·) (runOn_same (same_scanConnect hroom))
  | ConnAck => exact congrArg (MqttPacketV5.ConnAck <$> ·) (decodeConnack_eq hroom fixedHeader)
  | Publish => exact congrArg (MqttPacketV5.Publish <$> ·) (decodePublish_eq hroom fixedHeader)
  | PubAck => exact congrArg (MqttPacketV5.PubAck <$> ·) (decodeAck_eq hroom _)
  | PubRec => exact congrArg (MqttPacketV5.PubRec <$> ·) (decodeAck_eq hroom _)
  | PubRel => exact congrArg (MqttPacketV5.PubRel <$> ·) (decodeAck_eq hroom _)
  | PubComp => exact congrArg (MqttPacketV5.PubComp <$> ·) (decodeAck_eq hroom _)
  | Subscribe => exact congrArg (MqttPacketV5.Subscribe <$> ·) (decodeSubscribe_eq hroom)
  | SubAck => exact congrArg (MqttPacketV5.SubAck <$> ·) (decodeCodes_eq hroom _)
  | Unsubscribe => exact congrArg (MqttPacketV5.Unsubscribe <$> ·) (decodeUnsubscribe_eq hroom)
  | UnsubAck => exact congrArg (MqttPacketV5.UnsubAck <$> ·) (decodeCodes_eq hroom _)
  | PingReq | PingResp => rfl
  | Disconnect => exact congrArg (MqttPacketV5.Disconnect <$> ·) (decodeReason_eq hroom 0)
  | Auth => exact congrArg (MqttPacketV5.Auth <$> ·) (decodeAuth_eq hroom)

theorem decodePacket_eq : decodePacket usizeMax data = V5.decodePacket data := by
  apply decodeFrame_eq hroom
  intro packetType part fixedHeader hpart
  exact decodeBody_eq (by omega) packetType fixedHeader

end
end V5.Machine
end AtomMqtt
