import AtomMqtt.DecoderBounds

set_option autoImplicit false

/-! The codes of an acknowledgement. A client relates each code to the filter at the same position of its
request. The three decoders leave out the bytes that are no code, and every later code then stands one position
too early. -/
namespace AtomMqtt
open Scanning

def V3.ackPayload (data : Bytes) : Option Bytes := if 2 ≤ data.length then some (data.drop 2) else none

def V5.ackPayload (data : Bytes) : Option Bytes :=
  if 2 ≤ data.length then
    (V5.Properties.decode (data.drop 2)).toOption.map fun result => (data.drop 2).drop result.2
  else none

section
variable {Code Packet : Type} (fromU8 : UInt8 → Option Code) (ackPayload : Bytes → Option Bytes)
  (decode : Bytes → MqttResult Packet) (codes : Packet → List Code)

/-- The i-th code is that of the i-th byte, and a byte that is no code is an error. -/
def CodesKeepPositions (data : Bytes) : Prop :=
  (∀ p, decode data = .ok p → ∃ bytes, ackPayload data = some bytes ∧ (codes p).length = bytes.length ∧
    ∀ (i : ℕ) (b : UInt8), bytes[i]? = some b → ∃ code, fromU8 b = some code ∧ (codes p)[i]? = some code) ∧
  ∀ bytes, ackPayload data = some bytes → (∃ b ∈ bytes, fromU8 b = none) → ∃ e, decode data = .error e

def AllCodes (data : Bytes) : Prop := ∀ bytes, ackPayload data = some bytes → ∀ b ∈ bytes, (fromU8 b).isSome = true

/-- What each of the three decoders does. -/
structure FiltersCodes : Prop where
  fails : ∀ data, ackPayload data = none → ∃ e, decode data = .error e
  filters : ∀ data bytes, ackPayload data = some bytes → ∃ p, decode data = .ok p ∧ codes p = bytes.filterMap fromU8

variable {fromU8 ackPayload decode codes}

theorem filterMap_getElem? {l : List UInt8} (h : ∀ b ∈ l, (fromU8 b).isSome = true) {i : ℕ} {b : UInt8}
    (hb : l[i]? = some b) : (l.filterMap fromU8)[i]? = fromU8 b := by
  induction l generalizing i with
  | nil => cases hb
  | cons a l ih =>
    obtain ⟨ha, hl⟩ := List.forall_mem_cons.mp h
    obtain ⟨code, hcode⟩ := Option.isSome_iff_exists.mp ha
    rw [List.filterMap_cons_some hcode]
    cases i with
    | zero =>
      obtain rfl : a = b := by simpa using hb
      exact hcode.symm
    | succ i =>
      rw [List.getElem?_cons_succ] at hb ⊢
      exact ih hl hb

theorem FiltersCodes.keepsPositions_iff (h : FiltersCodes fromU8 ackPayload decode codes) (data : Bytes) :
    CodesKeepPositions fromU8 ackPayload decode codes data ↔ AllCodes fromU8 ackPayload data := by
  constructor
  · rintro ⟨-, herror⟩ bytes hbytes b hb
    obtain ⟨p, hp, -⟩ := h.filters data bytes hbytes
    by_contra hnone
    obtain ⟨e, he⟩ := herror bytes hbytes ⟨b, hb, Option.not_isSome_iff_eq_none.mp hnone⟩
    rw [hp] at he
    cases he
  · intro hall
    constructor
    · intro p hp
      cases hbytes : ackPayload data with
      | none =>
        obtain ⟨e, he⟩ := h.fails data hbytes
        rw [hp] at he
        cases he
      | some bytes =>
        obtain ⟨p', hp', hcodes⟩ := h.filters data bytes hbytes
        obtain rfl : p = p' := Except.ok.inj (hp.symm.trans hp')
        have hsome := hall bytes hbytes
        refine ⟨bytes, rfl, ?_, ?_⟩
        · rw [hcodes]
          exact List.filterMap_length_eq_length.mpr hsome
        · intro i b hb
          obtain ⟨code, hcode⟩ := Option.isSome_iff_exists.mp (hsome b (List.mem_of_getElem? hb))
          refine ⟨code, hcode, ?_⟩
          rw [hcodes, filterMap_getElem? hsome hb, hcode]
    · rintro bytes hbytes ⟨b, hb, hnone⟩
      have hsome := hall bytes hbytes b hb
      rw [hnone] at hsome
      cases hsome

end

theorem V3.filtersCodes :
    FiltersCodes V3.SubAckReturnCode.fromU8 V3.ackPayload V3.decodeSuback V3.SubAckPacket.returnCodes := by
  constructor
  · intro data hnone
    match data with
    | [] => exact ⟨_, rfl⟩
    | [_] => exact ⟨_, rfl⟩
    | _ :: _ :: _ => simp [V3.ackPayload] at hnone
  · intro data bytes hbytes
    match data with
    | [] => cases hbytes
    | [_] => cases hbytes
    | hi :: lo :: rest =>
      obtain rfl : rest = bytes := by simpa [V3.ackPayload] using hbytes
      exact ⟨_, rfl, rfl⟩

theorem V5.decodeCodes_cons (name : String) (hi lo : UInt8) (rest : Bytes) :
    V5.decodeCodes name (hi :: lo :: rest) = (V5.Properties.decode rest).map fun result =>
      { packetId := u16FromBeBytes hi lo, properties := result.1,
        reasonCodes := (rest.drop result.2).filterMap V5.ReasonCode.fromU8 } := by
  have hlong : ¬ 0 + 2 > (hi :: lo :: rest).length := by
    rw [List.length_cons, List.length_cons]
    omega
  have hpair : Scan.u16 (hi :: lo :: rest) 0 = .ok (u16FromBeBytes hi lo, 2) := rfl
  have hrest : 2 ≤ (hi :: lo :: rest).length := by
    rw [List.length_cons, List.length_cons]
    omega
  simp only [V5.decodeCodes, Scan.runOn, bind_apply, Scan.ensure, ensure, hlong, if_false, hpair, V5.scanProperties,
    Scan.onRest, onRest, hrest, if_true, List.drop_succ_cons, List.drop_zero]
  cases hprops : V5.Properties.decode rest with
  | error e => rfl
  | ok result =>
    have hused := (V5.properties_bounds hprops).2
    have hpos : 2 + result.2 ≤ (hi :: lo :: rest).length := by
      rw [List.length_cons, List.length_cons]
      omega
    have hdrop : (hi :: lo :: rest).drop (2 + result.2) = rest.drop result.2 := by
      rw [← List.drop_drop]
      rfl
    simp only [Scan.takeRest, takeRest, hpos, if_true, hdrop, pure_apply]
    rfl

theorem V5.filtersCodes (name : String) :
    FiltersCodes V5.ReasonCode.fromU8 V5.ackPayload (V5.decodeCodes name) V5.SubAckPacket.reasonCodes := by
  constructor
  · intro data hnone
    match data with
    | [] => exact ⟨_, rfl⟩
    | [_] => exact ⟨_, rfl⟩
    | hi :: lo :: rest =>
      rw [decodeCodes_cons]
      cases hprops : V5.Properties.decode rest with
      | error e => exact ⟨e, rfl⟩
      | ok result => simp [V5.ackPayload, hprops, Except.toOption] at hnone
  · intro data bytes hbytes
    match data with
    | [] => cases hbytes
    | [_] => cases hbytes
    | hi :: lo :: rest =>
      rw [decodeCodes_cons]
      cases hprops : V5.Properties.decode rest with
      | error e => simp [V5.ackPayload, hprops, Except.toOption] at hbytes
      | ok result =>
        obtain rfl : rest.drop result.2 = bytes := by
          simpa [V5.ackPayload, hprops, Except.toOption] using hbytes
        exact ⟨_, rfl, rfl⟩

/-- The codes keep their positions exactly where every byte is a code. -/
theorem ackCodes_keepPositions_iff (data : Bytes) :
    (CodesKeepPositions V3.SubAckReturnCode.fromU8 V3.ackPayload V3.decodeSuback V3.SubAckPacket.returnCodes data ↔
      AllCodes V3.SubAckReturnCode.fromU8 V3.ackPayload data) ∧
    (CodesKeepPositions V5.ReasonCode.fromU8 V5.ackPayload V5.decodeSuback V5.SubAckPacket.reasonCodes data ↔
      AllCodes V5.ReasonCode.fromU8 V5.ackPayload data) ∧
    (CodesKeepPositions V5.ReasonCode.fromU8 V5.ackPayload V5.decodeUnsuback V5.SubAckPacket.reasonCodes data ↔
      AllCodes V5.ReasonCode.fromU8 V5.ackPayload data) :=
  ⟨V3.filtersCodes.keepsPositions_iff data, (V5.filtersCodes "SUBACK").keepsPositions_iff data,
    (V5.filtersCodes "UNSUBACK").keepsPositions_iff data⟩

/-- Two filters, the code of the first one unknown: the second one's code takes its place. -/
theorem ackCodes_shifted :
    (V3.decodeSuback [0, 1, 3, 1] = .ok { packetId := 1, returnCodes := [.SuccessQoS1] } ∧
      ¬ CodesKeepPositions V3.SubAckReturnCode.fromU8 V3.ackPayload V3.decodeSuback V3.SubAckPacket.returnCodes
        [0, 1, 3, 1]) ∧
    (V5.decodeSuback [0, 1, 0, 3, 1] = .ok { packetId := 1, reasonCodes := [.GrantedQoS1], properties := .new } ∧
      ¬ CodesKeepPositions V5.ReasonCode.fromU8 V5.ackPayload V5.decodeSuback V5.SubAckPacket.reasonCodes
        [0, 1, 0, 3, 1]) ∧
    V5.decodeUnsuback [0, 1, 0, 3, 17] =
        .ok { packetId := 1, reasonCodes := [.NoSubscriptionExisted], properties := .new } ∧
      ¬ CodesKeepPositions V5.ReasonCode.fromU8 V5.ackPayload V5.decodeUnsuback V5.SubAckPacket.reasonCodes
        [0, 1, 0, 3, 17] := by
  refine ⟨⟨rfl, ?_⟩, ⟨rfl, ?_⟩, rfl, ?_⟩
  · rintro ⟨-, herror⟩
    obtain ⟨e, he⟩ := herror [3, 1] rfl ⟨3, by decide, rfl⟩
    cases he
  · rintro ⟨-, herror⟩
    obtain ⟨e, he⟩ := herror [3, 1] rfl ⟨3, by decide, rfl⟩
    cases he
  · rintro ⟨-, herror⟩
    obtain ⟨e, he⟩ := herror [3, 17] rfl ⟨3, by decide, rfl⟩
    cases he

end AtomMqtt
