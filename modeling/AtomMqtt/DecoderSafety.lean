import AtomMqtt.MachineBounds

set_option autoImplicit false

/-! Every decoder answers, and every loop over a buffer ends. On a target with words of 32 or 64 bits, whatever
a slice holds: no index, no slice and no sum of a decoder faults, a packet that is returned has two bytes at
least and no more than the slice, and a loop that advances by its size gets through. -/
namespace AtomMqtt
open Scanning

inductive PointerWidth where
  | Bits32
  | Bits64
  deriving DecidableEq, Repr

def PointerWidth.bits : PointerWidth → ℕ
  | .Bits32 => 32
  | .Bits64 => 64

def PointerWidth.usizeMax (width : PointerWidth) : ℕ := 2 ^ width.bits - 1

def PointerWidth.isizeMax (width : PointerWidth) : ℕ := 2 ^ (width.bits - 1) - 1

/-- The bytes of a slice: the language allows no allocation above `isize::MAX`. -/
structure ByteSlice (width : PointerWidth) where
  bytes : Bytes
  fits : bytes.length ≤ width.isizeMax

theorem ByteSlice.room {width : PointerWidth} (buf : ByteSlice width) : buf.bytes.length + 2 ^ 28 ≤ width.usizeMax := by
  have hfits := buf.fits
  cases width with
  | Bits32 =>
    simp only [PointerWidth.isizeMax, PointerWidth.usizeMax, PointerWidth.bits] at hfits ⊢
    omega
  | Bits64 =>
    simp only [PointerWidth.isizeMax, PointerWidth.usizeMax, PointerWidth.bits] at hfits ⊢
    omega

theorem decodeFrame_size {α : Type} {maxPacketSize size : ℕ} {body : PacketType → Bytes → UInt8 → MqttResult α}
    {src : Bytes} {packet : α} (h : decodeFrame maxPacketSize body src = .ok (some (packet, size))) :
    2 ≤ size ∧ size ≤ src.length := by
  obtain ⟨_, _, _, _, lenBytes, _, rfl, _, hr, hsize, _, hle, _⟩ := decodeFrame_eq_some_iff.mp h
  have hpos := (decodeRemainingLength_bounds hr).1
  omega

theorem decodePacketByVersion_size {version : ProtocolVersion} {buf : Bytes} {packet : MqttPacket} {size : ℕ}
    (h : decodePacketByVersion buf version = .ok (some (packet, size))) : 2 ≤ size ∧ size ≤ buf.length := by
  cases version with
  | V311 =>
    obtain ⟨_, _, h⟩ := decodePacketByVersion_v3.mp h
    exact decodeFrame_size h
  | V5 =>
    obtain ⟨_, _, h⟩ := decodePacketByVersion_v5.mp h
    exact decodeFrame_size h

theorem answers_decodePacketByVersion (buf : Bytes) (version : ProtocolVersion) :
    Answers (decodePacketByVersion buf version) := by
  unfold decodePacketByVersion
  split
  · exact answers_ok _
  · cases version with
    | V311 => exact (V3.answers_decodePacket buf).map _
    | V5 => exact (V5.answers_decodePacket buf).map _

theorem answers_decodeFirstPacket (buf : Bytes) : Answers (decodeFirstPacket buf) := by
  match buf with
  | [] => exact answers_ok _
  | [_] => exact answers_ok _
  | first :: second :: rest =>
    cases hr : decodeRemainingLength (second :: rest) with
    | error e =>
      intro e' he
      simp only [decodeFirstPacket, hr, error_bind] at he
      cases he
      exact answers_decodeRemainingLength _ e hr
    | ok result =>
      obtain ⟨remainingLen, lenBytes⟩ := result
      exact answers_first hr

namespace Machine

section
variable {usizeMax : ℕ} {buf : Bytes} (hroom : buf.length + 2 ^ 28 ≤ usizeMax)
include hroom

theorem decodePacketByVersion_eq (version : ProtocolVersion) :
    decodePacketByVersion usizeMax buf version = AtomMqtt.decodePacketByVersion buf version := by
  unfold decodePacketByVersion AtomMqtt.decodePacketByVersion
  cases version <;> simp only [V3.Machine.decodePacket_eq hroom, V5.Machine.decodePacket_eq hroom]

theorem decodeFirstPacket_eq : decodeFirstPacket usizeMax buf = AtomMqtt.decodeFirstPacket buf := by
  match buf with
  | [] => rfl
  | [_] => rfl
  | first :: second :: rest =>
    have htwo : ¬ (first :: second :: rest).length < 2 := by simp
    have htail : sliceFrom (first :: second :: rest) 1 = .ok (second :: rest) := sliceFrom_eq (by simp)
    simp only [decodeFirstPacket, AtomMqtt.decodeFirstPacket, if_neg htwo, htail, ok_bind,
      decodeRemainingLength_eq (show 2 ^ 28 ≤ usizeMax by omega)]
    cases hr : AtomMqtt.decodeRemainingLength (second :: rest) with
    | error e => rfl
    | ok result =>
      obtain ⟨remainingLen, lenBytes⟩ := result
      have hconsumed := (decodeRemainingLength_bounds hr).2
      have hlt := decodeRemainingLength_lt hr
      simp only [List.length_cons] at hconsumed hroom
      simp only [ok_bind, add_eq (show 1 + lenBytes ≤ usizeMax by omega),
        add_eq (show 1 + lenBytes + remainingLen ≤ usizeMax by omega)]
      split
      · rfl
      · change (slice _ _ _ >>= _) = _
        cases slice (first :: second :: rest) (1 + lenBytes) (first :: second :: rest).length with
        | error e => rfl
        | ok hdr =>
          simp only [ok_bind]
          split
          · rfl
          · have hindex := index_getD (show 6 < hdr.length by omega)
            rewrite [hindex, ok_bind, V3.Machine.decodePacket_eq hroom, V5.Machine.decodePacket_eq hroom]
            rfl

theorem decodeConnect_eq (codec : MqttCodec) : decodeConnect usizeMax codec buf = codec.decodeConnect buf := by
  unfold decodeConnect MqttCodec.decodeConnect
  by_cases hten : buf.length < 10
  · rw [if_pos hten, if_pos hten]
  · rw [if_neg hten, if_neg hten, sliceFrom_eq (by omega)]
    simp only [ok_bind, decodeRemainingLength_eq (show 2 ^ 28 ≤ usizeMax by omega)]
    cases hr : AtomMqtt.decodeRemainingLength (buf.drop 1) with
    | error e => rfl
    | ok result =>
      obtain ⟨remaining, lenBytes⟩ := result
      have hconsumed := (decodeRemainingLength_bounds hr).2
      have hlt := decodeRemainingLength_lt hr
      rw [List.length_drop] at hconsumed
      simp only [ok_bind, add_eq (show 1 + lenBytes ≤ usizeMax by omega),
        add_eq (show 1 + lenBytes + remaining ≤ usizeMax by omega)]
      split
      · rfl
      · split
        · rfl
        · split
          · rfl
          · change (slice _ _ _ >>= _) = _
            cases slice buf (1 + lenBytes) buf.length with
            | error e => rfl
            | ok protocolData =>
              simp only [ok_bind]
              split
              · rfl
              · have hindex := index_getD (show 6 < protocolData.length by omega)
                rewrite [hindex, ok_bind, V3.Machine.decodePacket_eq hroom, V5.Machine.decodePacket_eq hroom]
                rfl

theorem decode_eq (codec : MqttCodec) : decode usizeMax codec buf = codec.decode buf := by
  cases buf with
  | nil => rfl
  | cons fixedHeader tail =>
    have hne : ¬ (fixedHeader :: tail).isEmpty = true := by simp
    have hindex : index (fixedHeader :: tail) 0 = .ok fixedHeader := rfl
    rewrite [decode, if_neg hne, hindex, ok_bind, decodeConnect_eq hroom, V3.Machine.decodePacket_eq hroom,
      V5.Machine.decodePacket_eq hroom]
    rfl

end

section
variable {usizeMax : ℕ} (version : ProtocolVersion)

/-- Each turn takes two bytes at least off the buffer. Induction on the turns. -/
theorem answers_drain {fuel : ℕ} : ∀ {buf : Bytes}, buf.length + 2 ^ 28 ≤ usizeMax → buf.length < 2 * fuel →
    Answers (drain usizeMax version fuel buf) := by
  induction fuel with
  | zero =>
    intro buf _ hfuel
    omega
  | succ fuel ih =>
    intro buf hroom hfuel
    rw [drain, decodePacketByVersion_eq hroom]
    refine (answers_decodePacketByVersion buf version).bind fun found hfound => ?_
    cases found with
    | none => exact answers_ok _
    | some result =>
      obtain ⟨packet, size⟩ := result
      obtain ⟨htwo, hsize⟩ := decodePacketByVersion_size hfound
      have hadvance : advance buf size = .ok (buf.drop size) := if_pos hsize
      have hshorter : (buf.drop size).length = buf.length - size := List.length_drop
      dsimp only
      rw [hadvance, ok_bind]
      exact (ih (by omega) (by omega)).bind fun rest _ => answers_ok _

end
end Machine

/-- What is asked of the decoders on one slice. -/
structure DecodesSafely (usizeMax : ℕ) (buf : Bytes) : Prop where
  v3 : Answers (V3.Machine.decodePacket usizeMax buf)
  v5 : Answers (V5.Machine.decodePacket usizeMax buf)
  properties : Answers (V5.Machine.decodeProperties usizeMax buf)
  codec : ∀ codec, Answers (Machine.decode usizeMax codec buf)
  first : Answers (Machine.decodeFirstPacket usizeMax buf)
  v3Size : ∀ p n, V3.Machine.decodePacket usizeMax buf = .ok (some (p, n)) → 2 ≤ n ∧ n ≤ buf.length
  v5Size : ∀ p n, V5.Machine.decodePacket usizeMax buf = .ok (some (p, n)) → 2 ≤ n ∧ n ≤ buf.length
  loop : ∀ version, Answers (Machine.drain usizeMax version (buf.length + 1) buf)

/-- Every decoder is safe on every slice. -/
theorem decodesSafely (width : PointerWidth) (buf : ByteSlice width) : DecodesSafely width.usizeMax buf.bytes := by
  have hroom := buf.room
  have hv3 := V3.Machine.decodePacket_eq hroom
  have hv5 := V5.Machine.decodePacket_eq hroom
  constructor
  case v3 => exact hv3 ▸ V3.answers_decodePacket buf.bytes
  case v5 => exact hv5 ▸ V5.answers_decodePacket buf.bytes
  case properties => exact V5.Machine.decodeProperties_eq hroom ▸ V5.answers_properties buf.bytes
  case codec => exact fun codec => Machine.decode_eq hroom codec ▸ answers_inner codec buf.bytes
  case first => exact Machine.decodeFirstPacket_eq hroom ▸ answers_decodeFirstPacket buf.bytes
  case v3Size => exact fun p n h => decodeFrame_size (hv3 ▸ h)
  case v5Size => exact fun p n h => decodeFrame_size (hv5 ▸ h)
  case loop => exact fun version => Machine.answers_drain version hroom (by omega)

end AtomMqtt
