import AtomMqtt.FramedStream
import AtomMqtt.DecoderBounds

set_option autoImplicit false

/-! What the framed codec loses. `Ok(None)` should say that more bytes are needed. The codec also says it for a
remaining length that has no end, and for a frame that it has cut off and cannot decode. -/
namespace AtomMqtt

theorem decodeRemainingLoop_error_iff {buf : Bytes} : ∀ {i value multiplier : ℕ}, i ≤ MAX_REMAINING_LENGTH_BYTES →
    (decodeRemainingLoop buf i value multiplier = err .MalformedRemainingLength ↔
      ∀ byte ∈ buf.take (MAX_REMAINING_LENGTH_BYTES - i), byte &&& 0x80 ≠ 0) := by
  induction buf with
  | nil =>
    intro i value multiplier _
    simp [decodeRemainingLoop]
  | cons byte buf ih =>
    intro i value multiplier hi
    simp only [decodeRemainingLoop]
    by_cases hend : i + 1 > MAX_REMAINING_LENGTH_BYTES
    · have hnone : MAX_REMAINING_LENGTH_BYTES - i = 0 := by omega
      simp [hend, hnone]
    · obtain ⟨left, hleft⟩ : ∃ left, MAX_REMAINING_LENGTH_BYTES - i = left + 1 := ⟨_, (Nat.succ_pred (by omega)).symm⟩
      have hnext : MAX_REMAINING_LENGTH_BYTES - (i + 1) = left := by omega
      rw [if_neg hend, hleft, List.take_succ_cons, List.forall_mem_cons]
      by_cases hstop : byte &&& 0x80 = 0
      · simp [hstop, err]
      · rw [if_neg hstop, ih (by omega), hnext]
        exact (and_iff_right hstop).symm

/-- The remaining length begins with four bytes that each announce another. -/
def FourContinuations (src : Bytes) : Prop := 5 ≤ src.length ∧ ∀ byte ∈ (src.drop 1).take 4, byte &&& 0x80 ≠ 0

instance (src : Bytes) : Decidable (FourContinuations src) := inferInstanceAs (Decidable (_ ∧ _))

theorem decodeRemainingLoop_closed {buf : Bytes} (h : ∀ byte ∈ buf, byte &&& 0x80 ≠ 0) : ∀ {i value multiplier : ℕ},
    i + buf.length < MAX_REMAINING_LENGTH_BYTES →
      ∃ length consumed, decodeRemainingLoop (buf ++ [0]) i value multiplier = .ok (length, consumed) := by
  induction buf with
  | nil =>
    intro i value multiplier hlen
    have hi : ¬ i + 1 > MAX_REMAINING_LENGTH_BYTES := by
      rw [List.length_nil] at hlen
      omega
    rw [List.nil_append, decodeRemainingLoop, if_neg hi]
    exact ⟨_, _, if_pos (by decide)⟩
  | cons byte buf ih =>
    intro i value multiplier hlen
    obtain ⟨hbyte, hrest⟩ := List.forall_mem_cons.mp h
    rw [List.length_cons] at hlen
    have hi : ¬ i + 1 > MAX_REMAINING_LENGTH_BYTES := by omega
    rw [List.cons_append, decodeRemainingLoop, if_neg hi, if_neg hbyte]
    exact ih hrest (by omega)

def Completable (src : Bytes) : Prop := ∃ more bytes rest, src ++ more = bytes ++ rest ∧ IsFrame bytes

theorem completable_of_length {src : Bytes} {remainingLen lenBytes : ℕ}
    (hr : decodeRemainingLength (src.drop 1) = .ok (remainingLen, lenBytes)) : Completable src := by
  have hne : 1 ≤ src.length := by
    by_contra hnil
    have hdrop : src.drop 1 = [] := List.drop_eq_nil_of_le (by omega)
    rw [hdrop] at hr
    cases hr
  refine ⟨List.replicate (1 + lenBytes + remainingLen) 0, _, _, (List.take_append_drop (1 + lenBytes + remainingLen) _).symm, ?_⟩
  apply isFrame_take
  · rw [List.drop_append_of_le_length hne]
    exact decodeRemainingLength_append hr _
  · rw [List.length_append, List.length_replicate]
    omega

theorem Completable.of_append {src more : Bytes} (h : Completable (src ++ more)) : Completable src := by
  obtain ⟨more', bytes, rest, heq, hframe⟩ := h
  rw [List.append_assoc] at heq
  exact ⟨_, bytes, rest, heq, hframe⟩

theorem completable {src : Bytes} (h : ¬ FourContinuations src) : Completable src := by
  cases hr : decodeRemainingLength (src.drop 1) with
  | ok result => exact completable_of_length hr
  | error e =>
    obtain rfl := decodeRemainingLength_error hr
    have hopen := (decodeRemainingLoop_error_iff (Nat.zero_le _)).mp hr
    have hshort : src.length < 5 := by
      by_contra hlong
      exact h ⟨by omega, hopen⟩
    rw [List.take_of_length_le (by rw [List.length_drop, MAX_REMAINING_LENGTH_BYTES]; omega)] at hopen
    cases src with
    | nil => exact ⟨[0, 0], [0, 0], [], rfl, 0, 1, rfl, rfl⟩
    | cons first tail =>
      rw [List.length_cons] at hshort
      have hroom : 0 + tail.length < MAX_REMAINING_LENGTH_BYTES := by
        rw [MAX_REMAINING_LENGTH_BYTES]
        omega
      have hclosed : ∃ length consumed, decodeRemainingLoop (tail ++ [0]) 0 0 1 = .ok (length, consumed) :=
        decodeRemainingLoop_closed hopen hroom
      obtain ⟨length, consumed, hclosed⟩ := hclosed
      have hmore : decodeRemainingLength ((first :: tail ++ [0]).drop 1) = .ok (length, consumed) := hclosed
      exact Completable.of_append (completable_of_length hmore)

def Undecodable (bytes : Bytes) : Prop :=
  (∀ packet, V3.decodePacket bytes ≠ .ok (some packet)) ∧ ∀ packet, V5.decodePacket bytes ≠ .ok (some packet)

theorem answers_unwrapOrNone {α : Type} {result : MqttResult (Option α)} (h : Answers result) :
    Answers (unwrapOrNone result) := by
  cases result with
  | error e =>
    obtain ⟨error, rfl⟩ := h e rfl
    exact answers_ok _
  | ok found => exact answers_ok _

theorem unwrapOrNone_some {α : Type} {result : MqttResult (Option α)} {x : α} :
    unwrapOrNone result = .ok (some x) ↔ result = .ok (some x) := by
  cases result with
  | error e => cases e <;> simp [unwrapOrNone]
  | ok found => rfl

theorem answers_connectPacket {α : Type} (version : String) {decoded : MqttResult (Option (α × ℕ))}
    (wrap : α → MqttPacket) (h : Answers decoded) : Answers (connectPacket version decoded wrap) :=
  h.bind fun _ _ => (answers_okOr _ _).bind fun _ _ => answers_ok _

theorem connectPacket_ok {α : Type} {version : String} {decoded : MqttResult (Option (α × ℕ))} {wrap : α → MqttPacket}
    {found : Option MqttPacket} (h : connectPacket version decoded wrap = .ok found) :
    found.isSome ∧ ∃ packet, decoded = .ok (some packet) := by
  obtain ⟨opt, hdecoded, h⟩ := bind_eq_ok.mp h
  obtain ⟨packet, hopt, h⟩ := bind_eq_ok.mp h
  cases opt with
  | none => cases hopt
  | some found' =>
    cases h
    exact ⟨rfl, found', hdecoded⟩

theorem answers_decodeConnect (codec : MqttCodec) (src : Bytes) : Answers (codec.decodeConnect src) := by
  rw [MqttCodec.decodeConnect]
  split
  · exact answers_ok _
  · refine (answers_decodeRemainingLength _).bind ?_
    rintro ⟨_, lenBytes⟩ _
    dsimp only
    split
    · exact answers_ok _
    · refine (answers_decodeRemainingLength _).bind ?_
      rintro ⟨remaining, lenBytes⟩ _
      dsimp only
      split
      · exact answers_ok _
      · split
        · exact answers_err _
        · refine (answers_slice (by omega) le_rfl).bind fun protocolData _ => ?_
          split
          · exact answers_err _
          · split
            · exact answers_connectPacket _ _ (V3.answers_decodePacket src)
            · exact answers_connectPacket _ _ (V5.answers_decodePacket src)
            · exact answers_err _

theorem answers_inner (codec : MqttCodec) (src : Bytes) : Answers (codec.decode src) := by
  cases src with
  | nil => exact answers_ok _
  | cons fixedHeader tail =>
    simp only [MqttCodec.decode]
    refine (answers_okOr _ _).bind fun packetType _ => ?_
    split
    · exact answers_decodeConnect codec _
    · refine (answers_unwrapOrNone (V3.answers_decodePacket _)).bind fun found _ => ?_
      split
      · exact answers_ok _
      · refine (answers_unwrapOrNone (V5.answers_decodePacket _)).bind fun found _ => ?_
        split <;> exact answers_ok _

/-- A CONNECT that is a frame gives a packet, if it is not an error, unless it is too short to be looked at. -/
theorem decodeConnect_ok {codec : MqttCodec} {bytes : Bytes} (h : IsFrame bytes) {found : Option MqttPacket}
    (hdecode : codec.decodeConnect bytes = .ok found) :
    bytes.length < 10 ∧ found = none ∨ 10 ≤ bytes.length ∧ found.isSome ∧ ¬ Undecodable bytes := by
  obtain ⟨remainingLen, lenBytes, hr, hlen⟩ := h
  by_cases hshort : bytes.length < 10
  · rw [MqttCodec.decodeConnect, if_pos hshort] at hdecode
    cases hdecode
    exact .inl ⟨hshort, rfl⟩
  · refine .inr ⟨Nat.le_of_not_lt hshort, ?_⟩
    have hhead : ¬ bytes.length < 1 + lenBytes := by omega
    simp only [MqttCodec.decodeConnect, hshort, if_false, hr, ok_bind, hhead, ← hlen, lt_irrefl] at hdecode
    split at hdecode
    · cases hdecode
    · obtain ⟨protocolData, _, hdecode⟩ := bind_eq_ok.mp hdecode
      split at hdecode
      · cases hdecode
      · split at hdecode
        · obtain ⟨hsome, packet, hpacket⟩ := connectPacket_ok hdecode
          exact ⟨hsome, fun hun => hun.1 packet hpacket⟩
        · obtain ⟨hsome, packet, hpacket⟩ := connectPacket_ok hdecode
          exact ⟨hsome, fun hun => hun.2 packet hpacket⟩
        · cases hdecode

/-- The frames that the inner decoder passes over without an error. -/
def Skipped (bytes : Bytes) : Prop :=
  ∃ packetType, PacketType.fromU8 (bytes.headD 0) = some packetType ∧
    if packetType = .Connect then bytes.length < 10 else Undecodable bytes

theorem inner_ok {codec : MqttCodec} {bytes : Bytes} (h : IsFrame bytes) {found : Option MqttPacket}
    (hdecode : codec.decode bytes = .ok found) : found = none ∧ Skipped bytes ∨ found.isSome ∧ ¬ Undecodable bytes := by
  cases bytes with
  | nil => exact absurd h.length (by decide)
  | cons fixedHeader tail =>
    obtain ⟨packetType, htype, hdecode⟩ := bind_eq_ok.mp hdecode
    have htype : PacketType.fromU8 fixedHeader = some packetType := by
      cases hfound : PacketType.fromU8 fixedHeader with
      | none =>
        rw [hfound] at htype
        cases htype
      | some found =>
        rw [hfound] at htype
        cases htype
        rfl
    split at hdecode
    · rename_i hconnect
      obtain rfl := beq_iff_eq.mp hconnect
      rcases decodeConnect_ok h hdecode with ⟨hshort, hnone⟩ | ⟨-, hsome, hun⟩
      · exact .inl ⟨hnone, .Connect, htype, by rw [if_pos rfl]; exact hshort⟩
      · exact .inr ⟨hsome, hun⟩
    · rename_i hother
      have hother : packetType ≠ .Connect := fun heq => hother (beq_iff_eq.mpr heq)
      obtain ⟨first, hfirst, hdecode⟩ := bind_eq_ok.mp hdecode
      cases first with
      | some packet =>
        cases hdecode
        exact .inr ⟨rfl, fun hun => hun.1 packet (unwrapOrNone_some.mp hfirst)⟩
      | none =>
        obtain ⟨second, hsecond, hdecode⟩ := bind_eq_ok.mp hdecode
        cases second with
        | some packet =>
          cases hdecode
          exact .inr ⟨rfl, fun hun => hun.2 packet (unwrapOrNone_some.mp hsecond)⟩
        | none =>
          cases hdecode
          refine .inl ⟨rfl, packetType, htype, ?_⟩
          rw [if_neg hother]
          constructor
          · intro packet hpacket
            rw [hpacket] at hfirst
            cases hfirst
          · intro packet hpacket
            rw [hpacket] at hsecond
            cases hsecond

theorem inner_skipped (codec : MqttCodec) {bytes : Bytes} (h : Skipped bytes) : codec.decode bytes = .ok none := by
  obtain ⟨packetType, htype, hskip⟩ := h
  cases bytes with
  | nil => rfl
  | cons fixedHeader tail =>
    rw [List.headD_cons] at htype
    simp only [MqttCodec.decode, htype, okOr, ok_bind]
    split_ifs at hskip with hconnect
    · simp only [hconnect, beq_self_eq_true, if_true, MqttCodec.decodeConnect, hskip]
    · have hother : (packetType == .Connect) = false := beq_eq_false_iff_ne.mpr hconnect
      have hnone : ∀ {α : Type} {result : MqttResult (Option α)}, Answers result → (∀ x, result ≠ .ok (some x)) →
          unwrapOrNone result = .ok none := by
        intro α result hanswers hnot
        cases result with
        | error e =>
          obtain ⟨error, rfl⟩ := hanswers e rfl
          rfl
        | ok found =>
          cases found with
          | none => rfl
          | some x => exact absurd rfl (hnot x)
      rw [hother, if_neg Bool.false_ne_true, hnone (V3.answers_decodePacket _) hskip.1, ok_bind,
        hnone (V5.answers_decodePacket _) hskip.2, ok_bind]
      rfl

/-- `Ok(None)` asks for more, and can be answered; what no bytes can mend is an error. -/
structure NothingLost (codec : MqttFramedCodec) (src : Bytes) : Prop where
  waits : ∀ rest, codec.decode src = (.ok none, rest) → rest = src ∧ Completable src
  undecodable : ∀ bytes rest, src = bytes ++ rest → IsFrame bytes → Undecodable bytes →
    ∃ e, (codec.decode src).1 = err e
  endless : FourContinuations src → ∃ e, (codec.decode src).1 = err e

/-- The buffer begins with a frame, of no more than the allowed size, that the inner decoder skips. -/
def Skips (codec : MqttFramedCodec) (src : Bytes) : Prop :=
  ∃ bytes rest, src = bytes ++ rest ∧ IsFrame bytes ∧ bytes.length ≤ codec.inner.maxPacketSize ∧ Skipped bytes

theorem decode_endless (codec : MqttFramedCodec) {src : Bytes} (h : FourContinuations src) :
    codec.decode src = (.ok none, src) := by
  have hr : decodeRemainingLength (src.drop 1) = err .MalformedRemainingLength :=
    (decodeRemainingLoop_error_iff (Nat.zero_le _)).mpr h.2
  have htwo : ¬ src.length < 2 := by
    have := h.1
    omega
  rw [MqttFramedCodec.decode, if_neg htwo, hr]
  rfl

theorem decode_skips (codec : MqttFramedCodec) {src : Bytes} (h : Skips codec src) :
    ∃ rest, codec.decode src = (.ok none, rest) ∧ rest ≠ src := by
  obtain ⟨bytes, rest, rfl, hframe, hmax, hskipped⟩ := h
  refine ⟨rest, by rw [decode_frame codec hframe rest hmax, inner_skipped codec.inner hskipped], ?_⟩
  intro heq
  have hlen := congrArg List.length heq
  have htwo := hframe.length
  rw [List.length_append] at hlen
  omega

/-- Nothing is lost exactly if the remaining length does not begin with four bytes that announce another, and the
    buffer does not begin with a frame that the inner decoder skips. -/
theorem nothingLost_iff (codec : MqttFramedCodec) (src : Bytes) :
    NothingLost codec src ↔ ¬ FourContinuations src ∧ ¬ Skips codec src := by
  constructor
  · intro h
    constructor
    · intro hfour
      obtain ⟨e, he⟩ := h.endless hfour
      rw [decode_endless codec hfour] at he
      cases he
    · intro hskips
      obtain ⟨rest, hdecode, hne⟩ := decode_skips codec hskips
      exact hne (h.waits rest hdecode).1
  · rintro ⟨hfour, hskips⟩
    have hframes : ∀ bytes rest, src = bytes ++ rest → IsFrame bytes →
        (∃ e, (codec.decode src).1 = err e) ∨ (∃ p, (codec.decode src).1 = .ok (some p)) ∧ ¬ Undecodable bytes := by
      rintro bytes rest rfl hframe
      by_cases hmax : bytes.length ≤ codec.inner.maxPacketSize
      · rw [decode_frame codec hframe rest hmax]
        cases hdecode : codec.inner.decode bytes with
        | error e =>
          obtain ⟨error, rfl⟩ := answers_inner codec.inner bytes e hdecode
          exact .inl ⟨error, rfl⟩
        | ok found =>
          rcases inner_ok hframe hdecode with ⟨-, hskipped⟩ | ⟨hsome, hun⟩
          · exact absurd ⟨bytes, rest, rfl, hframe, hmax, hskipped⟩ hskips
          · obtain ⟨p, rfl⟩ := Option.isSome_iff_exists.mp hsome
            exact .inr ⟨⟨p, rfl⟩, hun⟩
      · rw [decode_oversized codec hframe rest (Nat.lt_of_not_le hmax)]
        exact .inl ⟨_, rfl⟩
    refine ⟨?_, ?_, fun h => absurd h hfour⟩
    · intro rest hdecode
      have hnone : ∀ bytes rest, src = bytes ++ rest → ¬ IsFrame bytes := by
        intro bytes rest' hsrc hframe
        rcases hframes bytes rest' hsrc hframe with ⟨e, he⟩ | ⟨⟨p, hp⟩, -⟩
        · rw [hdecode] at he
          cases he
        · rw [hdecode] at hp
          cases hp
      rw [decode_waits codec hnone] at hdecode
      cases hdecode
      exact ⟨rfl, completable hfour⟩
    · intro bytes rest hsrc hframe hun
      exact (hframes bytes rest hsrc hframe).resolve_right fun h => h.2 hun

/-- A remaining length without an end, and a PUBACK without a packet id. -/
theorem nothingLost_fails : ¬ ∀ (codec : MqttFramedCodec) (src : Bytes), NothingLost codec src := by
  intro h
  obtain ⟨e, he⟩ := (h (.new 100) [0x30, 0x80, 0x80, 0x80, 0x80]).endless (by decide +kernel)
  have hnone : ((MqttFramedCodec.new 100).decode [0x30, 0x80, 0x80, 0x80, 0x80]).1 = .ok none := by decide +kernel
  rw [hnone] at he
  cases he

example : (MqttFramedCodec.new 100).decode [0x40, 0x00] = (.ok none, []) := by decide +kernel

end AtomMqtt
