import AtomMqtt.Common
import Mathlib.Tactic.Ring

set_option autoImplicit false

/-! Round trips of the wire primitives. The variable-length integer, the length-prefixed string, the big-endian
integers and the packet frame: each is read back from its encoding, whatever bytes follow. -/
namespace AtomMqtt
open Scanning

theorem encodeRemainingLoop_fuel (f : ℕ) : ∀ (g length : ℕ), length < f → length < g →
    encodeRemainingLoop f length = encodeRemainingLoop g length := by
  induction f with
  | zero => intro g length h; omega
  | succ f ih =>
    intro g length hf hg
    cases g with
    | zero => omega
    | succ g =>
      simp only [encodeRemainingLoop]
      by_cases hz : length >>> 7 > 0
      · have hlt : length >>> 7 < length := by
          rw [Nat.shiftRight_eq_div_pow] at hz ⊢
          omega
        rw [ih g (length >>> 7) (by omega) (by omega)]
      · simp only [hz, if_false]

theorem lastByte_bits : ∀ m < 128, UInt8.ofNat m &&& 128 = 0 ∧ (UInt8.ofNat m).toNat &&& 127 = m := by decide

theorem innerByte_bits : ∀ m < 128, UInt8.ofNat m ||| 128 = UInt8.ofNat (m + 128) ∧
    ¬ UInt8.ofNat (m + 128) &&& 128 = 0 ∧ (UInt8.ofNat (m + 128)).toNat &&& 127 = m := by decide

theorem encodeRemainingLength_small {n : ℕ} (h : n < 128) : encodeRemainingLength n = [UInt8.ofNat n] := by
  have hz : ¬ n >>> 7 > 0 := by rw [Nat.shiftRight_eq_div_pow]; omega
  have hand : n &&& 127 = n := (Nat.and_two_pow_sub_one_eq_mod n 7).trans (Nat.mod_eq_of_lt h)
  simp [encodeRemainingLength, encodeRemainingLoop, hz, hand]

theorem encodeRemainingLength_large {n : ℕ} (h : 128 ≤ n) :
    encodeRemainingLength n = UInt8.ofNat (n % 128 + 128) :: encodeRemainingLength (n / 128) := by
  have hshift : n >>> 7 = n / 128 := Nat.shiftRight_eq_div_pow n 7
  have hand : n &&& 127 = n % 128 := Nat.and_two_pow_sub_one_eq_mod n 7
  have hbyte := (innerByte_bits (n % 128) (Nat.mod_lt n (by decide))).1
  have hpos : n / 128 > 0 := by omega
  rw [encodeRemainingLength, encodeRemainingLoop]
  simp only [hshift, hand, hpos, if_true, hbyte]
  rw [encodeRemainingLoop_fuel n (n / 128 + 1) (n / 128) (by omega) (by omega)]
  rfl

theorem encodeRemainingLength_pos (n : ℕ) : 0 < (encodeRemainingLength n).length := by
  rcases Nat.lt_or_ge n 128 with h | h
  · simp [encodeRemainingLength_small h]
  · simp [encodeRemainingLength_large h]

/-- Each byte more is one factor of 128. Induction on the bytes allowed after the first. -/
theorem encodeRemainingLength_length_le_iff {k : ℕ} : ∀ {n : ℕ},
    (encodeRemainingLength n).length ≤ k + 1 ↔ n < 128 ^ (k + 1) := by
  induction k with
  | zero =>
    intro n
    rcases Nat.lt_or_ge n 128 with h | h
    · simp [encodeRemainingLength_small h, h]
    · have hpos := encodeRemainingLength_pos (n / 128)
      rw [encodeRemainingLength_large h, List.length_cons]
      omega
  | succ k ih =>
    intro n
    have hpow : n / 128 < 128 ^ (k + 1) ↔ n < 128 ^ (k + 2) := Nat.div_lt_iff_lt_mul (by decide)
    rcases Nat.lt_or_ge n 128 with h | h
    · have hlt : n < 128 ^ (k + 2) := h.trans_le (Nat.le_self_pow (Nat.succ_ne_zero (k + 1)) 128)
      simp [encodeRemainingLength_small h, hlt]
    · rw [encodeRemainingLength_large h, List.length_cons, Nat.add_le_add_iff_right, ih, hpow]

/-- The decoder continues from any position and partial value. Induction on the bytes still allowed
    after the next one: each of them carries one more factor of 128. -/
theorem decodeRemainingLoop_encode (k : ℕ) : ∀ (n i value multiplier : ℕ) (rest : Bytes),
    i + (k + 1) = MAX_REMAINING_LENGTH_BYTES → n < 128 ^ (k + 1) →
    decodeRemainingLoop (encodeRemainingLength n ++ rest) i value multiplier =
      .ok (value + n * multiplier, i + (encodeRemainingLength n).length) := by
  induction k with
  | zero =>
    intro n i value multiplier rest hk hn
    have hi : ¬ i + 1 > MAX_REMAINING_LENGTH_BYTES := by omega
    obtain ⟨hstop, hlow⟩ := lastByte_bits n (by omega)
    rw [encodeRemainingLength_small (by omega)]
    simp only [List.cons_append, List.nil_append, decodeRemainingLoop, hi, if_false, hstop, hlow, if_true,
      List.length_singleton]
  | succ k ih =>
    intro n i value multiplier rest hk hn
    have hi : ¬ i + 1 > MAX_REMAINING_LENGTH_BYTES := by omega
    rcases Nat.lt_or_ge n 128 with h | h
    · obtain ⟨hstop, hlow⟩ := lastByte_bits n h
      rw [encodeRemainingLength_small h]
      simp only [List.cons_append, List.nil_append, decodeRemainingLoop, hi, if_false, hstop, hlow, if_true,
        List.length_singleton]
    · obtain ⟨-, hmore, hlow⟩ := innerByte_bits (n % 128) (Nat.mod_lt n (by decide))
      have hdiv : n / 128 < 128 ^ (k + 1) := by
        rw [Nat.div_lt_iff_lt_mul (by decide), ← Nat.pow_succ]
        exact hn
      have later := ih (n / 128) (i + 1) (value + n % 128 * multiplier) (multiplier * 128) rest (by omega) hdiv
      have hsum : value + n % 128 * multiplier + n / 128 * (multiplier * 128) = value + n * multiplier := by
        have hn' : n % 128 + n / 128 * 128 = n := by omega
        calc
          _ = value + (n % 128 + n / 128 * 128) * multiplier := by ring
          _ = _ := by rw [hn']
      rw [encodeRemainingLength_large h]
      simp only [List.cons_append, decodeRemainingLoop, hi, if_false, hmore, hlow, later, hsum, List.length_cons]
      congr 2
      omega

theorem decodeRemainingLength_encode {n : ℕ} (h : n < 2 ^ 28) :
    Decodes decodeRemainingLength (encodeRemainingLength n) n := by
  intro rest
  have hn : n < 128 ^ (3 + 1) := by simpa using h
  simpa [decodeRemainingLength] using decodeRemainingLoop_encode 3 n 0 0 1 rest rfl hn

theorem length16_bytes {n : ℕ} (h : n ≤ 65535) :
    (UInt8.ofNat (n >>> 8)).toNat <<< 8 ||| (UInt8.ofNat (n &&& 255)).toNat = n := by
  have hand : n &&& 255 = n % 256 := Nat.and_two_pow_sub_one_eq_mod n 8
  have hlo : n % 256 < 2 ^ 8 := Nat.mod_lt n (by decide)
  rw [hand, Nat.shiftRight_eq_div_pow, UInt8.toNat_ofNat', UInt8.toNat_ofNat', Nat.mod_eq_of_lt hlo,
    Nat.mod_eq_of_lt (show n / 2 ^ 8 < 2 ^ 8 by omega), ← Nat.shiftLeft_add_eq_or_of_lt hlo, Nat.shiftLeft_eq]
  omega

theorem fromUtf8_asBytes (s : String) : fromUtf8 (asBytes s) = some s := by
  have hv : s.toUTF8.IsValidUTF8 := s.isValidUTF8
  simp only [fromUtf8, asBytes, Array.toArray_toList, String.fromUTF8?]
  exact dif_pos hv

theorem slice_append (a b c : Bytes) : slice (a ++ (b ++ c)) a.length (a.length + b.length) = .ok b := by
  have hle : a.length ≤ a.length + b.length ∧ a.length + b.length ≤ (a ++ (b ++ c)).length := by
    simp only [List.length_append]; omega
  rw [slice, if_pos hle, List.take_length_add_append, List.take_left, List.drop_left]

theorem encodeString_length (s : String) : (encodeString s).length = 2 + (asBytes s).length := by
  simp [encodeString]; omega

theorem decodeString_encode {s : String} (h : (asBytes s).length ≤ 65535) :
    Decodes decodeString (encodeString s) s := by
  intro rest
  have hlen := length16_bytes h
  have hfit : ¬ (encodeString s ++ rest).length < 2 + (asBytes s).length := by
    simp only [List.length_append, encodeString_length]; omega
  have hs := slice_append [UInt8.ofNat ((asBytes s).length >>> 8), UInt8.ofNat ((asBytes s).length &&& 255)]
    (asBytes s) rest
  rw [encodeString_length]
  simp only [encodeString, List.cons_append, List.nil_append, List.length_cons, List.length_nil] at hs hfit ⊢
  simp only [decodeString, hlen, List.length_cons, hfit, if_false, hs, ok_bind, fromUtf8_asBytes, okOr]
  rfl

theorem u16_roundtrip (v : UInt16) :
    u16FromBeBytes (UInt8.ofNat (v.toNat / 256)) (UInt8.ofNat v.toNat) = v := by
  have hv := v.toNat_lt
  apply UInt16.toNat_inj.mp
  simp only [u16FromBeBytes, UInt8.toNat_ofNat', UInt16.toNat_ofNat']
  omega

theorem u32_roundtrip (v : UInt32) :
    u32FromBeBytes (UInt8.ofNat (v.toNat / 16777216)) (UInt8.ofNat (v.toNat / 65536))
      (UInt8.ofNat (v.toNat / 256)) (UInt8.ofNat v.toNat) = v := by
  have hv := v.toNat_lt
  apply UInt32.toNat_inj.mp
  simp only [u32FromBeBytes, UInt8.toNat_ofNat', UInt32.toNat_ofNat']
  omega

theorem Scan.reads_string {s : String} (h : (asBytes s).length ≤ 65535) :
    Reads Scan.string (encodeString s) s := (decodeString_encode h).reads _

theorem Scan.reads_next (b : UInt8) : Reads Scan.next [b] b := Scanning.reads_next _ b

theorem Scan.reads_u16 (v : UInt16) : Reads Scan.u16 (u16ToBeBytes v) v := by
  refine (Scan.reads_next (UInt8.ofNat (v.toNat / 256))).bind (e := [UInt8.ofNat v.toNat]) ?_
  refine (Scan.reads_next (UInt8.ofNat v.toNat)).bind (e := []) ?_
  rw [u16_roundtrip]
  exact Scanning.reads_pure v

/-- `(len as u16).to_be_bytes()` in front of a field of at most 65535 bytes -/
theorem Scan.reads_length16 {n : ℕ} (h : n ≤ 65535) :
    Reads Scan.length16 (u16ToBeBytes (UInt16.ofNat n)) n := by
  have hn : (UInt16.ofNat n).toNat = n := by rw [UInt16.toNat_ofNat']; omega
  have hhi : UInt8.ofNat (n / 256) = UInt8.ofNat (n >>> 8) := by rw [Nat.shiftRight_eq_div_pow]
  have hlo : UInt8.ofNat n = UInt8.ofNat (n &&& 255) := by
    rw [Nat.and_two_pow_sub_one_eq_mod n 8]
    exact UInt8.toNat_inj.mp (by simp)
  rw [u16ToBeBytes, hn, hhi, hlo]
  refine (Scan.reads_next (UInt8.ofNat (n >>> 8))).bind (e := [UInt8.ofNat (n &&& 255)]) ?_
  refine (Scan.reads_next (UInt8.ofNat (n &&& 255))).bind (e := []) ?_
  rw [length16_bytes h]
  exact Scanning.reads_pure n

theorem runOn_of_readsEnd {α : Type} {m : Scan α} {e : Bytes} {x : α} (h : ReadsEnd m e x) :
    Scan.runOn m e = .ok x := by
  have h0 := h []
  simp only [ReadsAt, List.nil_append, List.append_nil] at h0
  simp only [Scan.runOn]
  rw [show ([] : Bytes).length = 0 from rfl] at h0
  rw [h0]

theorem frame_length (fixedByte : UInt8) (remaining : Bytes) :
    (frame fixedByte remaining).length =
      1 + (encodeRemainingLength remaining.length).length + remaining.length := by
  simp [frame]; omega

theorem frame_header (fixedByte : UInt8) {remaining : Bytes} (h : remaining.length < 2 ^ 28) :
    decodeRemainingLength ((frame fixedByte remaining).drop 1) =
      .ok (remaining.length, (encodeRemainingLength remaining.length).length) :=
  decodeRemainingLength_encode h remaining

theorem frame_drop (fixedByte : UInt8) (remaining : Bytes) :
    (frame fixedByte remaining).drop (1 + (encodeRemainingLength remaining.length).length) = remaining := by
  rw [frame, ← List.cons_append, List.drop_append_of_le_length (by simp; omega)]
  simp [Nat.add_comm 1]

theorem frame_two (fixedByte x y : UInt8) : frame fixedByte [x, y] = [fixedByte, 0x02, x, y] := by
  have two : encodeRemainingLength 2 = [0x02] := by decide
  simp only [frame, List.length_cons, List.length_nil, Nat.zero_add, Nat.reduceAdd, two, List.cons_append,
    List.nil_append]

/-- A frame of at most the limit is cut out again and its body handed on, whatever follows the frame. -/
theorem decodeFrame_frame {α : Type} {maxPacketSize : ℕ} (body : PacketType → Bytes → UInt8 → MqttResult α)
    {fixedByte : UInt8} {packetType : PacketType} {remaining : Bytes} (rest : Bytes)
    (htype : PacketType.fromU8 fixedByte = some packetType)
    (hmax : (frame fixedByte remaining).length ≤ maxPacketSize) (hbound : maxPacketSize < 2 ^ 28) :
    decodeFrame maxPacketSize body (frame fixedByte remaining ++ rest) =
      (fun packet => some (packet, (frame fixedByte remaining).length)) <$> body packetType remaining fixedByte := by
  have hlen := frame_length fixedByte remaining
  have hr := decodeRemainingLength_encode (show remaining.length < 2 ^ 28 by omega) (remaining ++ rest)
  have hpos := encodeRemainingLength_pos remaining.length
  have hs := slice_append (fixedByte :: encodeRemainingLength remaining.length) remaining rest
  have htwo : ¬ (frame fixedByte remaining ++ rest).length < 2 := by
    simp only [List.length_append]; omega
  have hall : ¬ (frame fixedByte remaining ++ rest).length <
      1 + (encodeRemainingLength remaining.length).length + remaining.length := by
    simp only [List.length_append]; omega
  have hfit : ¬ 1 + (encodeRemainingLength remaining.length).length + remaining.length > maxPacketSize := by omega
  rw [List.length_cons, Nat.add_comm _ 1] at hs
  rw [hlen]
  simp only [frame, List.cons_append, List.append_assoc] at hs htwo hall ⊢
  simp only [decodeFrame, htype, okOr, ok_bind, htwo, hall, hfit, if_false, hr, hs]
  rfl

theorem bind_eq_ok {α β : Type} {x : MqttResult α} {f : α → MqttResult β} {y : β} :
    (x >>= f) = .ok y ↔ ∃ a, x = .ok a ∧ f a = .ok y := by
  cases x with
  | error e => simp
  | ok a => simp

theorem map_eq_ok {α β : Type} {x : MqttResult α} {f : α → β} {y : β} :
    f <$> x = .ok y ↔ ∃ a, x = .ok a ∧ f a = y := by
  cases x with
  | error e => simp
  | ok a => simp

theorem okOr_eq_ok {α : Type} {opt : Option α} {e : MqttError} {x : α} : okOr opt e = .ok x ↔ opt = some x := by
  cases opt <;> simp [okOr, err]

/-- What a packet is decoded from: a known type, a length within the limit, and the body it announces. -/
theorem decodeFrame_eq_some_iff {α : Type} {maxPacketSize : ℕ} {body : PacketType → Bytes → UInt8 → MqttResult α}
    {src : Bytes} {packet : α} {size : ℕ} : decodeFrame maxPacketSize body src = .ok (some (packet, size)) ↔
      ∃ fixedHeader tail packetType remainingLen lenBytes data, src = fixedHeader :: tail ∧
        PacketType.fromU8 fixedHeader = some packetType ∧
        decodeRemainingLength tail = .ok (remainingLen, lenBytes) ∧ size = 1 + lenBytes + remainingLen ∧
        size ≤ maxPacketSize ∧ size ≤ src.length ∧ 2 ≤ src.length ∧ slice src (1 + lenBytes) size = .ok data ∧
        body packetType data fixedHeader = .ok packet := by
  cases src with
  | nil => simp [decodeFrame]
  | cons fixedHeader tail =>
    constructor
    · intro h
      simp only [decodeFrame] at h
      obtain ⟨packetType, htype, h⟩ := bind_eq_ok.mp h
      split at h
      · cases h
      · rename_i htwo
        obtain ⟨⟨remainingLen, lenBytes⟩, hr, h⟩ := bind_eq_ok.mp h
        simp only at h
        split at h
        · cases h
        · split at h
          · cases h
          · obtain ⟨data, hdata, h⟩ := bind_eq_ok.mp h
            obtain ⟨p, hp, h⟩ := bind_eq_ok.mp h
            cases h
            refine ⟨fixedHeader, tail, packetType, remainingLen, lenBytes, data, rfl, okOr_eq_ok.mp htype, hr, rfl,
              ?_, ?_, ?_, hdata, hp⟩ <;> omega
    · intro h
      obtain ⟨b, rest, packetType, remainingLen, lenBytes, data, heq, htype, hr, rfl, hmax, hlen, htwo, hs, hp⟩ := h
      obtain ⟨rfl, rfl⟩ := List.cons.inj heq
      have h₁ : ¬ (fixedHeader :: tail).length < 2 := by omega
      have h₂ : ¬ 1 + lenBytes + remainingLen > maxPacketSize := by omega
      have h₃ : ¬ (fixedHeader :: tail).length < 1 + lenBytes + remainingLen := by omega
      simp only [decodeFrame, htype, okOr, ok_bind, h₁, h₂, h₃, if_false, hr, hs, hp]
      rfl

theorem decodeRemainingLoop_append {buf : Bytes} (rest : Bytes) : ∀ {i value multiplier : ℕ} {result : ℕ × ℕ},
    decodeRemainingLoop buf i value multiplier = .ok result →
      decodeRemainingLoop (buf ++ rest) i value multiplier = .ok result := by
  induction buf with
  | nil =>
    intro i value multiplier result h
    cases h
  | cons byte buf ih =>
    intro i value multiplier result h
    simp only [decodeRemainingLoop, List.cons_append] at h ⊢
    by_cases hi : i + 1 > MAX_REMAINING_LENGTH_BYTES
    · rw [if_pos hi] at h
      cases h
    · rw [if_neg hi] at h ⊢
      by_cases hstop : byte &&& 0x80 = 0
      · rw [if_pos hstop] at h ⊢
        exact h
      · rw [if_neg hstop] at h ⊢
        exact ih h

theorem decodeRemainingLength_append {buf : Bytes} {result : ℕ × ℕ} (h : decodeRemainingLength buf = .ok result)
    (rest : Bytes) : decodeRemainingLength (buf ++ rest) = .ok result := decodeRemainingLoop_append rest h

theorem decodeRemainingLoop_used {buf : Bytes} : ∀ {i value multiplier length consumed : ℕ},
    decodeRemainingLoop buf i value multiplier = .ok (length, consumed) → ∃ used rest, buf = used ++ rest ∧
      consumed = i + used.length ∧ decodeRemainingLoop used i value multiplier = .ok (length, consumed) := by
  induction buf with
  | nil =>
    intro i value multiplier length consumed h
    cases h
  | cons byte buf ih =>
    intro i value multiplier length consumed h
    simp only [decodeRemainingLoop] at h
    split at h
    · cases h
    · rename_i hi
      split at h
      · rename_i hstop
        cases h
        refine ⟨[byte], buf, rfl, rfl, ?_⟩
        simp only [decodeRemainingLoop, hi, if_false, hstop, if_true]
      · rename_i hmore
        obtain ⟨used, rest, rfl, hconsumed, hused⟩ := ih h
        refine ⟨byte :: used, rest, rfl, ?_, ?_⟩
        · rw [List.length_cons]
          omega
        · simp only [decodeRemainingLoop, hi, if_false, hmore]
          exact hused

theorem decodeRemainingLength_error {buf : Bytes} {e : Fault} (h : decodeRemainingLength buf = .error e) :
    e = .mqtt .MalformedRemainingLength := by
  suffices hloop : ∀ (buf : Bytes) (i value multiplier : ℕ), decodeRemainingLoop buf i value multiplier = .error e →
      e = .mqtt .MalformedRemainingLength from hloop buf 0 0 1 h
  intro buf
  induction buf with
  | nil =>
    intro i value multiplier h
    cases h
    rfl
  | cons byte buf ih =>
    intro i value multiplier h
    simp only [decodeRemainingLoop] at h
    split at h
    · cases h
      rfl
    · split at h
      · cases h
      · exact ih _ _ _ h

theorem decodeRemainingLoop_pos {buf : Bytes} : ∀ {i value multiplier length consumed : ℕ},
    decodeRemainingLoop buf i value multiplier = .ok (length, consumed) → i < consumed := by
  induction buf with
  | nil =>
    intro i value multiplier length consumed h
    cases h
  | cons byte buf ih =>
    intro i value multiplier length consumed h
    simp only [decodeRemainingLoop] at h
    split at h
    · cases h
    · split at h
      · cases h
        omega
      · have := ih h
        omega

theorem slice_eq_ok_iff {data : Bytes} {i j : ℕ} {part : Bytes} :
    slice data i j = .ok part ↔ i ≤ j ∧ j ≤ data.length ∧ part = (data.take j).drop i := by
  unfold slice
  split
  · rename_i h
    simp only [Except.ok.injEq, h, true_and]
    exact eq_comm
  · rename_i h
    constructor
    · intro h'
      cases h'
    · intro h'
      exact absurd ⟨h'.1, h'.2.1⟩ h

theorem slice_append_right {data : Bytes} {i j : ℕ} {part : Bytes} (h : slice data i j = .ok part) (rest : Bytes) :
    slice (data ++ rest) i j = .ok part := by
  obtain ⟨hij, hj, rfl⟩ := slice_eq_ok_iff.mp h
  rw [slice_eq_ok_iff, List.take_append_of_le_length hj, List.length_append]
  exact ⟨hij, by omega, rfl⟩

theorem decodeFrame_append {α : Type} {maxPacketSize : ℕ} {body : PacketType → Bytes → UInt8 → MqttResult α}
    {src : Bytes} {packet : α} {size : ℕ} (h : decodeFrame maxPacketSize body src = .ok (some (packet, size)))
    (rest : Bytes) : decodeFrame maxPacketSize body (src ++ rest) = .ok (some (packet, size)) := by
  obtain ⟨fixedHeader, tail, packetType, remainingLen, lenBytes, data, rfl, htype, hr, hsize, hmax, hlen, htwo, hs, hp⟩ :=
    decodeFrame_eq_some_iff.mp h
  apply decodeFrame_eq_some_iff.mpr
  refine ⟨fixedHeader, tail ++ rest, packetType, remainingLen, lenBytes, data, rfl, htype,
    decodeRemainingLength_append hr rest, hsize, hmax, ?_, ?_, slice_append_right hs rest, hp⟩
  · rw [List.length_append]
    omega
  · rw [List.length_append]
    omega

end AtomMqtt
