import AtomMqtt.FramedLosses
import AtomMqtt.PropertyBounds

set_option autoImplicit false

/-! The variable-length integer. What the encoder writes is the shortest sequence that the decoder reads as that
number, and what the decoder gives back is always a number of at most four groups of seven bits. -/
namespace AtomMqtt

theorem encodeRemainingLength_length_le_consumed {buf : Bytes} {length consumed : ℕ}
    (h : decodeRemainingLength buf = .ok (length, consumed)) : (encodeRemainingLength length).length ≤ consumed := by
  have hpos := (decodeRemainingLength_bounds h).1
  have hlt := decodeRemainingLoop_lt Nat.zero_lt_one h
  rw [Nat.one_mul, Nat.sub_zero] at hlt
  obtain ⟨k, rfl⟩ := Nat.exists_eq_add_of_le' hpos
  exact encodeRemainingLength_length_le_iff.mpr hlt

theorem decodeRemainingLength_encode_large {n : ℕ} (h : 2 ^ 28 ≤ n) (rest : Bytes) :
    decodeRemainingLength (encodeRemainingLength n ++ rest) = err .MalformedRemainingLength := by
  obtain ⟨inner, last, heq, hinner, -⟩ := encodeRemainingLength_bits n
  have hlong : ¬ (encodeRemainingLength n).length ≤ 3 + 1 := by
    rw [encodeRemainingLength_length_le_iff]
    exact Nat.not_lt.mpr h
  rw [heq, List.length_append, List.length_singleton] at hlong
  have hfour : MAX_REMAINING_LENGTH_BYTES ≤ inner.length := by
    change 4 ≤ inner.length
    omega
  refine (decodeRemainingLoop_error_iff (Nat.zero_le _)).mpr ?_
  intro byte hbyte
  rw [heq, List.append_assoc, Nat.sub_zero, List.take_append_of_le_length hfour] at hbyte
  exact hinner byte (List.mem_of_mem_take hbyte)

theorem remainingLength_exact :
    (∀ n < 2 ^ 28, 1 ≤ (encodeRemainingLength n).length ∧ (encodeRemainingLength n).length ≤ 4 ∧
      (∀ (bytes : Bytes) (consumed : ℕ), bytes.length < (encodeRemainingLength n).length →
        decodeRemainingLength bytes ≠ .ok (n, consumed)) ∧
      ∀ r, decodeRemainingLength (encodeRemainingLength n ++ r) = .ok (n, (encodeRemainingLength n).length)) ∧
    (∀ n, 2 ^ 28 ≤ n → ∀ r, decodeRemainingLength (encodeRemainingLength n ++ r) = err .MalformedRemainingLength) ∧
    ∀ b v k, decodeRemainingLength b = .ok (v, k) →
      v < 2 ^ 28 ∧ 1 ≤ k ∧ k ≤ 4 ∧ k ≤ b.length ∧ (encodeRemainingLength v).length ≤ k := by
  refine ⟨?_, fun n hn r => decodeRemainingLength_encode_large hn r, ?_⟩
  · intro n hn
    refine ⟨encodeRemainingLength_pos n, (encodeRemainingLength_length_le_iff (k := 3)).mpr hn, ?_,
      decodeRemainingLength_encode hn⟩
    intro bytes consumed hshort h
    have hleast := encodeRemainingLength_length_le_consumed h
    have hconsumed := (decodeRemainingLength_bounds h).2
    omega
  · intro b v k h
    obtain ⟨hpos, hlen⟩ := decodeRemainingLength_bounds h
    exact ⟨decodeRemainingLength_lt h, hpos, decodeRemainingLoop_le h, hlen, encodeRemainingLength_length_le_consumed h⟩

end AtomMqtt
