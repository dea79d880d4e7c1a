import AtomMqtt.DecoderBounds
import AtomMqtt.V5RoundTrip
import AtomMqtt.Library.Chunks

set_option autoImplicit false

/-! Properties and the length that they declare. Which bytes a property is decoded from, and when the decoder of
the properties keeps to the length in front of them: the integers and the binary data are checked against its
end, the strings and the variable byte integer against the end of the data only. -/
namespace AtomMqtt
open Scanning

theorem asBytes_of_fromUtf8 {bytes : Bytes} {s : String} (h : fromUtf8 bytes = some s) : asBytes s = bytes := by
  unfold fromUtf8 String.fromUTF8? at h
  split at h
  · cases h
    rfl
  · cases h

theorem length16_inverse (hi lo : UInt8) :
    UInt8.ofNat ((hi.toNat <<< 8 ||| lo.toNat) >>> 8) = hi ∧ UInt8.ofNat ((hi.toNat <<< 8 ||| lo.toNat) &&& 0xFF) = lo ∧
      hi.toNat <<< 8 ||| lo.toNat ≤ 65535 := by
  have hhi := hi.toNat_lt
  have hlo := lo.toNat_lt
  have hsum : hi.toNat <<< 8 ||| lo.toNat = hi.toNat * 256 + lo.toNat := by
    rw [← Nat.shiftLeft_add_eq_or_of_lt (by omega), Nat.shiftLeft_eq]
  rw [hsum, Nat.shiftRight_eq_div_pow, Nat.and_two_pow_sub_one_eq_mod _ 8]
  refine ⟨?_, ?_, by omega⟩
  · apply UInt8.toNat_inj.mp
    rw [UInt8.toNat_ofNat']
    omega
  · apply UInt8.toNat_inj.mp
    rw [UInt8.toNat_ofNat']
    omega

theorem decodeString_takes {data : Bytes} {s : String} {n : ℕ} (h : decodeString data = .ok (s, n)) :
    ∃ c rest, data = c ++ rest ∧ n = c.length ∧ c = encodeString s ∧ Fits s := by
  match data with
  | [] => cases h
  | [_] => cases h
  | hi :: lo :: tail =>
    obtain ⟨hhi, hlo, hmax⟩ := length16_inverse hi lo
    simp only [decodeString] at h
    split at h
    · cases h
    · rename_i hlen
      obtain ⟨bytes, hslice, h⟩ := bind_eq_ok.mp h
      obtain ⟨s', hutf, h⟩ := bind_eq_ok.mp h
      cases h
      obtain ⟨_, hle, rfl⟩ := slice_eq_ok_iff.mp hslice
      have hbytes := asBytes_of_fromUtf8 (okOr_eq_ok.mp hutf)
      generalize hi.toNat <<< 8 ||| lo.toNat = len at *
      have htail : ((hi :: lo :: tail).take (2 + len)).drop 2 = tail.take len := by
        rw [Nat.add_comm]
        rfl
      rw [htail] at hbytes
      have hcount : (asBytes s).length = len := by
        rw [hbytes, List.length_take]
        simp only [List.length_cons] at hlen
        omega
      have hencode : encodeString s = hi :: lo :: tail.take len := by
        rw [encodeString, hcount, hhi, hlo, hbytes]
      refine ⟨encodeString s, tail.drop len, ?_, ?_, rfl, ?_⟩
      · rw [hencode]
        simp
      · rw [encodeString_length, hcount]
      · exact hcount.trans_le hmax

theorem decodeRemainingLength_takes {data : Bytes} {v n : ℕ} (h : decodeRemainingLength data = .ok (v, n)) :
    ∃ c rest, data = c ++ rest ∧ n = c.length ∧ Decodes decodeRemainingLength c v := by
  obtain ⟨used, rest, hdata, hn, hused⟩ := decodeRemainingLoop_used h
  rw [Nat.zero_add] at hn
  refine ⟨used, rest, hdata, hn, ?_⟩
  intro rest'
  rw [← hn]
  exact decodeRemainingLoop_append rest' hused

/-- Each byte that is read carries seven bits. Induction on the bytes, the ones read so far in the multiplier. -/
theorem decodeRemainingLoop_lt {buf : Bytes} : ∀ {i value multiplier length consumed : ℕ},
    value < multiplier → decodeRemainingLoop buf i value multiplier = .ok (length, consumed) →
      length < multiplier * 128 ^ (consumed - i) := by
  induction buf with
  | nil =>
    intro i value multiplier length consumed _ h
    cases h
  | cons byte buf ih =>
    intro i value multiplier length consumed hvalue h
    have hlow : byte.toNat &&& 0x7F < 128 := Nat.and_lt_two_pow _ (by decide : 0x7F < 2 ^ 7)
    have hnext : value + (byte.toNat &&& 0x7F) * multiplier < multiplier * 128 := by
      calc
        _ < multiplier + (byte.toNat &&& 0x7F) * multiplier := Nat.add_lt_add_right hvalue _
        _ = ((byte.toNat &&& 0x7F) + 1) * multiplier := by ring
        _ ≤ 128 * multiplier := Nat.mul_le_mul_right multiplier hlow
        _ = multiplier * 128 := Nat.mul_comm 128 multiplier
    have hpos := decodeRemainingLoop_pos h
    have hpow : multiplier * 128 ^ (consumed - i) = multiplier * 128 * 128 ^ (consumed - (i + 1)) := by
      rw [show consumed - i = consumed - (i + 1) + 1 by omega, Nat.pow_succ]
      ring
    rw [hpow]
    simp only [decodeRemainingLoop] at h
    split at h
    · cases h
    · split at h
      · cases h
        exact hnext.trans_le (Nat.le_mul_of_pos_right _ (Nat.pow_pos (by decide)))
      · exact ih hnext h

theorem decodeRemainingLoop_le {buf : Bytes} : ∀ {i value multiplier length consumed : ℕ},
    decodeRemainingLoop buf i value multiplier = .ok (length, consumed) → consumed ≤ MAX_REMAINING_LENGTH_BYTES := by
  induction buf with
  | nil =>
    intro i value multiplier length consumed h
    cases h
  | cons byte buf ih =>
    intro i value multiplier length consumed h
    simp only [decodeRemainingLoop] at h
    split at h
    · cases h
    · rename_i hmax
      split at h
      · cases h
        exact Nat.le_of_not_gt hmax
      · exact ih h

theorem decodeRemainingLength_lt {data : Bytes} {v n : ℕ} (h : decodeRemainingLength data = .ok (v, n)) : v < 2 ^ 28 := by
  have hv := decodeRemainingLoop_lt Nat.zero_lt_one h
  have hn : n ≤ 4 := decodeRemainingLoop_le h
  calc
    v < 128 ^ n := by simpa using hv
    _ ≤ 128 ^ 4 := Nat.pow_le_pow_right (by decide) hn

theorem takes_string : Takes Scan.string fun _ c s => c = encodeString s ∧ Fits s :=
  takes_onRest _ decodeString_takes

theorem takes_u16 : Takes Scan.u16 fun _ c v => c = u16ToBeBytes v := by
  refine ((takes_next _).bind fun hi => (takes_next _).bind fun lo => takes_pure _).mono ?_
  rintro _ c v ⟨_, _, hi, rfl, rfl, _, _, lo, rfl, rfl, rfl, rfl⟩
  have hhi := hi.toNat_lt
  have hlo := lo.toNat_lt
  have hvalue : (u16FromBeBytes hi lo).toNat = hi.toNat * 256 + lo.toNat := by
    rw [u16FromBeBytes, UInt16.toNat_ofNat']
    omega
  have hfirst : UInt8.ofNat ((hi.toNat * 256 + lo.toNat) / 256) = hi := by
    apply UInt8.toNat_inj.mp
    rw [UInt8.toNat_ofNat']
    omega
  have hsecond : UInt8.ofNat (hi.toNat * 256 + lo.toNat) = lo := by
    apply UInt8.toNat_inj.mp
    rw [UInt8.toNat_ofNat']
    omega
  rw [u16ToBeBytes, hvalue, hfirst, hsecond]
  rfl

theorem takes_length16 : Takes Scan.length16 fun _ c n => n ≤ 65535 ∧ c = u16ToBeBytes (UInt16.ofNat n) := by
  refine ((takes_next _).bind fun hi => (takes_next _).bind fun lo => takes_pure _).mono ?_
  rintro _ c n ⟨_, _, hi, rfl, rfl, _, _, lo, rfl, rfl, rfl, rfl⟩
  obtain ⟨hhi, hlo, hmax⟩ := length16_inverse hi lo
  refine ⟨hmax, ?_⟩
  generalize hi.toNat <<< 8 ||| lo.toNat = n at *
  have hvalue : (UInt16.ofNat n).toNat = n := by
    rw [UInt16.toNat_ofNat']
    omega
  have hlow : UInt8.ofNat n = UInt8.ofNat (n &&& 0xFF) := by
    rw [Nat.and_two_pow_sub_one_eq_mod _ 8]
    apply UInt8.toNat_inj.mp
    simp
  rw [u16ToBeBytes, hvalue, hlow, hlo, ← Nat.shiftRight_eq_div_pow _ 8, hhi]
  rfl

namespace V5

theorem takes_scanU32 : Takes scanU32 fun _ c v => c = u32ToBeBytes v := by
  refine ((takes_next _).bind fun a => (takes_next _).bind fun b => (takes_next _).bind fun c =>
    (takes_next _).bind fun d => takes_pure _).mono ?_
  rintro _ _ v ⟨_, _, a, rfl, rfl, _, _, b, rfl, rfl, _, _, c, rfl, rfl, _, _, d, rfl, rfl, rfl, rfl⟩
  have ha := a.toNat_lt
  have hb := b.toNat_lt
  have hc := c.toNat_lt
  have hd := d.toNat_lt
  have hvalue : (u32FromBeBytes a b c d).toNat =
      a.toNat * 16777216 + b.toNat * 65536 + c.toNat * 256 + d.toNat := by
    rw [u32FromBeBytes, UInt32.toNat_ofNat']
    omega
  rw [u32ToBeBytes, hvalue]
  simp only [List.cons_append, List.nil_append, List.cons.injEq, and_true]
  refine ⟨?_, ?_, ?_, ?_⟩ <;> apply UInt8.toNat_inj.mp <;> rw [UInt8.toNat_ofNat'] <;> omega

theorem PropertyId.toU8_of_fromU8 {b : UInt8} {id : PropertyId} (h : PropertyId.fromU8 b = some id) : b = id.toU8 := by
  unfold PropertyId.fromU8 at h
  split at h <;> first | (cases h; exact UInt8.toNat_inj.mp ‹_›) | cases h

/-- The bytes that a value is decoded from: its encoding, or for the variable byte integer any of those that
    stand for it. -/
inductive ValueBytes : Bytes → PropertyValue → Prop
  | encoded {v : PropertyValue} (hshape : v.shape ≠ .VariableByteInteger) (hrange : v.InRange) :
    ValueBytes (encodeValue v) v
  | varint {c : Bytes} {v : ℕ} (h : Decodes decodeRemainingLength c v) :
    ValueBytes c (.VariableByteInteger (UInt32.ofNat v))

structure PropertyBytes (c : Bytes) (e : PropertyId × PropertyValue) : Prop where
  shape : e.2.shape = e.1.shape
  bytes : ∃ value, c = e.1.toU8 :: value ∧ ValueBytes value e.2

/-- The shapes that the decoder does not check against the end of the properties. -/
def Unchecked (e : PropertyId × PropertyValue) : Prop :=
  e.1.shape = .VariableByteInteger ∨ e.1.shape = .UTF8String ∨ e.1.shape = .Pair

theorem takes_scanValue (stop : ℕ) (id : PropertyId) : Takes (scanValue stop id.shape) fun pos c v =>
    v.shape = id.shape ∧ ValueBytes c v ∧ (Unchecked (id, v) ∨ pos + c.length ≤ stop) := by
  unfold Unchecked
  cases hid : id.shape with
  | Byte =>
    refine ((takes_within _ _ _).bind fun _ => (takes_next _).bind fun v => takes_pure _).mono ?_
    rintro pos _ _ ⟨_, _, _, rfl, ⟨rfl, hstop⟩, _, _, v, rfl, rfl, rfl, rfl⟩
    exact ⟨rfl, .encoded (v := .Byte v) nofun trivial, .inr hstop⟩
  | TwoByteInteger =>
    refine ((takes_within _ _ _).bind fun _ => takes_u16.bind fun v => takes_pure _).mono ?_
    rintro pos _ _ ⟨_, _, _, rfl, ⟨rfl, hstop⟩, _, _, v, rfl, rfl, rfl, rfl⟩
    rw [List.nil_append, List.append_nil]
    exact ⟨rfl, .encoded (v := .TwoByteInteger v) nofun trivial, .inr hstop⟩
  | FourByteInteger =>
    refine ((takes_within _ _ _).bind fun _ => takes_scanU32.bind fun v => takes_pure _).mono ?_
    rintro pos _ _ ⟨_, _, _, rfl, ⟨rfl, hstop⟩, _, _, v, rfl, rfl, rfl, rfl⟩
    rw [List.nil_append, List.append_nil]
    exact ⟨rfl, .encoded (v := .FourByteInteger v) nofun trivial, .inr hstop⟩
  | VariableByteInteger =>
    refine ((takes_onRest _ decodeRemainingLength_takes).bind fun v => takes_pure _).mono ?_
    rintro pos _ _ ⟨c, _, v, rfl, hv, rfl, rfl⟩
    rw [List.append_nil]
    exact ⟨rfl, .varint hv, .inl (.inl hid)⟩
  | BinaryData =>
    refine ((takes_within _ _ _).bind fun _ => takes_length16.bind fun n => (takes_within _ _ _).bind fun _ =>
      (takes_takeN _ n).bind fun v => takes_pure _).mono ?_
    rintro pos _ _ ⟨_, _, _, rfl, ⟨rfl, _⟩, _, _, n, rfl, ⟨hn, rfl⟩, _, _, _, rfl, ⟨rfl, hstop⟩, _, _, v, rfl,
      ⟨rfl, rfl⟩, rfl, rfl⟩
    rw [List.nil_append, List.nil_append, List.append_nil, List.length_append]
    exact ⟨rfl, .encoded (v := .BinaryData v) nofun hn, .inr ((Nat.add_assoc _ _ _) ▸ hstop)⟩
  | UTF8String =>
    refine (takes_string.bind fun s => takes_pure _).mono ?_
    rintro pos _ _ ⟨_, _, s, rfl, ⟨rfl, hs⟩, rfl, rfl⟩
    rw [List.append_nil]
    exact ⟨rfl, .encoded (v := .UTF8String s) nofun hs, .inl (.inr (.inl hid))⟩
  | Pair =>
    refine (takes_string.bind fun key => takes_string.bind fun value => takes_pure _).mono ?_
    rintro pos _ _ ⟨_, _, key, rfl, ⟨rfl, hkey⟩, _, _, value, rfl, ⟨rfl, hvalue⟩, rfl, rfl⟩
    rw [List.append_nil]
    exact ⟨rfl, .encoded (v := .Pair key value) nofun ⟨hkey, hvalue⟩, .inl (.inr (.inr hid))⟩

theorem takes_okOr {α : Type} (opt : Option α) (e : MqttError) :
    Takes (Scan.okOr opt e) fun _ c x => c = [] ∧ opt = some x := by
  cases opt with
  | none => exact takes_error _ _
  | some x =>
    refine (takes_pure x).mono ?_
    rintro _ _ _ ⟨rfl, rfl⟩
    exact ⟨rfl, rfl⟩

theorem takes_scanProperty (stop : ℕ) :
    Takes (scanProperty stop) fun pos c e => PropertyBytes c e ∧ (Unchecked e ∨ pos + c.length ≤ stop) := by
  refine ((takes_next _).bind fun b => (takes_okOr _ _).bind fun id => (takes_scanValue stop id).bind fun v =>
    takes_pure _).mono ?_
  rintro pos _ _ ⟨_, _, b, rfl, rfl, _, _, id, rfl, ⟨rfl, hid⟩, c, _, v, rfl, ⟨hshape, hbytes, hstop⟩, rfl, rfl⟩
  rw [PropertyId.toU8_of_fromU8 hid, List.nil_append, List.append_nil]
  refine ⟨⟨hshape, c, rfl, hbytes⟩, hstop.imp_right ?_⟩
  intro hend
  simp only [List.length_append, List.length_cons, List.length_nil] at hend ⊢
  omega

theorem readsAt_scanValue_bytes {v : PropertyValue} {c pre rest : Bytes} {stop : ℕ} (h : ValueBytes c v)
    (hstop : (v.shape = .VariableByteInteger ∨ v.shape = .UTF8String ∨ v.shape = .Pair) ∨ pre.length + c.length ≤ stop) :
    ReadsAt (scanValue stop v.shape) pre c rest v := by
  cases h with
  | @varint c n hn =>
    refine (hn.reads _).bindPure ?_ pre rest
    rfl
  | encoded hshape hrange =>
    cases hstop with
    | inr hend => exact readsAt_scanValue hrange hend
    | inl hunchecked =>
      cases v with
      | UTF8String s =>
        refine (Scan.reads_string hrange).bindPure ?_ pre rest
        rfl
      | Pair key value =>
        refine (Scan.reads_string hrange.1 pre _).bind ?_
        refine (Scan.reads_string hrange.2 _ rest).bindPure ?_
        rfl
      | VariableByteInteger v => exact absurd rfl hshape
      | _ => simp [PropertyValue.shape] at hunchecked

theorem readsAt_scanProperty_bytes {e : PropertyId × PropertyValue} {c pre rest : Bytes} {stop : ℕ}
    (h : PropertyBytes c e) (hstop : Unchecked e ∨ pre.length + c.length ≤ stop) :
    ReadsAt (scanProperty stop) pre c rest e := by
  obtain ⟨id, v⟩ := e
  obtain ⟨hshape, value, rfl, hvalue⟩ := h
  refine ((Scan.reads_next id.toU8) pre _).bind (e := value) ?_
  have hread : ReadsAt (scanValue stop v.shape) (pre ++ [id.toU8]) value rest v := by
    apply readsAt_scanValue_bytes hvalue
    rw [List.length_append, List.length_singleton, Nat.add_assoc, Nat.add_comm 1, ← List.length_cons]
    rw [Unchecked, ← hshape] at hstop
    exact hstop
  simp only [PropertyId.fromU8_toU8, Scan.okOr, pure_bind]
  rw [← hshape]
  exact hread.bindPure rfl

theorem chunked_scanProperty (stop : ℕ) : Chunked (scanProperty stop) PropertyBytes Unchecked stop where
  pos := by
    rintro c e ⟨_, value, rfl, _⟩
    exact Nat.succ_pos _
  reads := readsAt_scanProperty_bytes
  takes := takes_scanProperty stop

/-- A length field, and properties after it of which one begins before the declared end and ends after it. The
    decoder does not look at the end for that one, a string, a pair or a variable byte integer. -/
def Overrun (d : Bytes) : Prop :=
  ∃ header declared body init last, d = header ++ body ∧ Decodes decodeRemainingLength header declared ∧
    declared ≤ body.length ∧ Overruns PropertyBytes Unchecked body declared init last

/-- What is decoded with a length depends on the bytes up to that length alone. -/
def Local (d : Bytes) : Prop :=
  ∀ props n, Properties.decode d = .ok (props, n) →
    n ≤ d.length ∧ ∀ e, Properties.decode (d.take n ++ e) = .ok (props, n)

section
variable {header body : Bytes} {declared : ℕ}

theorem decode_header (h : Decodes decodeRemainingLength header declared) (body : Bytes) (hsome : header ≠ []) :
    Properties.decode (header ++ body) =
      if declared = 0 then .ok (Properties.new, header.length)
      else if body.length < declared then err (.InvalidPacket "Properties data truncated")
      else (whileBefore Fault.stuck (scanProperty (header.length + declared)) (header.length + declared) declared
        (header ++ body) header.length).map fun r => ({ inner := r.1 }, header.length + declared) := by
  have hne : (header ++ body).isEmpty = false :=
    List.isEmpty_eq_false_iff.mpr (List.append_ne_nil_of_left_ne_nil hsome body)
  have hshort : (header ++ body).length < header.length + declared ↔ body.length < declared := by
    rw [List.length_append, Nat.add_lt_add_iff_left]
  simp only [Properties.decode, hne, Bool.false_eq_true, if_false, h body, ok_bind, hshort]
  cases whileBefore Fault.stuck (scanProperty (header.length + declared)) (header.length + declared) declared
    (header ++ body) header.length <;> rfl

theorem header_ne_nil (h : Decodes decodeRemainingLength header declared) : header ≠ [] := by
  rintro rfl
  cases h []

theorem not_local_of_overrun {d : Bytes} (h : Overrun d) : ¬ Local d := by
  obtain ⟨header, declared, body, init, last, rfl, hheader, hlen, hover⟩ := h
  have hsome := header_ne_nil hheader
  have hpos : declared ≠ 0 := fun hzero => by
    have := hover.begins
    omega
  obtain ⟨⟨xs, q, hread⟩, e, hcut⟩ := (chunked_scanProperty _).section_over Fault.stuck hover (Nat.le_refl declared)
  intro hlocal
  have hdecode : Properties.decode (header ++ body) = .ok ({ inner := xs }, header.length + declared) := by
    rw [decode_header hheader body hsome, if_neg hpos, if_neg (by omega), hread]
    rfl
  have htake : (header ++ body).take (header.length + declared) ++ [] = header ++ body.take declared := by
    rw [List.append_nil, List.take_length_add_append]
  have hpart := (hlocal _ _ hdecode).2 []
  have htaken : ¬ (body.take declared).length < declared := by
    rw [List.length_take]
    omega
  rw [htake, decode_header hheader _ hsome, if_neg hpos, if_neg htaken, hcut] at hpart
  cases hpart

theorem local_of_within {d : Bytes} (hsome : d ≠ []) (h : ¬ Overrun d) : Local d := by
  intro props n hdecode
  refine ⟨(properties_bounds hdecode).2, ?_⟩
  intro e
  cases hlength : decodeRemainingLength d with
  | error err =>
    have hne : d.isEmpty = false := List.isEmpty_eq_false_iff.mpr hsome
    simp [Properties.decode, hne, hlength] at hdecode
  | ok result =>
    obtain ⟨declared, consumed⟩ := result
    obtain ⟨header, body, rfl, -, hheader⟩ := decodeRemainingLength_takes hlength
    have hne := header_ne_nil hheader
    rw [decode_header hheader body hne] at hdecode
    split_ifs at hdecode with hzero hshort
    · cases hdecode
      rw [List.take_left, decode_header hheader e hne, if_pos hzero]
    · cases hdecode
    · cases hloop : whileBefore Fault.stuck (scanProperty (header.length + declared)) (header.length + declared) declared
        (header ++ body) header.length with
      | error err =>
        rw [hloop] at hdecode
        cases hdecode
      | ok result =>
        rw [hloop] at hdecode
        cases hdecode
        have hnone : ∀ init last, ¬ Overruns PropertyBytes Unchecked body declared init last :=
          fun init last hover => h ⟨header, declared, body, init, last, rfl, hheader, Nat.le_of_not_lt hshort, hover⟩
        have hsame := (chunked_scanProperty _).section_local Fault.stuck hnone (Nat.le_refl declared) hloop e
        have htaken : ¬ (body.take declared ++ e).length < declared := by
          rw [List.length_append, List.length_take]
          omega
        rw [List.take_length_add_append, List.append_assoc, decode_header hheader _ hne, if_neg hzero, if_neg htaken,
          hsame]
        rfl

end

/-- The properties are decoded from the bytes of their declared length alone exactly if there is a length, and no
    string, pair or variable byte integer begins before the end that it declares and ends after it. -/
theorem properties_local_iff (d : Bytes) : Local d ↔ d ≠ [] ∧ ¬ Overrun d := by
  constructor
  · intro hlocal
    refine ⟨?_, fun hover => not_local_of_overrun hover hlocal⟩
    rintro rfl
    have hempty : Properties.decode [0] = .ok (Properties.new, 0) := (hlocal Properties.new 0 rfl).2 [0]
    have hzero : Properties.decode [0] = .ok (Properties.new, 1) := by decide
    rw [hzero] at hempty
    cases hempty
  · rintro ⟨hsome, hwithin⟩
    exact local_of_within hsome hwithin

/-- One byte of properties, the id of a reason string, and the string "ab" behind it: the string is taken for a
    property, and its bytes are those of the field that follows as well. -/
theorem properties_overrun :
    Properties.decode [1, 31, 0, 2, 0x61, 0x62] = .ok ({ inner := [(.ReasonString, .UTF8String "ab")] }, 2) ∧
      Properties.decode ([1, 31, 0, 2, 0x61, 0x62].take 2) ≠ .ok ({ inner := [(.ReasonString, .UTF8String "ab")] }, 2) := by
  decide +kernel

end V5

end AtomMqtt
