import AtomMqtt.PacketLoop
import AtomMqtt.V3RoundTrip
import AtomMqtt.V5RoundTrip

set_option autoImplicit false

/-! Packets that have not arrived completely. A part of a packet is no packet: both decoders ask for more,
unless the part ends inside the remaining length, which then looks malformed to them. -/
namespace AtomMqtt
open Framing Programs

/-- The bytes end inside the remaining length: every one of its bytes so far announces another. -/
def InLength (received : Bytes) : Prop := 2 ≤ received.length ∧ ∀ byte ∈ received.tail, byte &&& 0x80 ≠ 0

instance (received : Bytes) : Decidable (InLength received) := inferInstanceAs (Decidable (_ ∧ _))

theorem encodeRemainingLength_bits (n : ℕ) : ∃ inner last, encodeRemainingLength n = inner ++ [last] ∧
    (∀ byte ∈ inner, byte &&& 0x80 ≠ 0) ∧ last &&& 0x80 = 0 := by
  induction n using Nat.strong_induction_on with
  | _ n ih =>
    rcases Nat.lt_or_ge n 128 with h | h
    · exact ⟨[], UInt8.ofNat n, encodeRemainingLength_small h, List.forall_mem_nil _, (lastByte_bits n h).1⟩
    · obtain ⟨inner, last, heq, hinner, hlast⟩ := ih (n / 128) (by omega)
      refine ⟨UInt8.ofNat (n % 128 + 128) :: inner, last, ?_, ?_, hlast⟩
      · rw [encodeRemainingLength_large h, heq, List.cons_append]
      · have hbyte := (innerByte_bits (n % 128) (Nat.mod_lt n (by decide))).2.1
        exact List.forall_mem_cons.mpr ⟨hbyte, hinner⟩

theorem decodeRemainingLoop_open {buf : Bytes} (h : ∀ byte ∈ buf, byte &&& 0x80 ≠ 0) : ∀ i value multiplier,
    decodeRemainingLoop buf i value multiplier = err .MalformedRemainingLength := by
  induction buf with
  | nil =>
    intro i value multiplier
    rfl
  | cons byte buf ih =>
    intro i value multiplier
    obtain ⟨hbyte, hrest⟩ := List.forall_mem_cons.mp h
    simp only [decodeRemainingLoop, hbyte, if_false]
    split
    · rfl
    · exact ih hrest _ _ _

theorem inLength_length_iff {fixedByte : UInt8} {remaining received missing : Bytes}
    (h : frame fixedByte remaining = received ++ missing) : InLength received ↔
      2 ≤ received.length ∧ received.length < 1 + (encodeRemainingLength remaining.length).length := by
  obtain ⟨inner, last, heq, hinner, hlast⟩ := encodeRemainingLength_bits remaining.length
  cases received with
  | nil => simp [InLength]
  | cons first received =>
    have htail : inner ++ (last :: remaining) = received ++ missing := by
      rw [frame, heq, List.append_assoc] at h
      exact (List.cons.inj h).2
    have hlen : (encodeRemainingLength remaining.length).length = inner.length + 1 := by
      rw [heq, List.length_append, List.length_singleton]
    rw [InLength, List.tail_cons, List.length_cons, hlen]
    apply and_congr_right
    intro _
    constructor
    · intro hopen
      by_contra hlong
      have hwhole : inner ++ [last] <+: received ++ missing := by
        rw [← htail]
        exact ⟨remaining, by simp⟩
      have hpart : inner ++ [last] <+: received := by
        apply List.prefix_of_prefix_length_le hwhole (List.prefix_append received missing)
        rw [List.length_append, List.length_singleton]
        omega
      have hmem : last ∈ received := hpart.subset (by simp)
      exact hopen last hmem hlast
    · intro hshort byte hbyte
      have hwhole : inner <+: received ++ missing := by
        rw [← htail]
        exact List.prefix_append inner _
      have hpart : received <+: inner := by
        apply List.prefix_of_prefix_length_le (List.prefix_append received missing) hwhole
        omega
      exact hinner byte (hpart.subset hbyte)

theorem decodeFrame_part {α : Type} {maxPacketSize : ℕ} (body : PacketType → Bytes → UInt8 → MqttResult α)
    {fixedByte : UInt8} {packetType : PacketType} {remaining received missing : Bytes}
    (htype : PacketType.fromU8 fixedByte = some packetType) (hmax : (frame fixedByte remaining).length ≤ maxPacketSize)
    (hbound : maxPacketSize < 2 ^ 28) (h : frame fixedByte remaining = received ++ missing) (hmissing : missing ≠ []) :
    decodeFrame maxPacketSize body received =
      if InLength received then err .MalformedRemainingLength else .ok none := by
  have htotal := frame_length fixedByte remaining
  have hlt : received.length < (frame fixedByte remaining).length := by
    have hpos := List.length_pos_of_ne_nil hmissing
    rw [h, List.length_append]
    omega
  cases received with
  | nil => simp [decodeFrame, InLength]
  | cons first received =>
    have hfirst : first = fixedByte := (List.cons.inj h).1.symm
    subst hfirst
    by_cases htwo : (first :: received).length < 2
    · have hnot : ¬ InLength (first :: received) := fun hin => by
        have := hin.1
        omega
      simp only [decodeFrame, htype, okOr, ok_bind, htwo, if_true, hnot, if_false]
    · by_cases hin : InLength (first :: received)
      · have hopen := decodeRemainingLoop_open hin.2 0 0 1
        simp only [decodeFrame, htype, okOr, ok_bind, htwo, if_false, decodeRemainingLength, hin, if_true]
        rw [List.tail_cons] at hopen
        rw [hopen]
        rfl
      · have hlong : (encodeRemainingLength remaining.length).length ≤ received.length := by
          rw [inLength_length_iff h, List.length_cons] at hin
          rw [List.length_cons] at htwo
          omega
        obtain ⟨body', rfl⟩ : ∃ body', received = encodeRemainingLength remaining.length ++ body' := by
          have hwhole : encodeRemainingLength remaining.length <+: received ++ missing := by
            rw [frame] at h
            exact ⟨remaining, (List.cons.inj h).2⟩
          obtain ⟨body', hbody⟩ := List.prefix_of_prefix_length_le hwhole (List.prefix_append received missing) hlong
          exact ⟨body', hbody.symm⟩
        have hr := decodeRemainingLength_encode (show remaining.length < 2 ^ 28 by omega) body'
        have hfit : ¬ 1 + (encodeRemainingLength remaining.length).length + remaining.length > maxPacketSize := by omega
        have hall : (first :: (encodeRemainingLength remaining.length ++ body')).length <
            1 + (encodeRemainingLength remaining.length).length + remaining.length := by omega
        simp only [decodeFrame, htype, okOr, ok_bind, htwo, if_false, hr, hfit, hall, if_true, hin]

section
variable {received missing : Bytes}

theorem decodePacketV3_part {p : V3.MqttPacketV3} (hp : p.WellFormed) (henc : V3.encodePacket p = .ok (received ++ missing))
    (hmax : (received ++ missing).length ≤ 10 * 1024 * 1024) (hmissing : missing ≠ []) :
    V3.decodePacket received = if InLength received then err .MalformedRemainingLength else .ok none := by
  obtain ⟨fixedByte, packetType, remaining, hframe, htype, _⟩ := V3.encodePacket_frame hp
  have h : frame fixedByte remaining = received ++ missing := Except.ok.inj (hframe.symm.trans henc)
  rw [← h] at hmax
  exact decodeFrame_part V3.decodeBody htype hmax (by decide) h hmissing

theorem decodePacketV5_part {p : V5.MqttPacketV5} (hp : p.WellFormed) (henc : V5.encodePacket p = .ok (received ++ missing))
    (hmax : (received ++ missing).length ≤ 10 * 1024 * 1024) (hmissing : missing ≠ []) :
    V5.decodePacket received = if InLength received then err .MalformedRemainingLength else .ok none := by
  obtain ⟨fixedByte, packetType, remaining, hframe, htype, _⟩ := V5.encodePacket_frame hp
  have h : frame fixedByte remaining = received ++ missing := Except.ok.inj (hframe.symm.trans henc)
  rw [← h] at hmax
  exact decodeFrame_part V5.decodeBody htype hmax (by decide) h hmissing

theorem waits_iff {α : Type} {decoded : MqttResult (Option α)}
    (h : decoded = if InLength received then err .MalformedRemainingLength else .ok none) :
    decoded = .ok none ↔ ¬ InLength received := by
  rw [h]
  split_ifs with hin
  · simp [hin, err]
  · simp [hin]

end

def MqttPacket.WellFormed : MqttPacket → Prop
  | .V311 p => p.WellFormed
  | .V5 p => p.WellFormed

/-- What a client of this version sends as one packet, within the limit of the decoders. -/
structure Sendable (version : ProtocolVersion) (packet : MqttPacket) : Prop where
  version : packet.version = version
  wellFormed : packet.WellFormed
  length : (sentBytes packet).length ≤ 10 * 1024 * 1024

section
variable {version : ProtocolVersion} {packet : MqttPacket}

theorem decodePacketByVersion_part (h : Sendable version packet) {received missing : Bytes}
    (hpart : sentBytes packet = received ++ missing) (hmissing : missing ≠ []) :
    decodePacketByVersion received version =
      if InLength received then err .MalformedRemainingLength else .ok none := by
  obtain ⟨rfl, hp, hmax⟩ := h
  rw [hpart] at hmax
  obtain ⟨bytes, henc⟩ := encodePacket_ok packet
  have hbytes : encodePacket packet = .ok (received ++ missing) := by
    rw [sentBytes, henc] at hpart
    rw [henc, ← hpart]
    rfl
  cases received with
  | nil => simp [decodePacketByVersion, InLength]
  | cons first received =>
    cases packet with
    | V311 p =>
      change Option.map _ <$> V3.decodePacket (first :: received) = _
      rw [decodePacketV3_part hp hbytes hmax hmissing]
      split_ifs <;> rfl
    | V5 p =>
      change Option.map _ <$> V5.decodePacket (first :: received) = _
      rw [decodePacketV5_part hp hbytes hmax hmissing]
      split_ifs <;> rfl

theorem delimited (h : Sendable version packet) :
    Delimited sentBytes (fun buf => decodePacketByVersion buf version) packet where
  whole := by
    intro r
    obtain ⟨rfl, hp, hmax⟩ := h
    obtain ⟨bytes, henc⟩ := encodePacket_ok packet
    have hbytes : sentBytes packet = bytes := by
      rw [sentBytes, henc]
      rfl
    rw [hbytes] at hmax ⊢
    cases packet with
    | V311 p => exact decodePacketByVersion_v3.mpr ⟨p, rfl, V3.decodePacket_sent hp henc hmax r⟩
    | V5 p => exact decodePacketByVersion_v5.mpr ⟨p, rfl, V5.decodePacket_sent hp henc hmax r⟩
  part := by
    intro received missing hpart hmissing p n hdecode
    rw [decodePacketByVersion_part h hpart hmissing] at hdecode
    split_ifs at hdecode
    · cases hdecode
    · cases hdecode

end

section
variable {version : ProtocolVersion} {sent : List MqttPacket} {reads : List Bytes}

theorem unfinished_waits_iff (hsent : ∀ packet ∈ sent, Sendable version packet) {received more : Bytes}
    (hstream : received ++ more = sent.flatMap sentBytes) :
    decodePacketByVersion (unfinished sentBytes sent received).2 version = .ok none ↔
      ¬ InLength (unfinished sentBytes sent received).2 := by
  have hrest := unfinished_stream hstream
  have hsub : ∀ packet ∈ (unfinished sentBytes sent received).1, packet ∈ sent := unfinished_subset sent received
  have hpart : ∀ packet rest, (unfinished sentBytes sent received).1 = packet :: rest →
      (unfinished sentBytes sent received).2.length < (sentBytes packet).length := unfinished_part sent received
  generalize unfinished sentBytes sent received = left at *
  obtain ⟨rest, part⟩ := left
  cases rest with
  | nil =>
    obtain rfl : part = [] := (List.append_eq_nil_iff.mp hrest).1
    simp [decodePacketByVersion, InLength]
  | cons packet rest =>
    rcases head_cases hrest with ⟨hfit, _⟩ | ⟨_, missing, hmissing, hne⟩
    · exact absurd hfit (Nat.not_le_of_lt (hpart packet rest rfl))
    · exact waits_iff (decodePacketByVersion_part (hsent packet (hsub packet List.mem_cons_self)) hmissing hne)

theorem reads_packets_iff (hsent : ∀ packet ∈ sent, Sendable version packet)
    (hstream : reads.flatten = sent.flatMap sentBytes) :
    Reads (fun buf => decodePacketByVersion buf version) [] reads sent [] ↔
      ∀ i < reads.length, ¬ InLength (unfinished sentBytes sent (reads.take i).flatten).2 := by
  rw [reads_iff (fun packet hpacket => delimited (hsent packet hpacket)) (by rw [List.nil_append, hstream])]
  apply forall₂_congr
  intro i _
  rw [List.nil_append]
  have hsplit : (reads.take i).flatten ++ (reads.drop i).flatten = sent.flatMap sentBytes := by
    rw [← List.flatten_append, List.take_append_drop, hstream]
  exact unfinished_waits_iff hsent hsplit

/-- A loop that begins with an empty buffer, and has come to wait after these reads, has handled the
    packets that were sent. -/
theorem loop_packets {settings : Settings} {c c' : Control} {h : List (Control × Trace Action Reply)} {l l' : ConnLoop}
    (hhistory : History (body settings) c h c') (hl : c.connLoop = some l) (hl' : c'.connLoop = some l')
    (hversion : l.version = version) (hbuf : l.buf = []) (harrived : arrived (h.flatMap Prod.snd) = reads)
    (hwaits : decodePacketByVersion l'.buf version = .ok none) (hsent : ∀ packet ∈ sent, Sendable version packet)
    (hstream : reads.flatten = sent.flatMap sentBytes)
    (hcuts : ∀ i < reads.length, ¬ InLength (unfinished sentBytes sent (reads.take i).flatten).2) :
    packets h = sent ∧ l'.buf = [] := by
  have hreads := reads_of_history hhistory hl hl'
  rw [hbuf, harrived, hversion] at hreads
  exact hreads.unique ((reads_packets_iff hsent hstream).mpr hcuts) hwaits rfl

end

/-- A strict part of a packet makes either decoder ask for more exactly if it does not end inside the
    remaining length. So a stream of packets gives these packets however it is read, exactly if no read
    but the last ends inside a remaining length. -/
theorem partialPackets_iff (version : ProtocolVersion) (sent : List MqttPacket) (reads : List Bytes) :
    (∀ (p : V3.MqttPacketV3) (received missing : Bytes), p.WellFormed →
      V3.encodePacket p = .ok (received ++ missing) → (received ++ missing).length ≤ 10 * 1024 * 1024 → missing ≠ [] →
      (V3.decodePacket received = .ok none ↔ ¬ InLength received)) ∧
    (∀ (p : V5.MqttPacketV5) (received missing : Bytes), p.WellFormed →
      V5.encodePacket p = .ok (received ++ missing) → (received ++ missing).length ≤ 10 * 1024 * 1024 → missing ≠ [] →
      (V5.decodePacket received = .ok none ↔ ¬ InLength received)) ∧
    ((∀ packet ∈ sent, Sendable version packet) → reads.flatten = sent.flatMap sentBytes →
      Reads (fun buf => decodePacketByVersion buf version) [] [sent.flatMap sentBytes] sent [] ∧
      (Reads (fun buf => decodePacketByVersion buf version) [] reads sent [] ↔
        ∀ i < reads.length, ¬ InLength (unfinished sentBytes sent (reads.take i).flatten).2)) := by
  refine ⟨?_, ?_, ?_⟩
  · intro p received missing hp henc hmax hmissing
    exact waits_iff (decodePacketV3_part hp henc hmax hmissing)
  · intro p received missing hp henc hmax hmissing
    exact waits_iff (decodePacketV5_part hp henc hmax hmissing)
  · intro hsent hstream
    refine ⟨?_, reads_packets_iff hsent hstream⟩
    exact .chunk rfl (reads_whole fun packet hpacket => delimited (hsent packet hpacket))

def longPublish : V3.PublishPacket where
  topic := "t"
  payload := List.replicate 200 0x78
  qos := .AtMostOnce
  retain := false
  packetId := none

theorem longPublish_wellFormed : (V3.MqttPacketV3.Publish longPublish).WellFormed := ⟨by decide, by decide⟩

theorem partialPackets_firstByte : V3.decodePacket [0x30] = .ok none := by
  have henc : V3.encodePacket (.Publish longPublish) = .ok ([0x30] ++
      0xCB :: 0x01 :: (encodeString "t" ++ longPublish.payload)) := by decide +kernel
  exact ((partialPackets_iff .V311 [] []).1 _ _ _ longPublish_wellFormed henc (by decide +kernel) (by simp)).mpr (by decide)

/-- One read ends after the first of these two bytes: the decoder takes the packet for a malformed one. -/
theorem partialPackets_malformed : (V3.MqttPacketV3.Publish longPublish).WellFormed ∧
    V3.encodePacket (.Publish longPublish) = .ok ([0x30, 0xCB] ++ 0x01 :: (encodeString "t" ++ longPublish.payload)) ∧
    V3.decodePacket [0x30, 0xCB] = .error (.mqtt .MalformedRemainingLength) := by
  exact ⟨longPublish_wellFormed, by decide +kernel, by decide +kernel⟩

end AtomMqtt
