import AtomMqtt.FirstPacket
import AtomMqtt.PacketTraces
import AtomMqtt.V5RoundTrip

set_option autoImplicit false

/-! From the CONNECT to the packet loop. Both handlers decode the CONNECT once to see what it says and once more
to see how long it is; what was read after it stays in the buffer. The TCP handler decodes the second time as
3.1.1. -/
namespace AtomMqtt
open Programs Scanning

def levelByte : ProtocolVersion → UInt8
  | .V311 => 4
  | .V5 => 5

/-- The whole of `b` is a CONNECT of this version: its decoder says so, and the name and the level stand
    after the fixed header. -/
structure ValidConnect (version : ProtocolVersion) (b : Bytes) (packet : MqttPacket) (c : ConnectFields) : Prop where
  decodes : decodePacketByVersion b version = .ok (some (packet, b.length))
  fields : connectFields packet = some c
  named : ∃ remainingLen lenBytes rest, decodeRemainingLength b.tail = .ok (remainingLen, lenBytes) ∧
    b.drop (1 + lenBytes) = encodeString "MQTT" ++ levelByte version :: rest

/-- A CONNECT, taken apart: the fixed header and the body from the protocol name on. -/
structure ConnectFrame (b : Bytes) (level : UInt8) (rest : Bytes) (fixedHeader : UInt8) (tail : Bytes)
    (remainingLen lenBytes : ℕ) : Prop where
  cons : b = fixedHeader :: tail
  two : 2 ≤ b.length
  length : decodeRemainingLength tail = .ok (remainingLen, lenBytes)
  total : b.length = 1 + lenBytes + remainingLen
  body : b.drop (1 + lenBytes) = encodeString "MQTT" ++ level :: rest
  flags : rest ≠ []

section
variable {b r rest tail : Bytes} {level fixedHeader : UInt8} {remainingLen lenBytes : ℕ}

theorem named_frame {α : Type} {maxPacketSize : ℕ} {body : PacketType → Bytes → UInt8 → MqttResult α} {packet : α}
    (h : decodeFrame maxPacketSize body b = .ok (some (packet, b.length)))
    (hr : decodeRemainingLength b.tail = .ok (remainingLen, lenBytes))
    (hname : b.drop (1 + lenBytes) = encodeString "MQTT" ++ level :: rest) :
    ∃ fixedHeader tail packetType, b = fixedHeader :: tail ∧ 2 ≤ b.length ∧
      PacketType.fromU8 fixedHeader = some packetType ∧ b.length = 1 + lenBytes + remainingLen ∧
      body packetType (encodeString "MQTT" ++ level :: rest) fixedHeader = .ok packet := by
  obtain ⟨fixedHeader, tail, packetType, len, n, data, rfl, htype, hlen, hsize, -, -, htwo, hs, hp⟩ :=
    decodeFrame_eq_some_iff.mp h
  have hsame : (len, n) = (remainingLen, lenBytes) := by
    rw [List.tail_cons, hlen] at hr
    exact Except.ok.inj hr
  cases hsame
  obtain ⟨-, -, rfl⟩ := slice_eq_ok_iff.mp hs
  rw [List.take_length, hname] at hp
  exact ⟨fixedHeader, tail, packetType, rfl, htwo, htype, hsize, hp⟩

theorem decodeConnect_truncated (fixedHeader : UInt8) :
    V3.decodeConnect (encodeString "MQTT" ++ [4]) fixedHeader = err (.InvalidPacket "Missing connect flags") ∧
      V5.decodeConnect (encodeString "MQTT" ++ [5]) fixedHeader = err (.InvalidPacket "Missing connect flags") := by
  constructor
  · unfold V3.decodeConnect
    decide +kernel
  · unfold V5.decodeConnect
    decide +kernel

theorem ValidConnect.v3 {packet : MqttPacket} {c : ConnectFields} (h : ValidConnect .V311 b packet c) :
    ∃ connect rest fixedHeader tail remainingLen lenBytes, packet = .V311 (.Connect connect) ∧
      V3.decodePacket b = .ok (some (.Connect connect, b.length)) ∧
      ConnectFrame b 4 rest fixedHeader tail remainingLen lenBytes := by
  obtain ⟨p, rfl, hp⟩ := decodePacketByVersion_v3.mp h.decodes
  obtain ⟨remainingLen, lenBytes, rest, hr, hname⟩ := h.named
  obtain ⟨connect, heq, -⟩ | ⟨connect, heq, -⟩ := connectFields_eq_some h.fields
  · cases heq
    obtain ⟨fixedHeader, tail, packetType, rfl, htwo, htype, htotal, hbody⟩ := named_frame hp hr hname
    obtain ⟨-, hconnect⟩ := decodeBodyV3_connect hbody
    refine ⟨connect, rest, fixedHeader, tail, remainingLen, lenBytes, rfl, hp, rfl, htwo, hr, htotal, hname, ?_⟩
    intro hnil
    subst hnil
    rw [levelByte, (decodeConnect_truncated fixedHeader).1] at hconnect
    cases hconnect
  · cases heq

theorem ValidConnect.v5 {packet : MqttPacket} {c : ConnectFields} (h : ValidConnect .V5 b packet c) :
    ∃ connect rest fixedHeader tail remainingLen lenBytes, packet = .V5 (.Connect connect) ∧
      V5.decodePacket b = .ok (some (.Connect connect, b.length)) ∧
      ConnectFrame b 5 rest fixedHeader tail remainingLen lenBytes := by
  obtain ⟨p, rfl, hp⟩ := decodePacketByVersion_v5.mp h.decodes
  obtain ⟨remainingLen, lenBytes, rest, hr, hname⟩ := h.named
  obtain ⟨connect, heq, -⟩ | ⟨connect, heq, -⟩ := connectFields_eq_some h.fields
  · cases heq
  · cases heq
    obtain ⟨fixedHeader, tail, packetType, rfl, htwo, htype, htotal, hbody⟩ := named_frame hp hr hname
    obtain ⟨-, hconnect⟩ := decodeBodyV5_connect hbody
    refine ⟨connect, rest, fixedHeader, tail, remainingLen, lenBytes, rfl, hp, rfl, htwo, hr, htotal, hname, ?_⟩
    intro hnil
    subst hnil
    rw [levelByte, (decodeConnect_truncated fixedHeader).2] at hconnect
    cases hconnect

theorem decodeFirstPacket_connectFrame (h : ConnectFrame b level rest fixedHeader tail remainingLen lenBytes) (r : Bytes) :
    (level = 4 → decodeFirstPacket (b ++ r) = firstPacket (V3.decodePacket (b ++ r)) .V311) ∧
      (level = 5 → decodeFirstPacket (b ++ r) = firstPacket (V5.decodePacket (b ++ r)) .V5) := by
  obtain ⟨rfl, htwo, hr, htotal, hname, hrest⟩ := h
  cases tail with
  | nil => simp at htwo
  | cons t ts =>
    have hlen : (encodeString "MQTT").length = 6 := by decide
    have hpos := List.length_pos_of_ne_nil hrest
    have hfit : ¬ (fixedHeader :: t :: (ts ++ r)).length < 1 + lenBytes + remainingLen := by
      simp only [List.length_cons, List.length_append] at htotal ⊢
      omega
    have hinside : 1 + lenBytes ≤ (fixedHeader :: t :: ts).length := by omega
    have hslice : slice (fixedHeader :: t :: (ts ++ r)) (1 + lenBytes) (fixedHeader :: t :: (ts ++ r)).length =
        .ok (encodeString "MQTT" ++ level :: (rest ++ r)) := by
      apply slice_eq_ok_iff.mpr
      refine ⟨?_, le_rfl, ?_⟩
      · simp only [List.length_cons, List.length_append] at hinside ⊢
        omega
      · change _ = ((fixedHeader :: t :: ts ++ r).take _).drop _
        rw [List.take_of_length_le (by simp), List.drop_append_of_le_length hinside, hname]
        simp
    have hlong : ¬ (encodeString "MQTT" ++ level :: (rest ++ r)).length < 8 := by
      simp only [List.length_append, List.length_cons, hlen]
      omega
    have hlevel : (encodeString "MQTT" ++ level :: (rest ++ r)).getD 6 0 = level := by
      rw [List.getD_eq_getElem?_getD, List.getElem?_append_right (by rw [hlen]), hlen]
      rfl
    have hr' := decodeRemainingLength_append hr r
    simp only [List.cons_append] at hr'
    constructor
    · intro hfour
      subst hfour
      simp only [decodeFirstPacket, List.cons_append, hr', ok_bind, hfit, if_false, hslice, hlong, hlevel,
        UInt8.reduceToNat]
    · intro hfive
      subst hfive
      simp only [decodeFirstPacket, List.cons_append, hr', ok_bind, hfit, if_false, hslice, hlong, hlevel,
        UInt8.reduceToNat]

end

section
variable {settings : Settings} {c : ConnectFields} {username : String}

/-- The accepting CONNACK is written, and the handler comes to where `after` says if that succeeds. -/
def Accepts (c : ConnectFields) (after : Control → Prop) (tr : Trace Action Reply) (ctrl : Control) : Prop :=
  ∃ bytes sent, encodePacket (acceptedConnack c.version) = .ok bytes ∧ ⟨.write .connack bytes, sent⟩ ∈ tr ∧
    (sent = true → after ctrl)

theorem connack_accepts {after : Control → Prop} {rest : Broker Control} (hrest : Ensures (fun _ ctrl => after ctrl) rest) :
    Ensures (Accepts c after) (do
      if ← writePacket .connack (acceptedConnack c.version) then rest
      else return .exited false) := by
  obtain ⟨bytes, hencode⟩ := encodePacket_ok (acceptedConnack c.version)
  apply (writePacket_ensures hencode).seq
  intro tr sent hwrite
  subst hwrite
  cases sent with
  | false => exact .ret ⟨bytes, false, hencode, by simp, by simp⟩
  | true =>
    apply hrest.mono
    intro tr'' ctrl hafter
    exact ⟨bytes, true, hencode, by simp, fun _ => hafter⟩

theorem Accepts.prepend {after : Control → Prop} {tr : Trace Action Reply} {ctrl : Control} (h : Accepts c after tr ctrl)
    (tr' : Trace Action Reply) : Accepts c after (tr' ++ tr) ctrl := by
  obtain ⟨bytes, sent, hencode, hmem, hafter⟩ := h
  exact ⟨bytes, sent, hencode, List.mem_append_right tr' hmem, hafter⟩

theorem enterTcpLoop_accepts {readBuf : Bytes} {after : Control → Prop} {clientId : String}
    (hsome : ∀ p size, V3.decodePacket readBuf = .ok (some (p, size)) → ∀ l : ConnLoop, l.version = c.version →
      l.buf = readBuf.drop size → after (.tcpLoop l))
    (hnone : (∀ p size, V3.decodePacket readBuf ≠ .ok (some (p, size))) → after (.exited false)) :
    Ensures (Accepts c after) (enterTcpLoop readBuf c clientId username) := by
  unfold enterTcpLoop
  apply Ensures.trivial.seq
  intro tr _ _
  apply Ensures.mono (P := Accepts c after)
  · apply connack_accepts
    apply ensures_run
    intro _
    match hdecode : V3.decodePacket readBuf with
    | .ok (some (p, size)) => exact .ret (hsome p size hdecode _ rfl rfl)
    | .ok none => exact .ret (hnone (by simp [hdecode]))
    | .error _ => exact .ret (hnone (by simp [hdecode]))
  · intro tr' ctrl h
    exact h.prepend tr

theorem acceptTcp_accepts {readBuf : Bytes} {after : Control → Prop}
    (hauth : settings.authenticator.authenticate settings.config.allowAnonymous c.username c.password = .Success username)
    (hsome : ∀ p size, V3.decodePacket readBuf = .ok (some (p, size)) → ∀ l : ConnLoop, l.version = c.version →
      l.buf = readBuf.drop size → after (.tcpLoop l))
    (hnone : (∀ p size, V3.decodePacket readBuf ≠ .ok (some (p, size))) → after (.exited false)) :
    Ensures (Accepts c after) (acceptTcp settings readBuf c) := by
  unfold acceptTcp
  rw [hauth]
  apply Ensures.trivial.seq
  intro tr clientId _
  apply Ensures.mono (P := Accepts c after)
  · cases c.will with
    | none => exact enterTcpLoop_accepts hsome hnone
    | some will =>
      apply Ensures.trivial.seq
      intro tr' _ _
      exact (enterTcpLoop_accepts hsome hnone).mono fun tr'' ctrl h => h.prepend tr'
  · intro tr' ctrl h
    exact h.prepend tr

theorem acceptWs_accepts {buf : Bytes} {after : Control → Prop} {packet : MqttPacket} {size : ℕ}
    (hauth : settings.authenticator.authenticate settings.config.allowAnonymous c.username c.password = .Success username)
    (hdecode : decodePacketByVersion buf c.version = .ok (some (packet, size)))
    (hafter : ∀ l : ConnLoop, l.version = c.version → l.buf = buf.drop size → after (.wsLoop l)) :
    Ensures (Accepts c after) (acceptWs settings buf c) := by
  unfold acceptWs
  rw [hauth]
  apply Ensures.trivial.seq
  intro tr clientId _
  apply Ensures.mono (P := Accepts c after)
  · apply Ensures.trivial.seq
    intro tr' _ _
    apply Ensures.mono (P := Accepts c after)
    · apply connack_accepts
      have hdone : Ensures (fun _ ctrl => after ctrl) (do
          run (.connectionsInsert clientId)
          return .wsLoop { clientId, version := c.version, cleanSession := c.cleanSession,
                           username := some username, buf := buf.drop size }) := by
        apply ensures_run
        intro _
        exact .ret (hafter _ rfl rfl)
      cases hversion : c.version with
      | V311 =>
        rw [hversion] at hdecode hdone
        obtain ⟨p, -, hp⟩ := decodePacketByVersion_v3.mp hdecode
        rw [hp]
        exact hdone
      | V5 =>
        rw [hversion] at hdecode hdone
        obtain ⟨p, -, hp⟩ := decodePacketByVersion_v5.mp hdecode
        rw [hp]
        exact hdone
    · intro tr'' ctrl h
      exact h.prepend tr'
  · intro tr' ctrl h
    exact h.prepend tr

end

def WritesSucceed (tr : Trace Action Reply) : Prop := ∀ what data, ⟨.write what data, false⟩ ∉ tr

/-- `handle_connection` has read the CONNECT `b` and `r` at once: it accepts, and its loop begins with `r`. -/
def TcpHandsOver (settings : Settings) (c : ConnectFields) (b r : Bytes) : Prop :=
  ∀ tr ctrl, Exec (handleConnection settings) (⟨.read, .data (b ++ r)⟩ :: tr) ctrl → WritesSucceed tr →
    (∃ bytes, encodePacket (acceptedConnack c.version) = .ok bytes ∧ ⟨.write .connack bytes, true⟩ ∈ tr) ∧
      ∃ l, ctrl = .tcpLoop l ∧ l.buf = r

/-- A frame completes `b` and brings `r`: the WebSocket handler accepts, and its loop begins with `r`. -/
def WsHandsOver (settings : Settings) (c : ConnectFields) (b r : Bytes) : Prop :=
  ∀ buf data tr ctrl, buf ++ data = b ++ r →
    Exec (handleWsMqttSession settings buf) (⟨.wsNext, .frame (.binary data)⟩ :: tr) ctrl → WritesSucceed tr →
      (∃ bytes, encodePacket (acceptedConnack c.version) = .ok bytes ∧ ⟨.write .connack bytes, true⟩ ∈ tr) ∧
        ∃ l, ctrl = .wsLoop l ∧ l.buf = r

theorem Accepts.of_written {c : ConnectFields} {after : Control → Prop} {tr : Trace Action Reply} {ctrl : Control}
    (h : Accepts c after tr ctrl) (hwrites : WritesSucceed tr) :
    (∃ bytes, encodePacket (acceptedConnack c.version) = .ok bytes ∧ ⟨.write .connack bytes, true⟩ ∈ tr) ∧
      after ctrl := by
  obtain ⟨bytes, sent, hencode, hmem, hafter⟩ := h
  cases sent with
  | false => exact absurd hmem (hwrites _ _)
  | true => exact ⟨⟨bytes, hencode, hmem⟩, hafter rfl⟩

section
variable {settings : Settings} {version : ProtocolVersion} {b : Bytes} {packet : MqttPacket} {c : ConnectFields}
  {username : String}

theorem ValidConnect.decodeFirst (h : ValidConnect version b packet c) (r : Bytes) :
    decodeFirstPacket (b ++ r) = .ok (some packet) ∧ c.version = version ∧
      decodePacketByVersion (b ++ r) version = .ok (some (packet, b.length)) := by
  cases version with
  | V311 =>
    obtain ⟨connect, rest, fixedHeader, tail, remainingLen, lenBytes, rfl, hp, hframe⟩ := h.v3
    have happend := decodeFrame_append hp r
    refine ⟨?_, ?_, decodePacketByVersion_v3.mpr ⟨_, rfl, happend⟩⟩
    · rw [(decodeFirstPacket_connectFrame hframe r).1 rfl, V3.decodePacket, happend]
      rfl
    · cases h.fields
      rfl
  | V5 =>
    obtain ⟨connect, rest, fixedHeader, tail, remainingLen, lenBytes, rfl, hp, hframe⟩ := h.v5
    have happend := decodeFrame_append hp r
    refine ⟨?_, ?_, decodePacketByVersion_v5.mpr ⟨_, rfl, happend⟩⟩
    · rw [(decodeFirstPacket_connectFrame hframe r).2 rfl, V5.decodePacket, happend]
      rfl
    · cases h.fields
      rfl

theorem ws_enters {buf data r : Bytes} {tr : Trace Action Reply} {ctrl : Control} (h : ValidConnect version b packet c)
    (hauth : settings.authenticator.authenticate settings.config.allowAnonymous c.username c.password = .Success username)
    (hbytes : buf ++ data = b ++ r)
    (hexec : Exec (handleWsMqttSession settings buf) (⟨.wsNext, .frame (.binary data)⟩ :: tr) ctrl)
    (hwrites : WritesSucceed tr) :
    (∃ bytes, encodePacket (acceptedConnack c.version) = .ok bytes ∧ ⟨.write .connack bytes, true⟩ ∈ tr) ∧
      ∃ l, ctrl = .wsLoop l ∧ l.version = c.version ∧ l.buf = r := by
  obtain ⟨hfirst, hversion, hdecode⟩ := h.decodeFirst r
  unfold handleWsMqttSession at hexec
  rw [exec_ask_iff] at hexec
  simp only [hbytes, hfirst, handleConnectAfterDecode, h.fields] at hexec
  have haccepts : Ensures (Accepts c fun ctrl => ∃ l, ctrl = .wsLoop l ∧ l.version = c.version ∧ l.buf = r)
      (acceptWs settings (b ++ r) c) :=
    acceptWs_accepts hauth (hversion ▸ hdecode) fun l hl hbuf => ⟨l, rfl, hl, hbuf.trans List.drop_left⟩
  exact (haccepts.of_exec hexec).of_written hwrites

theorem wsHandsOver (h : ValidConnect version b packet c)
    (hauth : settings.authenticator.authenticate settings.config.allowAnonymous c.username c.password = .Success username)
    (r : Bytes) : WsHandsOver settings c b r := by
  intro buf data tr ctrl hbytes hexec hwrites
  obtain ⟨hconnack, l, hl, -, hbuf⟩ := ws_enters h hauth hbytes hexec hwrites
  exact ⟨hconnack, l, hl, hbuf⟩

theorem exec_handleConnection {readBuf : Bytes} {tr : Trace Action Reply} {ctrl : Control}
    (hfirst : decodeFirstPacket readBuf = .ok (some packet)) (hfields : connectFields packet = some c) :
    Exec (handleConnection settings) (⟨.read, .data readBuf⟩ :: tr) ctrl ↔ Exec (acceptTcp settings readBuf c) tr ctrl := by
  unfold handleConnection
  rw [exec_ask_iff]
  simp only [hfirst, hfields]

/-- A socket that takes whatever is written to it; nothing else matters here. -/
def writableReply (a : Action) : Reply a :=
  match a with
  | .write _ _ => true
  | _ => default

theorem follow_writesSucceed {α : Type} (p : Broker α) : WritesSucceed (p.follow writableReply).1 := by
  intro what data hmem
  have h := follow_reply writableReply p _ hmem
  cases h

theorem tcp_enters {r : Bytes} {tr : Trace Action Reply} {ctrl : Control} (h : ValidConnect .V311 b packet c)
    (hauth : settings.authenticator.authenticate settings.config.allowAnonymous c.username c.password = .Success username)
    (hexec : Exec (handleConnection settings) (⟨.read, .data (b ++ r)⟩ :: tr) ctrl) (hwrites : WritesSucceed tr) :
    (∃ bytes, encodePacket (acceptedConnack c.version) = .ok bytes ∧ ⟨.write .connack bytes, true⟩ ∈ tr) ∧
      ∃ l, ctrl = .tcpLoop l ∧ l.version = c.version ∧ l.buf = r := by
  obtain ⟨hfirst, hversion, hdecode⟩ := h.decodeFirst r
  obtain ⟨p, -, hp⟩ := decodePacketByVersion_v3.mp hdecode
  rw [exec_handleConnection hfirst h.fields] at hexec
  have haccepts : Ensures (Accepts c fun ctrl => ∃ l, ctrl = .tcpLoop l ∧ l.version = c.version ∧ l.buf = r)
      (acceptTcp settings (b ++ r) c) := by
    apply acceptTcp_accepts hauth
    · intro p' size hp' l hl hbuf
      obtain ⟨-, rfl⟩ : p' = p ∧ size = b.length := by simpa [hp] using hp'.symm
      exact ⟨l, rfl, hl, hbuf.trans List.drop_left⟩
    · intro hnone
      exact absurd hp (hnone p b.length)
  exact (haccepts.of_exec hexec).of_written hwrites

theorem tcpHandsOver_v3 (h : ValidConnect .V311 b packet c)
    (hauth : settings.authenticator.authenticate settings.config.allowAnonymous c.username c.password = .Success username)
    (r : Bytes) : TcpHandsOver settings c b r := by
  intro tr ctrl hexec hwrites
  obtain ⟨hconnack, l, hl, -, hbuf⟩ := tcp_enters h hauth hexec hwrites
  exact ⟨hconnack, l, hl, hbuf⟩

/-- After a CONNECT of level 5 the TCP handler gives up. -/
theorem level5_leaves {r : Bytes} {tr : Trace Action Reply} {ctrl : Control} (h : ValidConnect .V5 b packet c)
    (hauth : settings.authenticator.authenticate settings.config.allowAnonymous c.username c.password = .Success username)
    (hexec : Exec (acceptTcp settings (b ++ r) c) tr ctrl) (hwrites : WritesSucceed tr) : ctrl = .exited false := by
  obtain ⟨connect, _, _, _, _, _, _, hp5, _⟩ := h.v5
  have hp5' := decodeFrame_append hp5 r
  have hends : Ensures (Accepts c fun ctrl => ctrl = .exited false) (acceptTcp settings (b ++ r) c) := by
    apply acceptTcp_accepts hauth
    · intro p size hp
      exact absurd hp (not_decodePacketV3 hp5' p size)
    · intro _
      rfl
  exact ((hends.of_exec hexec).of_written hwrites).2

theorem not_tcpHandsOver_v5 (h : ValidConnect .V5 b packet c)
    (hauth : settings.authenticator.authenticate settings.config.allowAnonymous c.username c.password = .Success username)
    (r : Bytes) : ¬ TcpHandsOver settings c b r := by
  intro hover
  have hexec := exec_follow writableReply (acceptTcp settings (b ++ r) c)
  have hwrites := follow_writesSucceed (acceptTcp settings (b ++ r) c)
  have hexited := level5_leaves h hauth hexec hwrites
  obtain ⟨-, l, hloop, -⟩ := hover _ _ ((exec_handleConnection (h.decodeFirst r).1 h.fields).mpr hexec) hwrites
  rw [hexited] at hloop
  cases hloop

end

/-- Over WebSocket every valid CONNECT that is accepted is handed over with the bytes after it. Over TCP
    the same happens exactly for version 3.1.1: after a CONNECT of level 5 the handler gives up. -/
theorem handover_iff {settings : Settings} {version : ProtocolVersion} {b : Bytes} {packet : MqttPacket}
    {c : ConnectFields} {username : String} (hvalid : ValidConnect version b packet c)
    (hauth : settings.authenticator.authenticate settings.config.allowAnonymous c.username c.password =
      .Success username) (r : Bytes) :
    WsHandsOver settings c b r ∧ (TcpHandsOver settings c b r ↔ version = .V311) := by
  refine ⟨wsHandsOver hvalid hauth r, ?_⟩
  cases version with
  | V311 => simp only [tcpHandsOver_v3 hvalid hauth r]
  | V5 => simp [not_tcpHandsOver_v5 hvalid hauth r]

def plainFields (version : ProtocolVersion) : ConnectFields where
  clientId := "c"
  version := version
  keepAlive := 60
  cleanSession := true
  username := none
  password := none
  will := none

theorem plainConnectV3_valid : ValidConnect .V311 (sentBytes (.V311 (.Connect (plainConnectV3 "c" true none))))
    (.V311 (.Connect (plainConnectV3 "c" true none))) (plainFields .V311) where
  decodes := by decide +kernel
  fields := rfl
  named := ⟨13, 1, [0x02, 0, 60, 0, 1, 0x63], by decide +kernel, by decide +kernel⟩

theorem plainConnectV5_valid : ValidConnect .V5 (sentBytes (.V5 (.Connect (plainConnectV5 "c" true none))))
    (.V5 (.Connect (plainConnectV5 "c" true none))) (plainFields .V5) where
  decodes := by decide +kernel
  fields := rfl
  named := ⟨14, 1, [0x02, 0, 60, 0, 0, 1, 0x63], by decide +kernel, by decide +kernel⟩

theorem handover_plainConnect :
    let b := sentBytes (.V311 (.Connect (plainConnectV3 "c" true none)))
    WsHandsOver openSettings (plainFields .V311) b [0xC0, 0] ∧
      (TcpHandsOver openSettings (plainFields .V311) b [0xC0, 0] ↔ ProtocolVersion.V311 = .V311) := by
  have hauth : openSettings.authenticator.authenticate openSettings.config.allowAnonymous none none =
    .Success "anonymous" := by decide
  exact handover_iff plainConnectV3_valid hauth [0xC0, 0]

/-- A CONNECT of level 5 and a PINGREQ: it passes authentication, and the loop is never entered. -/
theorem not_handover_level5 :
    let b := sentBytes (.V5 (.Connect (plainConnectV5 "c" true none)))
    ValidConnect .V5 b (.V5 (.Connect (plainConnectV5 "c" true none))) (plainFields .V5) ∧
      openSettings.authenticator.authenticate openSettings.config.allowAnonymous none none = .Success "anonymous" ∧
      WsHandsOver openSettings (plainFields .V5) b [0xC0, 0] ∧
      ¬ TcpHandsOver openSettings (plainFields .V5) b [0xC0, 0] := by
  have hauth : openSettings.authenticator.authenticate openSettings.config.allowAnonymous none none =
    .Success "anonymous" := by decide
  exact ⟨plainConnectV5_valid, hauth, wsHandsOver plainConnectV5_valid hauth [0xC0, 0],
    not_tcpHandsOver_v5 plainConnectV5_valid hauth [0xC0, 0]⟩

end AtomMqtt
