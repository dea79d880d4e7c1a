import AtomMqtt.Behaviour
import AtomMqtt.PacketLimit

set_option autoImplicit false

/-! The packet limit on a connection. A handler decodes once in each turn. Along a run the limit holds exactly
if it holds at each of these places, and then a stream of packets that the configuration allows is handled from
the first to the last. -/
namespace AtomMqtt
open Programs

/-- Where this turn decodes, and what. -/
def looked : Control × Trace Action Reply → Option (Site × Bytes)
  | (.tcp, ⟨.read, .data bytes⟩ :: _) => some (.first, bytes)
  | (.ws buf, ⟨.wsNext, .frame (.binary data)⟩ :: _) => some (.first, buf ++ data)
  | (.tcpLoop l, _) => some (.later l.version, l.buf)
  | (.wsLoop l, _) => some (.later l.version, l.buf)
  | _ => none

def decoded (config : BrokerConfig) (turn : Control × Trace Action Reply) : Option MqttPacket :=
  (looked turn).bind fun look => (look.1.decode config look.2).toOption.join

def decodings (config : BrokerConfig) (h : List (Control × Trace Action Reply)) : List MqttPacket :=
  h.filterMap (decoded config)

/-- A read that fails or finds the end, or a write that fails. -/
def breaksOff (e : Entry) : Bool :=
  disturbs e ||
    match e with
    | ⟨.selectTcp, .received .closed⟩ => true
    | ⟨.selectTcp, .received .failed⟩ => true
    | ⟨.selectWs, .frame .close⟩ => true
    | ⟨.selectWs, .lost⟩ => true
    | _ => false

def Unbroken (tr : Trace Action Reply) : Prop := ∀ e ∈ tr, breaksOff e = false

/-- A packet that has its place there, within the configured limit. -/
structure Site.Allows (site : Site) (config : BrokerConfig) (packet : MqttPacket) : Prop where
  sends : site.Sends packet
  within : (sentBytes packet).length ≤ config.maxPacketSize

/-- All the packets of the stream that have come in are handled when the handler waits or has left, and while no other
    bytes have come in it does not leave. -/
structure KeepsUp (config : BrokerConfig) (sent : List MqttPacket) (received : Bytes)
    (h : List (Control × Trace Action Reply)) (c : Control) : Prop where
  handles : sent.flatMap sentBytes <+: received → c.Waits ∨ (∃ ok, c = .exited ok) → sent <+: decodings config h
  stays : received <+: sent.flatMap sentBytes → ∀ ok, c ≠ .exited ok

section
variable {tr tr' : Trace Action Reply} {e : Entry}

theorem unbroken_cons : Unbroken (e :: tr) ↔ breaksOff e = false ∧ Unbroken tr := List.forall_mem_cons

theorem Unbroken.undisturbed (h : Unbroken tr) : Undisturbed tr :=
  fun e he => (Bool.or_eq_false_iff.mp (h e he)).1

end

section
variable {settings : Settings} {l : ConnLoop} {c c' : Control} {tr : Trace Action Reply}

def Moves (again : ConnLoop → Control) (l : ConnLoop) (tr : Trace Action Reply) (c' : Control) : Prop :=
  Unbroken tr →
    match decodePacketByVersion l.buf l.version with
    | .ok (some (_, size)) => arrived tr = [] ∧ c' = again { l with buf := l.buf.drop size }
    | .ok none => c' = again { l with buf := l.buf ++ (arrived tr).flatten }
    | .error _ => ∃ ok, c' = .exited ok

theorem handlePacket_moves {again : ConnLoop → Control} {packet : MqttPacket} {size : ℕ} :
    Ensures (fun tr c' => Unbroken tr → arrived tr = [] ∧ c' = again { l with buf := l.buf.drop size })
      (handlePacket settings l packet size again) := by
  unfold handlePacket
  apply ensures_run
  intro _
  apply ((arrived_composed l.clientId).processPacket packet).seq
  rintro tr result ⟨harrived, response, rfl⟩
  cases response with
  | none => exact .ret fun _ => ⟨by simpa [arrived] using harrived, rfl⟩
  | some response =>
    apply (writePacket_ensures (encodePacket_sentBytes response)).seq
    rintro tr' sent rfl
    cases sent with
    | false =>
      refine .ret fun hunbroken => ?_
      have hwrite := hunbroken ⟨.write .response (sentBytes response), false⟩ (by simp)
      cases hwrite
    | true =>
      refine .ret fun _ => ⟨?_, rfl⟩
      simpa [arrived, sentMetrics] using harrived

theorem tcpLoop_moves : Ensures (Moves .tcpLoop l) (tcpLoop settings l) := by
  unfold tcpLoop Moves
  match decodePacketByVersion l.buf l.version with
  | .error _ => exact cleanup_exits.mono fun _ _ h _ => h
  | .ok (some (packet, size)) => exact handlePacket_moves
  | .ok none =>
    apply ensures_ask
    intro event
    match event with
    | .received (.data bytes) =>
      refine .ret fun _ => ?_
      simp [arrived]
    | .received .closed => exact cleanup_exits.mono fun _ _ _ h => by cases (unbroken_cons.mp h).1
    | .received .failed => exact .ret fun h => by cases (unbroken_cons.mp h).1
    | .forwarded data =>
      apply ensures_ask
      intro sent
      cases sent with
      | false => exact cleanup_exits.mono fun _ _ _ h => by cases (unbroken_cons.mp (unbroken_cons.mp h).2).1
      | true =>
        apply ensures_run
        intro _
        apply ensures_run
        intro _
        refine .ret fun _ => ?_
        simp [arrived]

theorem forwardWs_moves {data : Bytes} (hwaits : decodePacketByVersion l.buf l.version = .ok none) :
    Ensures (fun tr c' => Moves .wsLoop l (⟨.selectWs, .forwarded data⟩ :: tr) c') (forwardWs l data) := by
  unfold forwardWs Moves
  rw [hwaits]
  apply ensures_ask
  intro sent
  cases sent with
  | false => exact cleanup_exits.mono fun _ _ _ h => by cases (unbroken_cons.mp (unbroken_cons.mp h).2).1
  | true =>
    apply ensures_run
    intro _
    refine .ret fun _ => ?_
    simp [arrived]

theorem wsLoop_moves : Ensures (Moves .wsLoop l) (wsLoop settings l) := by
  unfold wsLoop
  match hdecode : decodePacketByVersion l.buf l.version with
  | .error _ =>
    apply cleanup_exits.mono
    intro tr c' h _
    rw [hdecode]
    exact h
  | .ok (some (packet, size)) =>
    apply handlePacket_moves.mono
    intro tr c' h hunbroken
    rw [hdecode]
    exact h hunbroken
  | .ok none =>
    apply ensures_ask
    intro event
    match event with
    | .forwarded data => exact forwardWs_moves hdecode
    | .frame (.binary data) =>
      refine .ret fun _ => ?_
      simp [hdecode, arrived]
    | .frame .close => exact cleanup_exits.mono fun _ _ _ h => by cases (unbroken_cons.mp h).1
    | .frame (.ping bytes) =>
      apply ensures_run
      intro _
      refine .ret fun _ => ?_
      simp [hdecode, arrived]
    | .frame .pong =>
      refine .ret fun _ => ?_
      simp [hdecode, arrived]
    | .frame .other =>
      refine .ret fun _ => ?_
      simp [hdecode, arrived]
    | .lost => exact .ret fun h => by cases (unbroken_cons.mp h).1

end

section
variable {b part missing : Bytes} {packet : MqttPacket}

end

section
variable {settings : Settings} {config : BrokerConfig} {c c' : Control} {site : Site} {buf : Bytes} {l : ConnLoop}
  {tr : Trace Action Reply} {packet : MqttPacket} {fields : ConnectFields} {missing rest : Bytes} {version : ProtocolVersion}

theorem Site.Allows.length_le (h : site.Allows settings.config packet)
    (hrefuses : ¬ site.Refuses settings.config.maxPacketSize (sentBytes packet ++ rest)) :
    (sentBytes packet).length ≤ 10 * 1024 * 1024 := by
  by_contra hlimit
  exact hrefuses ⟨packet, rest, rfl, h.sends, Nat.lt_of_not_le hlimit, h.within⟩

def IsLoop (again : ConnLoop → Control) : Prop := again = .tcpLoop ∨ again = .wsLoop

theorem IsLoop.moves {again : ConnLoop → Control} (h : IsLoop again) (hexec : Exec (body settings (again l)) tr c') :
    Moves again l tr c' := by
  rcases h with rfl | rfl
  · exact tcpLoop_moves.of_exec hexec
  · exact wsLoop_moves.of_exec hexec

theorem IsLoop.looked {again : ConnLoop → Control} (h : IsLoop again) :
    looked (again l, tr) = some (.later l.version, l.buf) := by
  rcases h with rfl | rfl <;> rfl

theorem IsLoop.connLoop {again : ConnLoop → Control} (h : IsLoop again) : (again l).connLoop = some l := by
  rcases h with rfl | rfl <;> rfl

end

section
variable {settings : Settings} {config : BrokerConfig} {turn : Control × Trace Action Reply} {c c' : Control}
  {h : List (Control × Trace Action Reply)} {packet : MqttPacket} {sent later : List MqttPacket} {received buf more : Bytes}
  {again : ConnLoop → Control} {l : ConnLoop} {tr : Trace Action Reply}

theorem decodings_cons : decodings config (turn :: h) = (decoded config turn).toList ++ decodings config h := by
  rw [decodings, List.filterMap_cons]
  cases decoded config turn <;> rfl

theorem KeepsUp.next (hdecoded : decoded config turn = some packet) (hrest : KeepsUp config sent received h c) :
    KeepsUp config (packet :: sent) (sentBytes packet ++ received) (turn :: h) c where
  handles := by
    intro hprefix hends
    rw [List.flatMap_cons] at hprefix
    rw [decodings_cons, hdecoded]
    exact List.cons_prefix_cons.mpr ⟨rfl, hrest.handles ((List.prefix_append_right_inj _).mp hprefix) hends⟩
  stays := by
    intro hprefix
    rw [List.flatMap_cons] at hprefix
    exact hrest.stays ((List.prefix_append_right_inj _).mp hprefix)

theorem KeepsUp.skip (hdecoded : decoded config turn = none) (hrest : KeepsUp config sent received h c) :
    KeepsUp config sent received (turn :: h) c where
  handles := by
    rw [decodings_cons, hdecoded]
    exact hrest.handles
  stays := hrest.stays

theorem KeepsUp.apart (hwhole : ¬ sentBytes packet <+: buf) (hpart : ¬ buf <+: sentBytes packet)
    (hbegins : buf <+: received) : KeepsUp config (packet :: sent) received h c := by
  have happart : ∀ whole : Bytes, sentBytes packet <+: whole → ¬ buf <+: whole := fun whole hp hb =>
    (List.prefix_or_prefix_of_prefix hp hb).elim hwhole hpart
  constructor
  · intro hprefix _
    rw [List.flatMap_cons] at hprefix
    exact absurd hbegins (happart _ ((List.prefix_append _ _).trans hprefix))
  · intro hprefix
    rw [List.flatMap_cons] at hprefix
    exact absurd (hbegins.trans hprefix) (happart _ (List.prefix_append _ _))

end

section
variable {settings : Settings} {c c₁ c' : Control} {h : List (Control × Trace Action Reply)} {connect : MqttPacket}
  {fields : ConnectFields} {later : List MqttPacket} {buf rest : Bytes} {tr : Trace Action Reply}

end

end AtomMqtt
