import AtomMqtt.Library.Framing
import AtomMqtt.Cleanup

set_option autoImplicit false

/-! The packet loops, turn by turn. A turn of either loop takes a packet from the buffer or waits for what comes
next. What a connection handles is what a reader of the packets decodes from the data that has come in. -/
namespace AtomMqtt
open Programs Framing

def ConnLoop.packet (l : ConnLoop) : Option MqttPacket :=
  match decodePacketByVersion l.buf l.version with
  | .ok (some (packet, _)) => some packet
  | _ => none

/-- The packet that the turn from here on handles. -/
def Control.packet : Control → Option MqttPacket
  | .tcpLoop l => l.packet
  | .wsLoop l => l.packet
  | _ => none

section
variable {l : ConnLoop}

theorem packet_of_decode {packet : MqttPacket} {size : ℕ}
    (h : decodePacketByVersion l.buf l.version = .ok (some (packet, size))) : l.packet = some packet := by
  rw [ConnLoop.packet, h]

theorem packet_of_waits (h : decodePacketByVersion l.buf l.version = .ok none) : l.packet = none := by
  rw [ConnLoop.packet, h]

theorem packet_of_error {e : Fault} (h : decodePacketByVersion l.buf l.version = .error e) : l.packet = none := by
  rw [ConnLoop.packet, h]

end

theorem loop_of_packet {c : Control} {packet : MqttPacket} (h : c.packet = some packet) :
    ∃ l size, (c = .tcpLoop l ∨ c = .wsLoop l) ∧ decodePacketByVersion l.buf l.version = .ok (some (packet, size)) := by
  have hpacket : ∀ {l : ConnLoop}, l.packet = some packet →
      ∃ size, decodePacketByVersion l.buf l.version = .ok (some (packet, size)) := by
    intro l hl
    rw [ConnLoop.packet] at hl
    split at hl
    · cases hl
      exact ⟨_, by assumption⟩
    · cases hl
  cases c with
  | tcpLoop l =>
    obtain ⟨size, hdecode⟩ := hpacket h
    exact ⟨l, size, .inl rfl, hdecode⟩
  | wsLoop l =>
    obtain ⟨size, hdecode⟩ := hpacket h
    exact ⟨l, size, .inr rfl, hdecode⟩
  | _ => cases h

def arrived (tr : Trace Action Reply) : List Bytes :=
  tr.filterMap fun e =>
    match e with
    | ⟨.selectTcp, .received (.data bytes)⟩ => some bytes
    | ⟨.selectWs, .frame (.binary data)⟩ => some data
    | _ => none

theorem arrived_append (tr tr' : Trace Action Reply) : arrived (tr ++ tr') = arrived tr ++ arrived tr' :=
  List.filterMap_append

/-- The task has come to its loop. Where its stream is lost it had nothing in its buffer that it could handle. -/
inductive Control.StandsIn : Control → ConnLoop → Prop
  | tcpLoop (l : ConnLoop) : StandsIn (.tcpLoop l) l
  | wsLoop (l : ConnLoop) : StandsIn (.wsLoop l) l
  | wsLost {l : ConnLoop} (hwaits : decodePacketByVersion l.buf l.version = .ok none) : StandsIn (.wsLost l) l

theorem Control.StandsIn.connLoop {c : Control} {l : ConnLoop} (h : c.StandsIn l) : c.connLoop = some l := by
  cases h <;> rfl

/-- What a turn does to the buffer of the loop. -/
inductive Consumes (c : Control) (l : ConnLoop) (tr : Trace Action Reply) (buf' : Bytes) : Prop
  | packet {packet : MqttPacket} {size : ℕ} (hpacket : c.packet = some packet)
      (hdecode : decodePacketByVersion l.buf l.version = .ok (some (packet, size))) (harrived : arrived tr = [])
      (hbuf : buf' = l.buf.drop size)
  | read {bytes : Bytes} (hpacket : c.packet = none) (hdecode : decodePacketByVersion l.buf l.version = .ok none)
      (harrived : arrived tr = [bytes]) (hbuf : buf' = l.buf ++ bytes)
  | other (hpacket : c.packet = none) (harrived : arrived tr = []) (hbuf : buf' = l.buf)

def Goes (c : Control) (l : ConnLoop) (tr : Trace Action Reply) (c' : Control) : Prop :=
  (∃ buf, c'.StandsIn { l with buf } ∧ Consumes c l tr buf) ∨ ∃ ok, c' = .exited ok

section
variable {settings : Settings} {l : ConnLoop} {c : Control}

theorem arrived_composed (clientId : String) : Composed clientId fun tr => arrived tr = [] where
  nil := rfl
  append := by
    intro tr tr' htr htr'
    rw [arrived_append, htr, htr']
    rfl
  action := by
    intro a r ha
    cases a <;> first | rfl | exact ha.elim
  replay := by
    intro filter
    unfold replayRetained
    apply ensures_ask
    intro items
    apply Ensures.mono (P := fun tr _ => arrived tr = [])
    · apply Ensures.forM (P := fun tr => arrived tr = []) rfl
      · intro tr tr' htr htr'
        rw [arrived_append, htr, htr']
        rfl
      · intro item _
        split
        · exact ensures_run_last fun _ => rfl
        · exact .ret rfl
    · intro tr _ htr
      exact htr

theorem cleanup_exits : Ensures (fun _ c => ∃ ok, c = .exited ok) (cleanup l) := by
  unfold cleanup
  apply ensures_run
  intro _
  apply ensures_run
  intro _
  apply ensures_run
  intro _
  apply ensures_run
  intro _
  exact .ret ⟨true, rfl⟩

theorem cleanup_goes {f : Trace Action Reply → Trace Action Reply} : Ensures (fun tr c' => Goes c l (f tr) c') (cleanup l) :=
  cleanup_exits.mono fun _ _ h => .inr h

theorem handlePacket_goes {again : ConnLoop → Control} (hagain : ∀ l', (again l').StandsIn l')
    {packet : MqttPacket} {size : ℕ} (hpacket : c.packet = some packet)
    (hdecode : decodePacketByVersion l.buf l.version = .ok (some (packet, size))) :
    Ensures (Goes c l) (handlePacket settings l packet size again) := by
  unfold handlePacket
  apply ensures_run
  intro _
  apply ((arrived_composed l.clientId).processPacket packet).seq
  intro tr result hresult
  obtain ⟨harrived, response, rfl⟩ := hresult
  cases response with
  | none => exact .ret (.inl ⟨_, hagain _, .packet hpacket hdecode (by simpa [arrived] using harrived) rfl⟩)
  | some response =>
    obtain ⟨bytes, hencode⟩ := encodePacket_ok response
    apply (writePacket_ensures hencode).seq
    intro tr' sent hwrite
    subst hwrite
    cases sent with
    | false => exact .ret (.inr ⟨false, rfl⟩)
    | true =>
      refine .ret (.inl ⟨_, hagain _, .packet hpacket hdecode ?_ rfl⟩)
      simpa [arrived, sentMetrics] using harrived

theorem tcpLoop_goes : Ensures (Goes (.tcpLoop l) l) (tcpLoop settings l) := by
  unfold tcpLoop
  match hdecode : decodePacketByVersion l.buf l.version with
  | .error _ => exact cleanup_goes (f := id)
  | .ok (some (packet, size)) =>
    exact handlePacket_goes .tcpLoop (packet_of_decode hdecode) hdecode
  | .ok none =>
    have hpacket : (Control.tcpLoop l).packet = none := packet_of_waits hdecode
    apply ensures_ask
    intro event
    match event with
    | .received (.data bytes) => exact .ret (.inl ⟨_, .tcpLoop _, .read hpacket hdecode rfl rfl⟩)
    | .received .closed => exact cleanup_goes (f := List.cons _)
    | .received .failed => exact .ret (.inr ⟨false, rfl⟩)
    | .forwarded data =>
      apply ensures_ask
      intro sent
      cases sent with
      | false => exact cleanup_goes (f := fun tr => _ :: _ :: tr)
      | true =>
        apply ensures_run
        intro _
        apply ensures_run
        intro _
        exact .ret (.inl ⟨_, .tcpLoop _, .other hpacket rfl rfl⟩)

theorem forwardWs_goes (hpacket : c.packet = none) {data : Bytes} {e : Entry} (he : arrived [e] = []) :
    Ensures (fun tr c' => Goes c l (e :: tr) c') (forwardWs l data) := by
  unfold forwardWs
  apply ensures_ask
  intro sent
  cases sent with
  | false => exact cleanup_goes (f := fun tr => _ :: _ :: tr)
  | true =>
    apply ensures_run
    intro _
    refine .ret (.inl ⟨_, .wsLoop _, .other hpacket ?_ rfl⟩)
    rw [← List.singleton_append, arrived_append, he]
    rfl

theorem wsLoop_goes : Ensures (Goes (.wsLoop l) l) (wsLoop settings l) := by
  unfold wsLoop
  match hdecode : decodePacketByVersion l.buf l.version with
  | .error _ => exact cleanup_goes (f := id)
  | .ok (some (packet, size)) =>
    exact handlePacket_goes .wsLoop (packet_of_decode hdecode) hdecode
  | .ok none =>
    have hpacket : (Control.wsLoop l).packet = none := packet_of_waits hdecode
    apply ensures_ask
    intro event
    match event with
    | .frame (.binary data) => exact .ret (.inl ⟨_, .wsLoop _, .read hpacket hdecode rfl rfl⟩)
    | .frame .close => exact cleanup_goes (f := List.cons _)
    | .frame (.ping bytes) =>
      apply ensures_run
      intro _
      exact .ret (.inl ⟨_, .wsLoop _, .other hpacket rfl rfl⟩)
    | .frame .pong => exact .ret (.inl ⟨_, .wsLoop _, .other hpacket rfl rfl⟩)
    | .frame .other => exact .ret (.inl ⟨_, .wsLoop _, .other hpacket rfl rfl⟩)
    | .forwarded data => exact forwardWs_goes hpacket rfl
    | .lost => exact .ret (.inl ⟨_, .wsLost hdecode, .other hpacket rfl rfl⟩)

theorem wsLost_goes : Ensures (Goes (.wsLost l) l) (wsLost l) := by
  unfold wsLost
  apply ensures_ask
  intro forwarded
  cases forwarded with
  | none => exact cleanup_goes (f := List.cons _)
  | some data => exact forwardWs_goes rfl rfl

theorem loop_goes {c' : Control} {tr : Trace Action Reply} (hloop : c.connLoop = some l)
    (h : Exec (body settings c) tr c') : Goes c l tr c' := by
  cases c <;> cases hloop
  · exact tcpLoop_goes.of_exec h
  · exact wsLoop_goes.of_exec h
  · exact wsLost_goes.of_exec h

end

def packets (h : List (Control × Trace Action Reply)) : List MqttPacket := h.filterMap fun turn => turn.1.packet

theorem packets_cons (c : Control) (tr : Trace Action Reply) (h : List (Control × Trace Action Reply)) :
    packets ((c, tr) :: h) = c.packet.toList ++ packets h := by
  rw [packets, List.filterMap_cons]
  cases c.packet <;> rfl

/-- The packets that a loop handles are those that a reader decodes from what has arrived. -/
theorem reads_of_history {settings : Settings} {c c' : Control} {h : List (Control × Trace Action Reply)}
    (hhistory : History (body settings) c h c') : ∀ {l l' : ConnLoop}, c.connLoop = some l → c'.connLoop = some l' →
    Reads (fun buf => decodePacketByVersion buf l.version) l.buf (arrived (h.flatMap Prod.snd))
      (packets h) l'.buf := by
  induction hhistory with
  | done c =>
    intro l l' hl hl'
    rw [hl] at hl'
    cases hl'
    exact .done l.buf
  | @turn c c₁ c₂ tr h first rest ih =>
    intro l l' hl hl'
    rw [List.flatMap_cons, arrived_append, packets_cons]
    cases loop_goes hl first with
    | inl hgoes =>
      obtain ⟨buf, hloop, hconsumes⟩ := hgoes
      have hrest := ih hloop.connLoop hl'
      cases hconsumes with
      | packet hpacket hdecode harrived hbuf =>
        rw [harrived, hpacket]
        subst hbuf
        exact .item hdecode hrest
      | read hpacket hdecode harrived hbuf =>
        rw [harrived, hpacket]
        subst hbuf
        exact .chunk hdecode hrest
      | other hpacket harrived hbuf =>
        rw [harrived, hpacket]
        subst hbuf
        exact hrest
    | inr hexited =>
      obtain ⟨ok, rfl⟩ := hexited
      have hlast : c₂ = .exited ok := by
        obtain ⟨tr', hturns⟩ : ∃ tr', Turns (body settings) (.exited ok) tr' c₂ := ⟨_, turns_iff_history.mpr ⟨h, rest, rfl⟩⟩
        exact (exited_turns hturns).2
      rw [hlast] at hl'
      cases hl'

end AtomMqtt
