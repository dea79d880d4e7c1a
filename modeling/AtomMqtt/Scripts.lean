import AtomMqtt.DecoderSafety
import AtomMqtt.ExactlyOnce
import AtomMqtt.Library.Courses
import AtomMqtt.PiecewiseConnect
import AtomMqtt.SubscribeEffects
import AtomMqtt.WillOwnership

set_option autoImplicit false

/-! What a connection makes of its input. A connection answers its client, writes to the shared maps and the
tree, and sends messages to the router and events to the writer. All of it is a function of the bytes that it
has read, of the settings, and of the id that it is given if it comes without one: other tasks, and where the
reads end, decide only how far it gets. -/
namespace AtomMqtt
open Programs Framing

/-- The actions of a connection that its input asks for: of the session, the will, the subscriptions and the retained
    messages, the publications, the events for the database and the answers. Its entry in `connections`, the mark
    `connected` of a session, the message that it has left, the counters and what is forwarded to it are none. -/
def Action.isDeed : Action → Bool
  | .sessionsInsert _ _ | .willsInsert _ _ | .willsRemove _ | .subscribe _ _ _ | .unsubscribe _ _ | .retainedInsert _ _
  | .retainedRemove _ | .sendRouter (.Publish _ _ _ _ _) | .sendEvent _ | .write .connack _ | .write .response _ => true
  | _ => false

def deed (e : Σ a : Action, Reply a) : Option Action := if e.1.isDeed then some e.1 else none

def deeds (tr : Trace Action Reply) : List Action := tr.filterMap deed

def generated (tr : Trace Action Reply) : List String :=
  tr.filterMap fun e =>
    match e with
    | ⟨.generateClientId, id⟩ => some id
    | _ => none

def named (tr : Trace Action Reply) : String := (generated tr).headD ""

def heard (tr : Trace Action Reply) : List Bytes := taken tr ++ arrived tr

theorem deeds_append (tr tr' : Trace Action Reply) : deeds (tr ++ tr') = deeds tr ++ deeds tr' := List.filterMap_append

theorem generated_append (tr tr' : Trace Action Reply) : generated (tr ++ tr') = generated tr ++ generated tr' :=
  List.filterMap_append

theorem named_append_blank {tr tr' : Trace Action Reply} (h : ∀ id ∈ generated tr', id = "") :
    named (tr ++ tr') = named tr := by
  rw [named, named, generated_append]
  cases generated tr with
  | cons id ids => rfl
  | nil =>
    cases hgenerated : generated tr' with
    | nil => rfl
    | cons id ids => exact h id (by simp [hgenerated])

theorem named_append_none {tr tr' : Trace Action Reply} (h : generated tr' = []) : named (tr ++ tr') = named tr :=
  named_append_blank (h ▸ List.forall_mem_nil _)

/-- A PUBLISH that the rules allow goes to the router, and to the retained messages if it says so. -/
def publishDeeds (settings : Settings) (clientId username : String) (p : V3.PublishPacket) : List Action :=
  if settings.acl.authorizePublish username p.topic then
    .sendRouter (p.message clientId) ::
      if !p.retain then []
      else if p.payload.isEmpty then [.retainedRemove p.topic, .sendEvent (.RemoveRetained p.topic)]
      else [.retainedInsert p.topic { topic := p.topic, payload := p.payload, qos := p.qos },
        .sendEvent (.SaveRetained p.topic p.payload p.qos.toI32)]
  else []

def subscribeDeeds (clientId : String) (f : String × QoS) : List Action :=
  [.subscribe clientId f.1 f.2, .sendEvent (.SaveSubscription clientId f.1 f.2.toI32)]

def unsubscribeDeeds (clientId filter : String) : List Action :=
  [.unsubscribe clientId filter, .sendEvent (.RemoveSubscription clientId filter)]

def MqttPacket.unsubscription : MqttPacket → List String
  | .V311 (.Unsubscribe p) => p.filters
  | .V5 (.Unsubscribe p) => p.filters
  | _ => []

def MqttPacket.deeds (settings : Settings) (clientId username : String) (packet : MqttPacket) : List Action :=
  match packet.publish, packet.subscription with
  | some p, _ => publishDeeds settings clientId username p
  | none, some (_, filters) => (settings.allowed username filters).flatMap (subscribeDeeds clientId)
  | none, none =>
    if packet.cancelsWill then [.willsRemove clientId, .sendEvent (.RemoveWill clientId)]
    else packet.unsubscription.flatMap (unsubscribeDeeds clientId)

def MqttPacket.answer (settings : Settings) (username : String) : MqttPacket → Option MqttPacket
  | .V311 (.Publish p) => if settings.acl.authorizePublish username p.topic then publishResponseV3 p else none
  | .V311 (.PubRec p) => some (.V311 (.PubRel { packetId := p.packetId }))
  | .V311 (.PubRel p) => some (.V311 (.PubComp { packetId := p.packetId }))
  | .V311 (.Subscribe p) =>
    let returnCodes := p.filters.map fun f =>
      if settings.acl.authorizeSubscribe username f.path then grantedCodeV3 f.qos else .Failure
    some (.V311 (.SubAck { packetId := p.packetId, returnCodes }))
  | .V311 (.Unsubscribe p) => some (.V311 (.UnsubAck { packetId := p.packetId }))
  | .V311 .PingReq => some (.V311 .PingResp)
  | .V5 (.Publish p) =>
    publishResponseV5 p (if settings.acl.authorizePublish username p.topic then .Success else .NotAuthorized)
  | .V5 (.PubRec p) =>
    some (.V5 (.PubRel { packetId := p.packetId, reasonCode := .Success, properties := V5.Properties.new }))
  | .V5 (.PubRel p) =>
    some (.V5 (.PubComp { packetId := p.packetId, reasonCode := .Success, properties := V5.Properties.new }))
  | .V5 (.Subscribe p) =>
    let reasonCodes := p.filters.map fun f =>
      if settings.acl.authorizeSubscribe username f.path then V5.ReasonCode.Success else .NotAuthorized
    some (.V5 (.SubAck { packetId := p.packetId, reasonCodes, properties := V5.Properties.new }))
  | .V5 (.Unsubscribe p) =>
    let reasonCodes := p.filters.map fun _ => V5.ReasonCode.Success
    some (.V5 (.UnsubAck { packetId := p.packetId, reasonCodes, properties := V5.Properties.new }))
  | .V5 .PingReq => some (.V5 .PingResp)
  | _ => none

/-- All that a packet makes its connection do: what it is about, and the answer to it. -/
def MqttPacket.script (settings : Settings) (clientId username : String) (packet : MqttPacket) : List Action :=
  packet.deeds settings clientId username ++
    (packet.answer settings username).toList.map fun response => .write .response (sentBytes response)

section
variable {settings : Settings} {clientId username : String}

theorem deeds_mapM {γ δ : Type} {xs : List γ} {body : γ → Broker δ} {does : γ → List Action} {gives : γ → δ}
    (h : ∀ x, Ensures (fun tr y => deeds tr = does x ∧ y = gives x) (body x)) :
    Ensures (fun tr ys => deeds tr = xs.flatMap does ∧ ys = xs.map gives) (xs.mapM body) := by
  induction xs with
  | nil => exact .ret ⟨rfl, rfl⟩
  | cons x xs ih =>
    rw [List.mapM_cons]
    apply (h x).seq
    rintro tr _ ⟨htr, rfl⟩
    apply ih.seq
    rintro tr' _ ⟨htr', rfl⟩
    apply Ensures.ret
    rw [List.append_nil, deeds_append, htr, htr']
    exact ⟨rfl, rfl⟩

theorem deeds_forM {γ : Type} {xs : List γ} {body : γ → Broker PUnit} {does : γ → List Action}
    (h : ∀ x, Ensures (fun tr _ => deeds tr = does x) (body x)) :
    Ensures (fun tr _ => deeds tr = xs.flatMap does) (xs.forM body) := by
  induction xs with
  | nil => exact .ret rfl
  | cons x xs ih =>
    change Ensures _ (body x >>= fun _ => xs.forM body)
    apply (h x).seq
    intro tr _ htr
    apply ih.mono
    intro tr' _ htr'
    rw [deeds_append, htr, htr']
    rfl

theorem acceptPublish_deeds (p : V3.PublishPacket) (hacl : settings.acl.authorizePublish username p.topic = true) :
    Ensures (fun tr _ => deeds tr = publishDeeds settings clientId username p)
      (acceptPublish clientId p.topic p.payload p.qos p.retain) := by
  obtain ⟨topic, payload, qos, retain, packetId⟩ := p
  rw [publishDeeds, if_pos hacl]
  unfold acceptPublish
  apply ensures_run
  intro _
  cases retain with
  | false => exact .ret rfl
  | true =>
    cases payload with
    | nil =>
      apply ensures_run
      intro _
      exact ensures_run_last fun _ => rfl
    | cons byte payload =>
      apply ensures_run
      intro _
      exact ensures_run_last fun _ => rfl

theorem publish_deeds (p : V3.PublishPacket) (denied accepted : MqttResult (Option MqttPacket)) :
    Ensures (fun tr result => deeds tr = publishDeeds settings clientId username p ∧
        result = if settings.acl.authorizePublish username p.topic then accepted else denied) (do
      metrics .incrementMessagesReceived
      metrics (.incrementBytesReceived p.payload.length)
      if !settings.acl.authorizePublish username p.topic then return denied
      else do
        acceptPublish clientId p.topic p.payload p.qos p.retain
        return accepted) := by
  apply ensures_run
  intro _
  apply ensures_run
  intro _
  cases hacl : settings.acl.authorizePublish username p.topic with
  | false =>
    refine .ret ⟨?_, rfl⟩
    simp only [publishDeeds, hacl, Bool.false_eq_true, if_false]
    rfl
  | true =>
    apply (acceptPublish_deeds p hacl).seq
    intro tr _ htr
    refine .ret ⟨?_, rfl⟩
    rw [List.append_nil]
    exact htr

theorem replayRetained_deeds (filter : String) : Ensures (fun tr _ => deeds tr = []) (replayRetained clientId filter) := by
  unfold replayRetained
  apply ensures_ask
  intro items
  have hloop : Ensures (fun tr _ => deeds tr = items.flatMap fun _ => []) (items.forM fun item =>
      if (TopicFilter.new filter).matches item.topic && !item.payload.isEmpty then
        run (.forward clientId (publishPacket item.topic item.payload true))
      else pure ()) := by
    apply deeds_forM
    intro item
    split
    · exact ensures_run_last fun _ => rfl
    · exact .ret rfl
  apply hloop.mono
  intro tr _ htr
  rw [List.flatMap_eq_nil_iff.mpr fun _ _ => rfl] at htr
  exact htr

theorem acceptSubscription_deeds (f : String × QoS) :
    Ensures (fun tr _ => deeds tr = subscribeDeeds clientId f) (acceptSubscription clientId f.1 f.2) := by
  unfold acceptSubscription
  apply ensures_run
  intro _
  apply ensures_run
  intro _
  apply (replayRetained_deeds f.1).mono
  intro tr _ htr
  change Action.subscribe clientId f.1 f.2 :: Action.sendEvent _ :: deeds tr = _
  rw [htr]
  rfl

theorem subscribeFilters_deeds {γ δ : Type} (filters : List γ) (request : γ → String × QoS) (denied : δ) (code : γ → δ) :
    Ensures (fun tr codes =>
        deeds tr = (settings.allowed username (filters.map request)).flatMap (subscribeDeeds clientId) ∧
        codes = filters.map fun f => if settings.acl.authorizeSubscribe username (request f).1 then code f else denied)
      (filters.mapM fun f =>
        if !settings.acl.authorizeSubscribe username (request f).1 then return denied
        else do
          acceptSubscription clientId (request f).1 (request f).2
          return code f) := by
  have hturn : ∀ f, Ensures (fun tr y =>
      deeds tr = (if settings.acl.authorizeSubscribe username (request f).1 then subscribeDeeds clientId (request f) else []) ∧
        y = if settings.acl.authorizeSubscribe username (request f).1 then code f else denied)
      (if !settings.acl.authorizeSubscribe username (request f).1 then (return denied : Broker δ)
        else do
          acceptSubscription clientId (request f).1 (request f).2
          return code f) := by
    intro f
    cases settings.acl.authorizeSubscribe username (request f).1 with
    | false => exact .ret ⟨rfl, rfl⟩
    | true =>
      apply (acceptSubscription_deeds (request f)).seq
      intro tr _ htr
      refine .ret ⟨?_, rfl⟩
      rw [List.append_nil]
      exact htr
  apply (deeds_mapM hturn).mono
  rintro tr codes ⟨htr, hcodes⟩
  refine ⟨?_, hcodes⟩
  rw [htr, Settings.allowed]
  clear htr hcodes
  induction filters with
  | nil => rfl
  | cons f filters ih =>
    rw [List.flatMap_cons, ih, List.map_cons, List.filter_cons]
    split_ifs
    · rw [List.flatMap_cons]
    · rfl

theorem removeSubscriptions_deeds (filters : List String) :
    Ensures (fun tr _ => deeds tr = filters.flatMap (unsubscribeDeeds clientId)) (removeSubscriptions clientId filters) := by
  unfold removeSubscriptions
  have hloop : Ensures (fun tr _ => deeds tr = filters.flatMap (unsubscribeDeeds clientId)) (filters.forM fun filter => do
      run (.unsubscribe clientId filter)
      sendEvent (.RemoveSubscription clientId filter)) := by
    apply deeds_forM
    intro filter
    apply ensures_run
    intro _
    exact ensures_run_last fun _ => rfl
  apply hloop.seq
  intro tr _ htr
  apply ensures_run_last
  intro _
  rw [deeds_append, htr]
  exact List.append_nil _

/-- What a packet is for, and the result that is returned for it. -/
def Serves (settings : Settings) (clientId username : String) (packet : MqttPacket) (tr : Trace Action Reply)
    (result : MqttResult (Option MqttPacket)) : Prop :=
  deeds tr = packet.deeds settings clientId username ∧ result = .ok (packet.answer settings username)

theorem processV3Packet_deeds (packet : V3.MqttPacketV3) :
    Ensures (Serves settings clientId username (.V311 packet)) (processV3Packet settings packet clientId username) := by
  cases packet with
  | Publish p =>
    have hpublish : Ensures _ (processV3Packet settings (.Publish p) clientId username) :=
      publish_deeds p (.ok none) (.ok (publishResponseV3 p))
    apply hpublish.mono
    rintro tr _ ⟨htr, rfl⟩
    refine ⟨htr, ?_⟩
    rw [MqttPacket.answer]
    split_ifs <;> rfl
  | Subscribe p =>
    unfold processV3Packet
    apply (subscribeFilters_deeds p.filters (fun f => (f.path, f.qos)) (0x80 : UInt8) fun f => f.qos.toU8).seq
    rintro tr codes ⟨htr, rfl⟩
    apply ensures_run
    intro _
    refine .ret ⟨?_, ?_⟩
    · rw [deeds_append, htr]
      exact List.append_nil _
    · rw [returnCodes_eq]
      rfl
  | Unsubscribe p =>
    unfold processV3Packet
    apply (removeSubscriptions_deeds p.filters).seq
    intro tr _ htr
    refine .ret ⟨?_, rfl⟩
    rw [List.append_nil]
    exact htr
  | Disconnect =>
    unfold processV3Packet
    apply ensures_run
    intro _
    apply ensures_run
    intro _
    apply ensures_run
    intro _
    exact .ret ⟨rfl, rfl⟩
  | _ => exact .ret ⟨rfl, rfl⟩

theorem processV5Packet_deeds (packet : V5.MqttPacketV5) :
    Ensures (Serves settings clientId username (.V5 packet)) (processV5Packet settings packet clientId username) := by
  cases packet with
  | Publish p =>
    have hpublish : Ensures _ (processV5Packet settings (.Publish p) clientId username) :=
      publish_deeds { topic := p.topic, payload := p.payload, qos := p.qos, retain := p.retain, packetId := p.packetId }
        (.ok (publishResponseV5 p .NotAuthorized)) (.ok (publishResponseV5 p .Success))
    apply hpublish.mono
    rintro tr _ ⟨htr, rfl⟩
    refine ⟨htr, ?_⟩
    rw [MqttPacket.answer]
    split_ifs <;> rfl
  | Subscribe p =>
    unfold processV5Packet
    apply (subscribeFilters_deeds p.filters (fun f => (f.path, f.qos)) V5.ReasonCode.NotAuthorized
      fun _ => V5.ReasonCode.Success).seq
    rintro tr codes ⟨htr, rfl⟩
    apply ensures_run
    intro _
    refine .ret ⟨?_, rfl⟩
    rw [deeds_append, htr]
    exact List.append_nil _
  | Unsubscribe p =>
    unfold processV5Packet
    apply (removeSubscriptions_deeds p.filters).seq
    intro tr _ htr
    refine .ret ⟨?_, rfl⟩
    rw [List.append_nil]
    exact htr
  | Disconnect p =>
    unfold processV5Packet
    apply ensures_run
    intro _
    cases hreason : p.reasonCode != .DisconnectWithWillMessage with
    | false =>
      refine .ret ⟨?_, rfl⟩
      simp only [MqttPacket.deeds, MqttPacket.publish, MqttPacket.subscription, MqttPacket.cancelsWill, hreason]
      rfl
    | true =>
      apply ensures_run
      intro _
      apply ensures_run
      intro _
      refine .ret ⟨?_, rfl⟩
      simp only [MqttPacket.deeds, MqttPacket.publish, MqttPacket.subscription, MqttPacket.cancelsWill, hreason]
      rfl
  | _ => exact .ret ⟨rfl, rfl⟩

theorem processPacket_deeds (packet : MqttPacket) :
    Ensures (Serves settings clientId username packet) (processPacket settings packet clientId username) := by
  cases packet with
  | V311 p => exact processV3Packet_deeds p
  | V5 p => exact processV5Packet_deeds p

theorem writePacket_deeds (what : Outgoing) (packet : MqttPacket) (hwhat : what ≠ .forwarded) :
    Ensures (fun tr _ => deeds tr = [.write what (sentBytes packet)]) (writePacket what packet) := by
  apply (writePacket_ensures (encodePacket_sentBytes packet)).mono
  rintro tr sent rfl
  cases what with
  | forwarded => exact absurd rfl hwhat
  | _ => cases sent <;> rfl

end

/-- What the turn from here on is to do. -/
def Control.script (settings : Settings) (c : Control) : List Action :=
  match c.connLoop, c.packet with
  | some l, some packet => packet.script settings l.clientId (l.username.getD "anonymous")
  | _, _ => []

section
variable {settings : Settings} {l : ConnLoop} {c : Control}

theorem control_script_of_packet {packet : MqttPacket} (hl : c.connLoop = some l) (hpacket : c.packet = some packet) :
    c.script settings = packet.script settings l.clientId (l.username.getD "anonymous") := by
  rw [Control.script, hl, hpacket]

theorem control_script_of_none (hl : c.connLoop = some l) (hnone : c.packet = none) : c.script settings = [] := by
  rw [Control.script, hl, hnone]

end

section
variable {settings : Settings} {l : ConnLoop} {packet : MqttPacket} {size : ℕ}

theorem handlePacket_does {again : ConnLoop → Control} :
    Ensures (fun tr _ => deeds tr = packet.script settings l.clientId (l.username.getD "anonymous"))
      (handlePacket settings l packet size again) := by
  unfold handlePacket
  apply ensures_run
  intro _
  apply (processPacket_deeds packet).seq
  rintro tr _ ⟨htr, rfl⟩
  cases hanswer : packet.answer settings (l.username.getD "anonymous") with
  | none =>
    apply Ensures.ret
    rw [MqttPacket.script, hanswer, List.append_nil]
    exact htr.trans (List.append_nil _).symm
  | some response =>
    have hscript : packet.script settings l.clientId (l.username.getD "anonymous") =
        deeds tr ++ [.write .response (sentBytes response)] := by
      rw [MqttPacket.script, hanswer, htr]
      rfl
    rw [hscript]
    apply (writePacket_deeds .response response (by decide)).seq
    intro tr' sent hsent
    have hall : deeds (tr ++ (tr' ++ [])) = deeds tr ++ [.write .response (sentBytes response)] := by
      rw [List.append_nil, deeds_append, hsent]
    cases sent with
    | false => exact .ret hall
    | true => exact .ret hall

theorem cleanup_does : Ensures (fun tr _ => deeds tr = []) (cleanup l) := by
  unfold cleanup
  apply ensures_run
  intro _
  apply ensures_run
  intro _
  apply ensures_run
  intro _
  apply ensures_run
  intro _
  exact .ret rfl

theorem forwardWs_does {data : Bytes} : Ensures (fun tr _ => deeds tr = []) (forwardWs l data) := by
  unfold forwardWs
  apply ensures_ask
  intro sent
  cases sent with
  | false => exact cleanup_does.mono fun _ _ h => h
  | true =>
    apply ensures_run
    intro _
    exact .ret rfl

theorem tcpLoop_does : Ensures (fun tr _ => deeds tr = (Control.tcpLoop l).script settings) (tcpLoop settings l) := by
  unfold tcpLoop
  match hdecode : decodePacketByVersion l.buf l.version with
  | .ok (some (packet, size)) =>
    rw [control_script_of_packet (c := .tcpLoop l) rfl (packet_of_decode hdecode)]
    exact handlePacket_does
  | .error _ =>
    rw [control_script_of_none (c := .tcpLoop l) rfl (packet_of_error hdecode)]
    exact cleanup_does
  | .ok none =>
    rw [control_script_of_none (c := .tcpLoop l) rfl (packet_of_waits hdecode)]
    apply ensures_ask
    intro event
    match event with
    | .received (.data _) => exact .ret rfl
    | .received .closed => exact cleanup_does.mono fun _ _ h => h
    | .received .failed => exact .ret rfl
    | .forwarded data =>
      apply ensures_ask
      intro sent
      cases sent with
      | false => exact cleanup_does.mono fun _ _ h => h
      | true =>
        apply ensures_run
        intro _
        apply ensures_run
        intro _
        exact .ret rfl

theorem wsLoop_does : Ensures (fun tr _ => deeds tr = (Control.wsLoop l).script settings) (wsLoop settings l) := by
  unfold wsLoop
  match hdecode : decodePacketByVersion l.buf l.version with
  | .ok (some (packet, size)) =>
    rw [control_script_of_packet (c := .wsLoop l) rfl (packet_of_decode hdecode)]
    exact handlePacket_does
  | .error _ =>
    rw [control_script_of_none (c := .wsLoop l) rfl (packet_of_error hdecode)]
    exact cleanup_does
  | .ok none =>
    rw [control_script_of_none (c := .wsLoop l) rfl (packet_of_waits hdecode)]
    apply ensures_ask
    intro event
    match event with
    | .frame (.binary _) => exact .ret rfl
    | .frame .close => exact cleanup_does.mono fun _ _ h => h
    | .frame (.ping bytes) =>
      apply ensures_run
      intro _
      exact .ret rfl
    | .frame .pong => exact .ret rfl
    | .frame .other => exact .ret rfl
    | .forwarded data => exact forwardWs_does.mono fun _ _ h => h
    | .lost => exact .ret rfl

theorem wsLost_does : Ensures (fun tr _ => deeds tr = (Control.wsLost l).script settings) (wsLost l) := by
  unfold wsLost
  apply ensures_ask
  intro forwarded
  cases forwarded with
  | none => exact cleanup_does.mono fun _ _ h => h
  | some data => exact forwardWs_does.mono fun _ _ h => h

theorem loop_does {c c' : Control} {tr : Trace Action Reply} (hl : c.connLoop = some l) (h : Exec (body settings c) tr c') :
    deeds tr = c.script settings := by
  cases c with
  | tcpLoop l' => exact tcpLoop_does.of_exec h
  | wsLoop l' => exact wsLoop_does.of_exec h
  | wsLost l' => exact wsLost_does.of_exec h
  | _ => cases hl

end

theorem cuts_decodePacketByVersion (version : ProtocolVersion) : Cuts fun buf => decodePacketByVersion buf version where
  size := by
    intro buf packet size hdecode
    obtain ⟨htwo, hsize⟩ := decodePacketByVersion_size hdecode
    exact ⟨by omega, hsize⟩
  append := by
    intro buf packet size hdecode more
    cases version with
    | V311 =>
      obtain ⟨p, rfl, hp⟩ := decodePacketByVersion_v3.mp hdecode
      exact decodePacketByVersion_v3.mpr ⟨p, rfl, decodeFrame_append hp more⟩
    | V5 =>
      obtain ⟨p, rfl, hp⟩ := decodePacketByVersion_v5.mp hdecode
      exact decodePacketByVersion_v5.mpr ⟨p, rfl, decodeFrame_append hp more⟩

def packetsIn (version : ProtocolVersion) (bytes : Bytes) : List MqttPacket :=
  items (fun buf => decodePacketByVersion buf version) bytes

/-- What a packet loop makes of the bytes: one packet after the other. -/
def loopScript (settings : Settings) (clientId username : String) (version : ProtocolVersion) (bytes : Bytes) : List Action :=
  (packetsIn version bytes).flatMap fun packet => packet.script settings clientId username

def ConnLoop.script (settings : Settings) (l : ConnLoop) (bytes : Bytes) : List Action :=
  loopScript settings l.clientId (l.username.getD "anonymous") l.version bytes

section
variable {settings : Settings} {c c' : Control} {l l' : ConnLoop} {tr part : Trace Action Reply}

theorem script_cons {packet : MqttPacket} {size : ℕ}
    (hdecode : decodePacketByVersion l.buf l.version = .ok (some (packet, size))) (more : Bytes) :
    l.script settings (l.buf ++ more) =
      packet.script settings l.clientId (l.username.getD "anonymous") ++ l.script settings (l.buf.drop size ++ more) := by
  rw [ConnLoop.script, loopScript, packetsIn, (cuts_decodePacketByVersion l.version).items_cons_append hdecode, List.flatMap_cons]
  rfl

theorem script_of_waits (hwaits : decodePacketByVersion l.buf l.version = .ok none) : l.script settings l.buf = [] := by
  rw [ConnLoop.script, loopScript, packetsIn, items_of_none hwaits]
  rfl

/-- What is due next is due first of all that the bytes ask for, whatever follows them. -/
theorem control_script_within (hl : c.connLoop = some l) (more : Bytes) :
    c.script settings <+: l.script settings (l.buf ++ more) := by
  rw [Control.script, hl]
  cases hpacket : c.packet with
  | none => exact List.nil_prefix
  | some packet =>
    obtain ⟨l', size, rfl | rfl, hdecode⟩ := loop_of_packet hpacket
    · cases hl
      rw [script_cons hdecode more]
      exact List.prefix_append _ _
    · cases hl
      rw [script_cons hdecode more]
      exact List.prefix_append _ _

/-- After a turn the rest of what the bytes ask for is left to do, or the task has ended on the way. -/
theorem turn_script (hl : c.connLoop = some l) (h : Exec (body settings c) tr c') :
    (∃ l', c'.StandsIn l' ∧ ∀ more, l.script settings (l.buf ++ (arrived tr ++ more).flatten) =
      deeds tr ++ l'.script settings (l'.buf ++ more.flatten)) ∨
    ((∃ ok, c' = .exited ok) ∧ ∀ more, deeds tr <+: l.script settings (l.buf ++ more)) := by
  have hdeeds := loop_does hl h
  cases loop_goes hl h with
  | inr hexited =>
    refine .inr ⟨hexited, ?_⟩
    intro more
    rw [hdeeds]
    exact control_script_within hl more
  | inl hgoes =>
    obtain ⟨buf, hloop, hconsumes⟩ := hgoes
    refine .inl ⟨_, hloop, ?_⟩
    intro more
    cases hconsumes with
    | packet hpacket hdecode harrived hbuf =>
      subst hbuf
      rw [hdeeds, harrived, control_script_of_packet hl hpacket, List.nil_append, script_cons hdecode]
      rfl
    | read hpacket hdecode harrived hbuf =>
      subst hbuf
      rw [hdeeds, harrived, control_script_of_none hl hpacket, List.nil_append, List.singleton_append, List.flatten_cons,
        ← List.append_assoc]
      rfl
    | other hpacket harrived hbuf =>
      subst hbuf
      rw [hdeeds, harrived, control_script_of_none hl hpacket]
      rfl

end

def ConnectFields.idFor (c : ConnectFields) (name : String) : String := if c.clientId.isEmpty then name else c.clientId

def willDeeds (clientId : String) (will : WillMessage) : List Action :=
  [.willsInsert clientId { will with clientId },
    .sendEvent (.SaveWill clientId will.topic will.payload will.qos.toI32 will.retain will.delayInterval)]

def ConnectFields.saved (c : ConnectFields) (clientId username : String) : PersistEvent :=
  let level : ℤ := match c.version with
    | .V5 => 5
    | _ => 4
  .SaveSession clientId level c.cleanSession c.keepAlive (some username)

/-- What the loop makes of the bytes after the CONNECT, if it is known how long that is. -/
def ConnectFields.rest (settings : Settings) (c : ConnectFields) (consumed : MqttResult (Option ℕ)) (buf : Bytes)
    (clientId username : String) (later : List Bytes) : List Action :=
  match consumed with
  | .ok (some size) => loopScript settings clientId username c.version (buf.drop size ++ later.flatten)
  | _ => []

/-- What a handler makes of a CONNECT that takes up so much of its buffer, and of what it reads later: the session, the
    will that it stores, the CONNACK, and what the packets are about. -/
def ConnectFields.welcome (settings : Settings) (c : ConnectFields) (will : Option WillMessage)
    (consumed : MqttResult (Option ℕ)) (buf : Bytes) (name : String) (later : List Bytes) : List Action :=
  match settings.authenticator.authenticate settings.config.allowAnonymous c.username c.password with
  | .Denied reason => [.write .connack (sentBytes (deniedConnack c.version reason))]
  | .Success username =>
    let clientId := c.idFor name
    let session := SessionState.new clientId c.version c.cleanSession c.keepAlive (some username)
    [.sessionsInsert clientId session] ++ (will.toList.flatMap (willDeeds clientId) ++
      ([.sendEvent (c.saved clientId username)] ++ ([.write .connack (sentBytes (acceptedConnack c.version))] ++
        c.rest settings consumed buf clientId username later)))

/-- What `handle_connection` makes of what it reads. The CONNECT has to be there with the first read, and its size is
    that of a packet of version 3.1.1. -/
def tcpScript (settings : Settings) (name : String) : List Bytes → List Action
  | [] => []
  | readBuf :: later =>
    match decodeFirstPacket readBuf with
    | .ok (some packet) =>
      match connectFields packet with
      | some c => c.welcome settings c.will (Option.map Prod.snd <$> V3.decodePacket readBuf) readBuf name later
      | none => []
    | _ => []

def ConnectFields.consumed (c : ConnectFields) (buf : Bytes) : MqttResult (Option ℕ) :=
  match c.version with
  | .V311 => Option.map Prod.snd <$> V3.decodePacket buf
  | .V5 => Option.map Prod.snd <$> V5.decodePacket buf

/-- What `handle_ws_mqtt_session` makes of the binary frames that it reads, once it has these bytes. It stores no will. -/
def wsScript (settings : Settings) (name : String) : Bytes → List Bytes → List Action
  | _, [] => []
  | buf, data :: later =>
    match decodeFirstPacket (buf ++ data) with
    | .ok (some packet) =>
      match connectFields packet with
      | some c => c.welcome settings none (c.consumed (buf ++ data)) (buf ++ data) name later
      | none => []
    | .ok none => wsScript settings name (buf ++ data) later
    | .error _ => []

/-- What is due from a control on which the task has not come to its loop. -/
def Control.opening (settings : Settings) (name : String) : Control → List Bytes → List Action
  | .tcp => tcpScript settings name
  | .ws buf => wsScript settings name buf
  | _ => fun _ => []

/-- The rest of what is due is for the loop, or the task has ended on the way. -/
def Opens (settings : Settings) (due : List Bytes → List Action) (tr : Trace Action Reply) (c : Control) : Prop :=
  (∃ l, c.StandsIn l ∧ ∀ later, due later = deeds tr ++ l.script settings (l.buf ++ later.flatten)) ∨
    (∃ ok, c = .exited ok) ∧ ∀ later, deeds tr <+: due later

section
variable {settings : Settings} {c : ConnectFields} {username clientId : String} {due : List Bytes → List Action}
  {tr tr' : Trace Action Reply} {ctrl : Control}

theorem Opens.prepend {script : List Action} (h : Opens settings due tr ctrl) (htr' : deeds tr' = script) :
    Opens settings (fun later => script ++ due later) (tr' ++ tr) ctrl := by
  subst htr'
  cases h with
  | inl h =>
    obtain ⟨l, hl, hdue⟩ := h
    refine .inl ⟨l, hl, ?_⟩
    intro later
    rw [deeds_append, List.append_assoc, ← hdue]
  | inr h =>
    obtain ⟨hexited, hdue⟩ := h
    refine .inr ⟨hexited, ?_⟩
    intro later
    rw [deeds_append]
    exact (List.prefix_append_right_inj (deeds tr')).mpr (hdue later)

theorem registerSession_opens : Ensures (fun tr clientId => clientId = c.idFor (named tr) ∧ deeds tr = [.sessionsInsert
      clientId (SessionState.new clientId c.version c.cleanSession c.keepAlive (some username))])
    (registerSession c username) := by
  unfold registerSession
  cases hempty : c.clientId.isEmpty with
  | true =>
    apply ensures_ask
    intro id
    apply ensures_run
    intro _
    apply ensures_run
    intro _
    apply ensures_run
    intro _
    refine .ret ⟨?_, rfl⟩
    rw [ConnectFields.idFor, if_pos hempty]
    rfl
  | false =>
    apply ensures_run
    intro _
    apply ensures_run
    intro _
    apply ensures_run
    intro _
    refine .ret ⟨?_, rfl⟩
    rw [ConnectFields.idFor, hempty]
    rfl

theorem connack_opens {rest : Broker Control}
    (hrest : Ensures (fun tr ctrl => generated tr = [] ∧ Opens settings due tr ctrl) rest) :
    Ensures (fun tr ctrl => generated tr = [] ∧
        Opens settings (fun later => [.write .connack (sentBytes (acceptedConnack c.version))] ++ due later) tr ctrl) (do
      if ← writePacket .connack (acceptedConnack c.version) then rest
      else return .exited false) := by
  apply (writePacket_ensures (encodePacket_sentBytes (acceptedConnack c.version))).seq
  rintro tr sent rfl
  cases sent with
  | false => exact .ret ⟨rfl, .inr ⟨⟨false, rfl⟩, fun _ => List.prefix_append _ _⟩⟩
  | true =>
    apply hrest.mono
    rintro tr ctrl ⟨hgenerated, hopens⟩
    exact ⟨hgenerated, hopens.prepend rfl⟩

theorem opens_of_loop {l : ConnLoop} {tr : Trace Action Reply} (hl : ctrl.StandsIn l) (htr : deeds tr = []) :
    Opens settings (fun later => l.script settings (l.buf ++ later.flatten)) tr ctrl := by
  refine .inl ⟨l, hl, ?_⟩
  intro later
  rw [htr]
  rfl

theorem opens_of_exit {tr : Trace Action Reply} {ok : Bool} (htr : deeds tr = []) : Opens settings due tr (.exited ok) := by
  refine .inr ⟨⟨ok, rfl⟩, ?_⟩
  intro later
  rw [htr]
  exact List.nil_prefix

theorem saveSession_opens {rest : Broker Control}
    (hrest : Ensures (fun tr ctrl => generated tr = [] ∧ Opens settings due tr ctrl) rest) :
    Ensures (fun tr ctrl => generated tr = [] ∧ Opens settings (fun later => [.sendEvent (c.saved clientId username)] ++
        ([.write .connack (sentBytes (acceptedConnack c.version))] ++ due later)) tr ctrl) (do
      saveSession clientId c username
      if ← writePacket .connack (acceptedConnack c.version) then rest
      else return .exited false) := by
  unfold saveSession
  apply ensures_run
  intro r
  have hconnack := connack_opens (c := c) hrest
  apply hconnack.mono
  rintro tr ctrl ⟨hgenerated, hopens⟩
  have hevent : deeds [⟨.sendEvent (c.saved clientId username), r⟩] = [.sendEvent (c.saved clientId username)] := rfl
  exact ⟨hgenerated, hopens.prepend hevent⟩

theorem enterTcpLoop_opens (readBuf : Bytes) :
    Ensures (fun tr ctrl => generated tr = [] ∧ Opens settings (fun later => [.sendEvent (c.saved clientId username)] ++
        ([.write .connack (sentBytes (acceptedConnack c.version))] ++
          c.rest settings (Option.map Prod.snd <$> V3.decodePacket readBuf) readBuf clientId username later)) tr ctrl)
      (enterTcpLoop readBuf c clientId username) := by
  unfold enterTcpLoop
  apply saveSession_opens
  apply ensures_run
  intro _
  match V3.decodePacket readBuf with
  | .ok (some (p, size)) =>
    refine .ret ⟨rfl, ?_⟩
    exact opens_of_loop (.tcpLoop ⟨clientId, c.version, c.cleanSession, some username, readBuf.drop size⟩) rfl
  | .ok none => exact .ret ⟨rfl, opens_of_exit rfl⟩
  | .error _ => exact .ret ⟨rfl, opens_of_exit rfl⟩

theorem welcome_denied {reason : AuthErrorKind}
    (hauth : settings.authenticator.authenticate settings.config.allowAnonymous c.username c.password = .Denied reason)
    (will : Option WillMessage) (consumed : MqttResult (Option ℕ)) (buf : Bytes) (name : String) :
    c.welcome settings will consumed buf name = fun _ => [.write .connack (sentBytes (deniedConnack c.version reason))] := by
  funext later
  simp only [ConnectFields.welcome, hauth]

theorem denied_opens {reason : AuthErrorKind}
    (hauth : settings.authenticator.authenticate settings.config.allowAnonymous c.username c.password = .Denied reason)
    (will : Option WillMessage) (consumed : MqttResult (Option ℕ)) (buf : Bytes) :
    Ensures (fun tr ctrl => Opens settings (c.welcome settings will consumed buf (named tr)) tr ctrl) (do
      let sent ← writePacket .connack (deniedConnack c.version reason)
      return .exited sent) := by
  apply (writePacket_ensures (encodePacket_sentBytes (deniedConnack c.version reason))).seq
  rintro tr sent rfl
  simp only [welcome_denied hauth]
  cases sent with
  | false => exact .ret (.inr ⟨⟨false, rfl⟩, fun _ => List.prefix_rfl⟩)
  | true => exact .ret (.inr ⟨⟨true, rfl⟩, fun _ => List.prefix_rfl⟩)

theorem registered_opens {will : Option WillMessage} {consumed : MqttResult (Option ℕ)} {buf : Bytes}
    {rest : String → Broker Control}
    (hauth : settings.authenticator.authenticate settings.config.allowAnonymous c.username c.password = .Success username)
    (hrest : ∀ clientId, Ensures (fun tr ctrl => generated tr = [] ∧ Opens settings (fun later =>
      will.toList.flatMap (willDeeds clientId) ++ ([.sendEvent (c.saved clientId username)] ++
        ([.write .connack (sentBytes (acceptedConnack c.version))] ++
          c.rest settings consumed buf clientId username later))) tr ctrl) (rest clientId)) :
    Ensures (fun tr ctrl => Opens settings (c.welcome settings will consumed buf (named tr)) tr ctrl) (do
      let clientId ← registerSession c username
      rest clientId) := by
  apply registerSession_opens.seq
  rintro tr clientId ⟨rfl, hdeeds⟩
  apply (hrest _).mono
  rintro tr' ctrl ⟨hgenerated, hopens⟩
  have hwelcome : c.welcome settings will consumed buf (named tr) = fun later =>
      [.sessionsInsert (c.idFor (named tr))
        (SessionState.new (c.idFor (named tr)) c.version c.cleanSession c.keepAlive (some username))] ++
      (will.toList.flatMap (willDeeds (c.idFor (named tr))) ++ ([.sendEvent (c.saved (c.idFor (named tr)) username)] ++
        ([.write .connack (sentBytes (acceptedConnack c.version))] ++
          c.rest settings consumed buf (c.idFor (named tr)) username later))) := by
    funext later
    simp only [ConnectFields.welcome, hauth]
  rw [named_append_none hgenerated, hwelcome]
  exact hopens.prepend hdeeds

theorem storeWill_deeds (clientId : String) (will : WillMessage) :
    Ensures (fun tr _ => generated tr = [] ∧ deeds tr = willDeeds clientId will) (storeWill clientId will) := by
  unfold storeWill
  apply ensures_run
  intro _
  exact ensures_run_last fun _ => ⟨rfl, rfl⟩

theorem acceptTcp_opens (readBuf : Bytes) :
    Ensures (fun tr ctrl => Opens settings
        (c.welcome settings c.will (Option.map Prod.snd <$> V3.decodePacket readBuf) readBuf (named tr)) tr ctrl)
      (acceptTcp settings readBuf c) := by
  unfold acceptTcp
  cases hauth : settings.authenticator.authenticate settings.config.allowAnonymous c.username c.password with
  | Denied reason => exact denied_opens hauth _ _ _
  | Success username =>
    apply registered_opens hauth
    intro clientId
    cases c.will with
    | none =>
      apply (enterTcpLoop_opens readBuf).mono
      rintro tr ctrl ⟨hgenerated, hopens⟩
      exact ⟨hgenerated, hopens⟩
    | some will =>
      apply (storeWill_deeds clientId will).seq
      rintro tr _ ⟨hnone, hwill⟩
      apply (enterTcpLoop_opens readBuf).mono
      rintro tr' ctrl ⟨hgenerated, hopens⟩
      refine ⟨?_, ?_⟩
      · rw [generated_append, hnone, hgenerated]
        rfl
      · exact hopens.prepend (hwill.trans (List.append_nil _).symm)

theorem acceptWs_opens (buf : Bytes) :
    Ensures (fun tr ctrl => Opens settings (c.welcome settings none (c.consumed buf) buf (named tr)) tr ctrl)
      (acceptWs settings buf c) := by
  unfold acceptWs
  cases hauth : settings.authenticator.authenticate settings.config.allowAnonymous c.username c.password with
  | Denied reason => exact denied_opens hauth _ _ _
  | Success username =>
    apply registered_opens hauth
    intro clientId
    apply saveSession_opens
    have hrest : ∀ consumed, Ensures (fun tr ctrl => generated tr = [] ∧
        Opens settings (c.rest settings consumed buf clientId username) tr ctrl) (match consumed with
      | .ok (some size) => do
        run (.connectionsInsert clientId)
        return Control.wsLoop ⟨clientId, c.version, c.cleanSession, some username, buf.drop size⟩
      | _ => return Control.exited false) := by
      intro consumed
      match consumed with
      | .ok (some size) =>
        apply ensures_run
        intro _
        refine .ret ⟨rfl, ?_⟩
        exact opens_of_loop (.wsLoop ⟨clientId, c.version, c.cleanSession, some username, buf.drop size⟩) rfl
      | .ok none => exact .ret ⟨rfl, opens_of_exit rfl⟩
      | .error _ => exact .ret ⟨rfl, opens_of_exit rfl⟩
    exact hrest (c.consumed buf)

def Action.brings : Action → Bool
  | .read | .wsNext | .selectTcp | .selectWs => true
  | _ => false

theorem heard_of_none {tr : Trace Action Reply} (h : ∀ e ∈ tr, e.1.brings = false) : taken tr = [] ∧ arrived tr = [] := by
  constructor
  · apply taken_of_none
    intro e he
    have ha := h e he
    obtain ⟨a, r⟩ := e
    cases a <;> first | rfl | cases ha
  · apply List.filterMap_eq_nil_iff.mpr
    rintro ⟨a, r⟩ he
    have ha := h _ he
    cases a <;> first | rfl | cases ha

theorem brings_of_accepting {a : Action} (h : Accepting a) : a.brings = false := by
  cases a <;> first | rfl | exact h.elim

theorem acceptTcp_quiet (settings : Settings) (c : ConnectFields) (readBuf : Bytes) :
    Only (fun a => a.brings = false) (acceptTcp settings readBuf c) := by
  apply acceptTcp_only
  · exact fun _ => brings_of_accepting
  · intro _ _ _ _ clientId
    exact only_run rfl (only_run_last rfl)

theorem acceptTcp_heard {readBuf : Bytes} (h : Exec (acceptTcp settings readBuf c) tr ctrl) :
    taken tr = [] ∧ arrived tr = [] :=
  heard_of_none ((acceptTcp_quiet settings c readBuf).ensures.of_exec h)

theorem acceptWs_heard {buf : Bytes} (h : Exec (acceptWs settings buf c) tr ctrl) : taken tr = [] ∧ arrived tr = [] :=
  heard_of_none (((acceptWs_accepting buf).mono fun _ => brings_of_accepting).ensures.of_exec h)

theorem tcp_opens (h : Exec (handleConnection settings) tr ctrl) : arrived tr = [] ∧
    Opens settings (fun later => tcpScript settings (named tr) (taken tr ++ later)) tr ctrl := by
  have hleft : ∀ (r : Received) ok, arrived [⟨.read, r⟩] = [] ∧
      Opens settings (fun later => tcpScript settings "" (taken [⟨.read, r⟩] ++ later)) [⟨.read, r⟩] (.exited ok) :=
    fun r ok => ⟨rfl, opens_of_exit rfl⟩
  unfold handleConnection at h
  obtain ⟨r, tail, rfl, htail⟩ := exec_act_iff.mp h
  match r with
  | .failed =>
    obtain ⟨rfl, rfl⟩ := exec_ret_iff.mp htail
    exact hleft _ _
  | .closed =>
    obtain ⟨rfl, rfl⟩ := exec_ret_iff.mp htail
    exact hleft _ _
  | .data readBuf =>
    rw [exec_ask_iff] at h
    cases hfirst : decodeFirstPacket readBuf with
    | error _ =>
      simp only [hfirst] at h
      obtain ⟨rfl, rfl⟩ := exec_ret_iff.mp h
      exact hleft _ _
    | ok found =>
      cases found with
      | none =>
        simp only [hfirst] at h
        obtain ⟨rfl, rfl⟩ := exec_ret_iff.mp h
        exact hleft _ _
      | some packet =>
        cases hfields : connectFields packet with
        | none =>
          simp only [hfirst, hfields] at h
          obtain ⟨rfl, rfl⟩ := exec_ret_iff.mp h
          exact hleft _ _
        | some c =>
          simp only [hfirst, hfields] at h
          obtain ⟨htaken, harrived⟩ := acceptTcp_heard h
          refine ⟨harrived, ?_⟩
          have hdue : (fun later => tcpScript settings (named tail) (readBuf :: (taken tail ++ later))) =
              c.welcome settings c.will (Option.map Prod.snd <$> V3.decodePacket readBuf) readBuf (named tail) := by
            funext later
            rw [htaken, List.nil_append, tcpScript, hfirst]
            simp only [hfields]
          change Opens settings (fun later => tcpScript settings (named tail) (readBuf :: (taken tail ++ later)))
            (⟨.read, .data readBuf⟩ :: tail) ctrl
          rw [hdue]
          exact (acceptTcp_opens readBuf).of_exec h

def Gathers (settings : Settings) (buf : Bytes) (tr : Trace Action Reply) (ctrl : Control) : Prop :=
  ∃ buf', ctrl = .ws buf' ∧ generated tr = [] ∧ deeds tr = [] ∧
    ∀ name later, wsScript settings name buf (taken tr ++ later) = wsScript settings name buf' later

theorem ws_opens {buf : Bytes} (h : Exec (handleWsMqttSession settings buf) tr ctrl) : arrived tr = [] ∧
    (Gathers settings buf tr ctrl ∨
      Opens settings (fun later => wsScript settings (named tr) buf (taken tr ++ later)) tr ctrl) := by
  have hleft : ∀ (item : WsItem) ok, arrived [⟨.wsNext, item⟩] = [] ∧ (Gathers settings buf [⟨.wsNext, item⟩] (.exited ok) ∨
      Opens settings (fun later => wsScript settings "" buf (taken [⟨.wsNext, item⟩] ++ later)) [⟨.wsNext, item⟩]
        (.exited ok)) :=
    fun item ok => ⟨rfl, .inr (opens_of_exit rfl)⟩
  unfold handleWsMqttSession at h
  obtain ⟨item, tail, rfl, htail⟩ := exec_act_iff.mp h
  match item with
  | .failed =>
    obtain ⟨rfl, rfl⟩ := exec_ret_iff.mp htail
    exact hleft _ _
  | .ended =>
    obtain ⟨rfl, rfl⟩ := exec_ret_iff.mp htail
    exact hleft _ _
  | .frame .close =>
    obtain ⟨rfl, rfl⟩ := exec_ret_iff.mp htail
    exact hleft _ _
  | .frame (.ping bytes) =>
    obtain ⟨r, tail', rfl, hret⟩ := exec_act_iff.mp htail
    obtain ⟨rfl, rfl⟩ := exec_ret_iff.mp hret
    exact ⟨rfl, .inl ⟨buf, rfl, rfl, rfl, fun _ _ => rfl⟩⟩
  | .frame .pong =>
    obtain ⟨rfl, rfl⟩ := exec_ret_iff.mp htail
    exact ⟨rfl, .inl ⟨buf, rfl, rfl, rfl, fun _ _ => rfl⟩⟩
  | .frame .other =>
    obtain ⟨rfl, rfl⟩ := exec_ret_iff.mp htail
    exact ⟨rfl, .inl ⟨buf, rfl, rfl, rfl, fun _ _ => rfl⟩⟩
  | .frame (.binary data) =>
    rw [exec_ask_iff] at h
    cases hfirst : decodeFirstPacket (buf ++ data) with
    | error _ =>
      simp only [hfirst] at h
      obtain ⟨rfl, rfl⟩ := exec_ret_iff.mp h
      exact hleft _ _
    | ok found =>
      cases found with
      | none =>
        simp only [hfirst] at h
        obtain ⟨rfl, rfl⟩ := exec_ret_iff.mp h
        refine ⟨rfl, .inl ⟨buf ++ data, rfl, rfl, rfl, ?_⟩⟩
        intro name later
        change wsScript settings name buf (data :: later) = _
        rw [wsScript, hfirst]
      | some packet =>
        cases hfields : connectFields packet with
        | none =>
          simp only [hfirst, handleConnectAfterDecode, hfields] at h
          obtain ⟨rfl, rfl⟩ := exec_ret_iff.mp h
          exact hleft _ _
        | some c =>
          simp only [hfirst, handleConnectAfterDecode, hfields] at h
          obtain ⟨htaken, harrived⟩ := acceptWs_heard h
          refine ⟨harrived, .inr ?_⟩
          have hdue : (fun later => wsScript settings (named tail) buf (data :: (taken tail ++ later))) =
              c.welcome settings none (c.consumed (buf ++ data)) (buf ++ data) (named tail) := by
            funext later
            rw [htaken, List.nil_append, wsScript, hfirst]
            simp only [hfields]
          change Opens settings (fun later => wsScript settings (named tail) buf (data :: (taken tail ++ later)))
            (⟨.wsNext, .frame (.binary data)⟩ :: tail) ctrl
          rw [hdue]
          exact (acceptWs_opens (buf ++ data)).of_exec h

end

end AtomMqtt
