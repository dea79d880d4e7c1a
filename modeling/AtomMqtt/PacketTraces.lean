import AtomMqtt.BrokerSystem

set_option autoImplicit false

/-! What is performed for one packet. -/
namespace AtomMqtt
open Programs

theorem encodePacket_ok (packet : MqttPacket) : ∃ bytes, encodePacket packet = .ok bytes := by
  cases packet with
  | V311 p => cases p <;> exact ⟨_, rfl⟩
  | V5 p => cases p <;> exact ⟨_, rfl⟩

theorem encodePacket_sentBytes (packet : MqttPacket) : encodePacket packet = .ok (sentBytes packet) := by
  obtain ⟨bytes, hbytes⟩ := encodePacket_ok packet
  rw [sentBytes, hbytes]
  rfl

def sentMetrics (bytes : Bytes) : Trace Action Reply :=
  [⟨.metrics .incrementPacketsSent, ()⟩, ⟨.metrics (.incrementBytesSent bytes.length), ()⟩]

theorem writePacket_ensures {what : Outgoing} {packet : MqttPacket} {bytes : Bytes}
    (hencode : encodePacket packet = .ok bytes) :
    Ensures (fun tr sent => tr = ⟨.write what bytes, sent⟩ :: if sent then sentMetrics bytes else [])
      (writePacket what packet) := by
  unfold writePacket
  rw [hencode]
  apply ensures_ask
  intro sent
  cases sent with
  | false => exact .ret rfl
  | true =>
    apply ensures_run
    intro _
    apply ensures_run
    intro _
    exact .ret rfl

/-- What a packet of a client makes its handler do, apart from the replay of retained messages. -/
def PacketAction (clientId : String) : Action → Prop
  | .sessionsSetDisconnected c | .willsRemove c | .subscribe c _ _ | .unsubscribe c _ => c = clientId
  | .sendRouter (.Publish _ _ _ _ source) => source = clientId
  | .retainedInsert _ _ | .retainedRemove _ | .sendEvent _ | .syncSubscriptionsActive
  | .metrics .incrementMessagesReceived | .metrics (.incrementBytesReceived _) => True
  | _ => False

/-- A property of traces that holds of each packet action and of what is put together of its parts. -/
structure Composed (clientId : String) (P : Trace Action Reply → Prop) : Prop where
  nil : P []
  append : ∀ {tr tr'}, P tr → P tr' → P (tr ++ tr')
  action : ∀ {a} r, PacketAction clientId a → P [⟨a, r⟩]
  replay : ∀ filter, Ensures (fun tr _ => P tr) (replayRetained clientId filter)

section
variable {settings : Settings} {clientId username : String} {P : Trace Action Reply → Prop}

theorem Composed.cons (h : Composed clientId P) {a : Action} (r : Reply a) (ha : PacketAction clientId a)
    {tr : Trace Action Reply} (htr : P tr) : P (⟨a, r⟩ :: tr) := h.append (h.action r ha) htr

theorem Composed.run (h : Composed clientId P) {α : Type} {a : Action} {f : Unit → Broker α} {Q : α → Prop}
    (ha : PacketAction clientId a) (hf : Ensures (fun tr x => P tr ∧ Q x) (f ())) :
    Ensures (fun tr x => P tr ∧ Q x) (run a >>= f) := by
  apply ensures_run
  intro r
  apply hf.mono
  intro tr x htr
  exact ⟨h.cons r ha htr.1, htr.2⟩

theorem Composed.runLast (h : Composed clientId P) {a : Action} (ha : PacketAction clientId a) :
    Ensures (fun tr _ => P tr ∧ True) (AtomMqtt.run a) := ensures_run_last fun r => ⟨h.action r ha, trivial⟩

theorem Composed.seq (h : Composed clientId P) {α β : Type} {p : Broker α} {f : α → Broker β} {Q : β → Prop}
    (hp : Ensures (fun tr _ => P tr) p) (hf : ∀ x, Ensures (fun tr y => P tr ∧ Q y) (f x)) :
    Ensures (fun tr y => P tr ∧ Q y) (p >>= f) := by
  apply Ensures.seq hp
  intro tr x htr
  apply (hf x).mono
  intro tr' y htr'
  exact ⟨h.append htr htr'.1, htr'.2⟩

theorem Composed.ret (h : Composed clientId P) {α : Type} {Q : α → Prop} {x : α} (hx : Q x) :
    Ensures (fun tr y => P tr ∧ Q y) (pure x : Broker α) := .ret ⟨h.nil, hx⟩

theorem Composed.acceptPublish (h : Composed clientId P) {topic : String} {payload : Bytes} {qos : QoS}
    {retain : Bool} : Ensures (fun tr _ => P tr ∧ True) (acceptPublish clientId topic payload qos retain) := by
  unfold AtomMqtt.acceptPublish
  apply h.run
  · rfl
  cases retain with
  | false => exact h.ret trivial
  | true =>
    cases payload.isEmpty with
    | true =>
      apply h.run
      · trivial
      apply h.runLast
      trivial
    | false =>
      apply h.run
      · trivial
      apply h.runLast
      trivial

theorem Composed.acceptSubscription (h : Composed clientId P) (filter : String) (qos : QoS) :
    Ensures (fun tr _ => P tr ∧ True) (acceptSubscription clientId filter qos) := by
  unfold AtomMqtt.acceptSubscription
  apply h.run
  · rfl
  apply h.run
  · trivial
  exact (h.replay filter).mono fun tr _ htr => ⟨htr, trivial⟩

theorem Composed.subscribeFilters (h : Composed clientId P) {γ δ : Type} {filters : List γ} {path : γ → String}
    {qos : γ → QoS} {denied : δ} {granted : γ → δ} : Ensures (fun tr _ => P tr) (filters.mapM fun filter =>
      if !settings.acl.authorizeSubscribe username (path filter) then (return denied : Broker δ)
      else do
        AtomMqtt.acceptSubscription clientId (path filter) (qos filter)
        return granted filter) := by
  apply Ensures.mapM h.nil h.append
  intro filter _
  cases settings.acl.authorizeSubscribe username (path filter) with
  | false => exact .ret h.nil
  | true =>
    have hsub := (h.acceptSubscription (path filter) (qos filter)).mono fun tr _ htr => htr.1
    exact (h.seq (Q := fun _ => True) hsub fun _ => h.ret trivial).mono fun tr _ htr => htr.1

theorem Composed.removeSubscriptions (h : Composed clientId P) {filters : List String} :
    Ensures (fun tr _ => P tr) (removeSubscriptions clientId filters) := by
  unfold AtomMqtt.removeSubscriptions
  have hloop : Ensures (fun tr _ => P tr) (filters.forM fun filter => do
      AtomMqtt.run (.unsubscribe clientId filter)
      sendEvent (.RemoveSubscription clientId filter)) := by
    apply Ensures.forM h.nil h.append
    intro filter _
    apply Ensures.mono (P := fun tr _ => P tr ∧ True)
    · apply h.run
      · rfl
      apply h.runLast
      trivial
    · intro tr _ htr
      exact htr.1
  apply hloop.seq
  intro tr _ htr
  exact (h.runLast (a := .syncSubscriptionsActive) trivial).mono fun tr' _ htr' => h.append htr htr'.1

/-- Both processors return a result, and their traces are made of packet actions. -/
def Processed (result : MqttResult (Option MqttPacket)) : Prop := ∃ response, result = .ok response

theorem Composed.processV3Packet (h : Composed clientId P) (packet : V3.MqttPacketV3) :
    Ensures (fun tr result => P tr ∧ Processed result) (processV3Packet settings packet clientId username) := by
  cases packet with
  | Publish p =>
    unfold AtomMqtt.processV3Packet
    apply h.run
    · trivial
    apply h.run
    · trivial
    cases settings.acl.authorizePublish username p.topic with
    | false => exact h.ret ⟨_, rfl⟩
    | true => exact h.seq (h.acceptPublish.mono fun tr _ htr => htr.1) fun _ => h.ret ⟨_, rfl⟩
  | Subscribe p =>
    unfold AtomMqtt.processV3Packet
    apply h.seq h.subscribeFilters
    intro returnCodes
    apply h.run
    · trivial
    exact h.ret ⟨_, rfl⟩
  | Unsubscribe p =>
    unfold AtomMqtt.processV3Packet
    exact h.seq h.removeSubscriptions fun _ => h.ret ⟨_, rfl⟩
  | Disconnect =>
    unfold AtomMqtt.processV3Packet
    apply h.run
    · rfl
    apply h.run
    · rfl
    apply h.run
    · trivial
    exact h.ret ⟨_, rfl⟩
  | _ => exact h.ret ⟨_, rfl⟩

theorem Composed.processV5Packet (h : Composed clientId P) (packet : V5.MqttPacketV5) :
    Ensures (fun tr result => P tr ∧ Processed result) (processV5Packet settings packet clientId username) := by
  cases packet with
  | Publish p =>
    unfold AtomMqtt.processV5Packet
    apply h.run
    · trivial
    apply h.run
    · trivial
    cases settings.acl.authorizePublish username p.topic with
    | false => exact h.ret ⟨_, rfl⟩
    | true => exact h.seq (h.acceptPublish.mono fun tr _ htr => htr.1) fun _ => h.ret ⟨_, rfl⟩
  | Subscribe p =>
    unfold AtomMqtt.processV5Packet
    apply h.seq h.subscribeFilters
    intro reasonCodes
    apply h.run
    · trivial
    exact h.ret ⟨_, rfl⟩
  | Unsubscribe p =>
    unfold AtomMqtt.processV5Packet
    exact h.seq h.removeSubscriptions fun _ => h.ret ⟨_, rfl⟩
  | Disconnect p =>
    unfold AtomMqtt.processV5Packet
    apply h.run
    · rfl
    cases p.reasonCode != .DisconnectWithWillMessage with
    | false => exact h.ret ⟨_, rfl⟩
    | true =>
      apply h.run
      · rfl
      apply h.run
      · trivial
      exact h.ret ⟨_, rfl⟩
  | _ => exact h.ret ⟨_, rfl⟩

theorem Composed.processPacket (h : Composed clientId P) (packet : MqttPacket) :
    Ensures (fun tr result => P tr ∧ Processed result) (processPacket settings packet clientId username) := by
  cases packet with
  | V311 p => exact h.processV3Packet p
  | V5 p => exact h.processV5Packet p

end

def MqttPacket.publish : MqttPacket → Option V3.PublishPacket
  | .V311 (.Publish p) => some p
  | .V5 (.Publish p) =>
    some { topic := p.topic, payload := p.payload, qos := p.qos, retain := p.retain, packetId := p.packetId }
  | _ => none

/-- What a packet that is no PUBLISH may make its handler do. -/
def LocalAction (clientId : String) : Action → Prop
  | .sessionsSetDisconnected c | .willsRemove c | .subscribe c _ _ | .unsubscribe c _ | .forward c _
  | .sendEvent (.SaveSubscription c _ _) | .sendEvent (.RemoveSubscription c _) | .sendEvent (.RemoveWill c) =>
    c = clientId
  | .syncSubscriptionsActive | .retainedIter => True
  | _ => False

section
variable {settings : Settings} {clientId username : String} {N : Action → Prop}

theorem only_run {α : Type} {a : Action} {f : Unit → Broker α} (h : N a) (hf : Only N (f ())) :
    Only N (run a >>= f) := .act h fun _ => hf

theorem only_run_last {a : Action} (h : N a) : Only N (run a) := .act h fun _ => .ret _

theorem only_ask {α : Type} {a : Action} {f : Reply a → Broker α} (h : N a) (hf : ∀ r, Only N (f r)) :
    Only N (ask a >>= f) := .act h hf

theorem writePacket_only {what : Outgoing} (hwrite : ∀ data, N (.write what data)) (hmetrics : ∀ op, N (.metrics op))
    (packet : MqttPacket) : Only N (writePacket what packet) := by
  unfold writePacket
  cases encodePacket packet with
  | error _ => exact .ret _
  | ok encoded =>
    apply only_ask
    · exact hwrite encoded
    intro written
    cases written with
    | false => exact .ret _
    | true => exact only_run (hmetrics _) (only_run (hmetrics _) (.ret _))

theorem publish_v5 {p : V5.PublishPacket} : MqttPacket.publish (.V5 (.Publish p)) = some
    { topic := p.topic, payload := p.payload, qos := p.qos, retain := p.retain, packetId := p.packetId } := rfl

theorem publish_only {packet : MqttPacket} {p : V3.PublishPacket} (hpublish : packet.publish = some p)
    (hmetrics : ∀ op, N (.metrics op))
    (haccept : settings.acl.authorizePublish username p.topic = true →
      Only N (acceptPublish clientId p.topic p.payload p.qos p.retain)) :
    Only N (processPacket settings packet clientId username) := by
  cases packet with
  | V311 packet =>
    cases packet with
    | Publish q =>
      cases hpublish
      apply only_run
      · exact hmetrics _
      apply only_run
      · exact hmetrics _
      cases hacl : settings.acl.authorizePublish username p.topic with
      | false => exact .ret _
      | true => exact (haccept hacl).bind fun _ => .ret _
    | _ => cases hpublish
  | V5 packet =>
    cases packet with
    | Publish q =>
      cases hpublish
      apply only_run
      · exact hmetrics _
      apply only_run
      · exact hmetrics _
      cases hacl : settings.acl.authorizePublish username q.topic with
      | false => exact .ret _
      | true => exact (haccept hacl).bind fun _ => .ret _
    | _ => cases hpublish

theorem replayRetained_only (hN : ∀ a, LocalAction clientId a → (∀ c, a ≠ .willsRemove c) → N a) (filter : String) :
    Only N (replayRetained clientId filter) := by
  unfold replayRetained
  apply only_ask
  · exact hN _ trivial fun _ => nofun
  intro items
  apply Only.forM
  intro item _
  split
  · exact only_run_last (hN _ rfl fun _ => nofun)
  · exact .ret _

theorem acceptSubscription_only (hN : ∀ a, LocalAction clientId a → (∀ c, a ≠ .willsRemove c) → N a) (filter : String)
    (qos : QoS) : Only N (acceptSubscription clientId filter qos) := by
  unfold acceptSubscription
  apply only_run
  · exact hN _ rfl fun _ => nofun
  apply only_run
  · exact hN _ rfl fun _ => nofun
  exact replayRetained_only hN filter

theorem subscribeFilters_only (hN : ∀ a, LocalAction clientId a → (∀ c, a ≠ .willsRemove c) → N a) {γ δ : Type}
    {filters : List γ} {path : γ → String} {qos : γ → QoS} {denied : δ} {granted : γ → δ} :
    Only N (filters.mapM fun filter =>
      if !settings.acl.authorizeSubscribe username (path filter) then (return denied : Broker δ)
      else do
        acceptSubscription clientId (path filter) (qos filter)
        return granted filter) := by
  apply Only.mapM
  intro filter _
  cases settings.acl.authorizeSubscribe username (path filter) with
  | false => exact .ret _
  | true => exact (acceptSubscription_only hN _ _).bind fun _ => .ret _

theorem removeSubscriptions_only (hN : ∀ a, LocalAction clientId a → (∀ c, a ≠ .willsRemove c) → N a)
    (filters : List String) : Only N (removeSubscriptions clientId filters) := by
  unfold removeSubscriptions
  apply Only.bind
  · apply Only.forM
    intro filter _
    apply only_run
    · exact hN _ rfl fun _ => nofun
    exact only_run_last (hN _ rfl fun _ => nofun)
  · intro _
    exact only_run_last (hN _ trivial fun _ => nofun)

theorem processPacket_only {packet : MqttPacket} (h : packet.publish = none) :
    Only (LocalAction clientId) (processPacket settings packet clientId username) := by
  cases packet with
  | V311 p =>
    cases p with
    | Publish p => cases h
    | Subscribe p => exact (subscribeFilters_only fun _ h _ => h).bind fun _ => only_run trivial (.ret _)
    | Unsubscribe p => exact (removeSubscriptions_only (fun _ h _ => h) _).bind fun _ => .ret _
    | Disconnect => exact only_run rfl (only_run rfl (only_run rfl (.ret _)))
    | _ => exact .ret _
  | V5 p =>
    cases p with
    | Publish p => cases h
    | Subscribe p => exact (subscribeFilters_only fun _ h _ => h).bind fun _ => only_run trivial (.ret _)
    | Unsubscribe p => exact (removeSubscriptions_only (fun _ h _ => h) _).bind fun _ => .ret _
    | Disconnect p =>
      apply only_run
      · rfl
      cases p.reasonCode != .DisconnectWithWillMessage with
      | false => exact .ret _
      | true => exact only_run rfl (only_run rfl (.ret _))
    | _ => exact .ret _

end

/-- What the router does with a message that it has taken; none of it has to wait. -/
def RouterAction : Action → Prop
  | .willsRemove _ | .lookup _ | .metrics _ | .forward _ _ | .forwardWeb _ _ | .retainedInsert _ _ | .unsubscribeAll _
  | .sessionsRemove _ | .sessionsSetDisconnected _ | .syncSubscriptionsActive | .sendEvent _ => True
  | _ => False

theorem forwards_only {N : Action → Prop} {packet : MqttPacket} {web : WebMessage} {subscribers : List Subscription}
    {rest : Broker Unit} (hforward : ∀ clientId, N (.forward clientId packet))
    (hweb : ∀ clientId, N (.forwardWeb clientId web)) (hrest : Only N rest) : Only N (do
      subscribers.forM fun sub => run (.forward sub.clientId packet)
      subscribers.forM fun sub => run (.forwardWeb sub.clientId web)
      rest) := by
  apply Only.bind
  · exact Only.forM fun sub _ => only_run_last (hforward sub.clientId)
  · intro _
    apply Only.bind
    · exact Only.forM fun sub _ => only_run_last (hweb sub.clientId)
    · intro _
      exact hrest

theorem routePublish_only {N : Action → Prop} {topic : String} {payload : Bytes} {qos : QoS} {retain : Bool}
    {sourceClient : String} (hlookup : N (.lookup topic)) (hmetrics : ∀ op, N (.metrics op))
    (hforward : ∀ clientId packet, N (.forward clientId packet)) (hweb : ∀ clientId web, N (.forwardWeb clientId web))
    (hretain : ∀ message, N (.retainedInsert topic message)) :
    Only N (routePublish topic payload qos retain sourceClient) := by
  apply only_ask
  · exact hlookup
  intro subscribers
  apply only_run
  · exact hmetrics _
  apply forwards_only (fun _ => hforward _ _) (fun _ => hweb _ _)
  cases retain with
  | false => exact .ret _
  | true => exact only_run_last (hretain _)

theorem deliverWill_only {N : Action → Prop} {clientId : String} {will : WillMessage} (hlookup : N (.lookup will.topic))
    (hforward : ∀ clientId packet, N (.forward clientId packet)) (hweb : ∀ clientId web, N (.forwardWeb clientId web))
    (hretain : ∀ message, N (.retainedInsert will.topic message)) (hevent : N (.sendEvent (.RemoveWill clientId))) :
    Only N (deliverWill clientId will) := by
  apply only_ask
  · exact hlookup
  intro subscribers
  apply forwards_only (fun _ => hforward _ _) (fun _ => hweb _ _)
  cases will.retain with
  | false => exact only_run_last hevent
  | true => exact only_run (hretain _) (only_run_last hevent)

theorem routeDisconnected_only (clientId : String) (cleanSession : Bool) :
    Only RouterAction (routeDisconnected clientId cleanSession) := by
  have hend : Only RouterAction (if cleanSession = true then (do
      run (.unsubscribeAll clientId)
      sendEvent (.RemoveClientSubscriptions clientId)
      run (.sessionsRemove clientId)
      sendEvent (.RemoveSession clientId)
      run .syncSubscriptionsActive : Broker Unit) else run (.sessionsSetDisconnected clientId)) := by
    cases cleanSession with
    | false => exact only_run_last trivial
    | true =>
      exact only_run trivial (only_run trivial (only_run trivial (only_run trivial (only_run_last trivial))))
  unfold routeDisconnected
  apply only_ask
  · trivial
  intro will
  cases will with
  | none => exact hend
  | some sent =>
    refine Only.bind ?_ fun _ => hend
    exact deliverWill_only trivial (fun _ _ => trivial) (fun _ _ => trivial) (fun _ => trivial) trivial

theorem routeMessage_only (message : BrokerMessage) : Only RouterAction (routeMessage message) := by
  cases message with
  | Publish topic payload qos retain sourceClient =>
    exact routePublish_only trivial (fun _ => trivial) (fun _ _ => trivial) (fun _ _ => trivial) fun _ => trivial
  | ClientDisconnected clientId cleanSession => exact routeDisconnected_only clientId cleanSession

/-- What a handler may do with a CONNECT but to store its will. -/
def Accepting : Action → Prop
  | .generateClientId | .sessionsSetDisconnected _ | .sessionsInsert _ _ | .connectionsInsert _ | .metrics _ | .write _ _
  | .sendEvent (.SaveSession _ _ _ _ _) => True
  | _ => False

section
variable {settings : Settings} {c : ConnectFields} {username : String}

theorem writePacket_accepting (what : Outgoing) (packet : MqttPacket) : Only Accepting (writePacket what packet) :=
  writePacket_only (fun _ => trivial) (fun _ => trivial) packet

theorem registerSession_accepting : Only Accepting (registerSession c username) := by
  have hrest : ∀ clientId, Only Accepting (do
      run (.sessionsSetDisconnected clientId)
      run (.sessionsInsert clientId
        (SessionState.new clientId c.version c.cleanSession c.keepAlive (some username)))
      metrics .incrementClientsConnected
      return clientId) := fun clientId =>
    only_run trivial (only_run trivial (only_run trivial (.ret _)))
  unfold registerSession
  cases c.clientId.isEmpty with
  | true => exact only_ask trivial fun id => hrest id
  | false => exact hrest c.clientId

theorem enterTcpLoop_accepting (readBuf : Bytes) (clientId : String) :
    Only Accepting (enterTcpLoop readBuf c clientId username) := by
  unfold enterTcpLoop
  apply only_run
  · trivial
  refine (writePacket_accepting _ _).bind fun written => ?_
  cases written with
  | false => exact .ret _
  | true =>
    apply only_run
    · trivial
    split <;> exact .ret _

theorem acceptTcp_only {N : Action → Prop} {readBuf : Bytes} (haccepting : ∀ a, Accepting a → N a)
    (hwill : ∀ username, settings.authenticator.authenticate settings.config.allowAnonymous c.username c.password =
      .Success username → ∀ will, c.will = some will → ∀ clientId, Only N (storeWill clientId will)) :
    Only N (acceptTcp settings readBuf c) := by
  unfold acceptTcp
  cases hauth : settings.authenticator.authenticate settings.config.allowAnonymous c.username c.password with
  | Denied reason => exact ((writePacket_accepting _ _).mono haccepting).bind fun _ => .ret _
  | Success username =>
    refine (registerSession_accepting.mono haccepting).bind fun clientId => ?_
    have henter : Only N (enterTcpLoop readBuf c clientId username) :=
      (enterTcpLoop_accepting readBuf clientId).mono haccepting
    cases hstored : c.will with
    | none => exact henter
    | some will => exact (hwill username hauth will hstored clientId).bind fun _ => henter

theorem acceptWs_accepting (buf : Bytes) : Only Accepting (acceptWs settings buf c) := by
  unfold acceptWs
  cases settings.authenticator.authenticate settings.config.allowAnonymous c.username c.password with
  | Denied reason => exact (writePacket_accepting _ _).bind fun _ => .ret _
  | Success username =>
    refine registerSession_accepting.bind fun clientId => only_run trivial ?_
    refine (writePacket_accepting _ _).bind fun written => ?_
    cases written with
    | false => exact .ret _
    | true =>
      rw [if_pos rfl]
      cases c.version <;> dsimp only <;> split
      · exact only_run trivial (.ret _)
      · exact .ret _
      · exact only_run trivial (.ret _)
      · exact .ret _

end

end AtomMqtt
