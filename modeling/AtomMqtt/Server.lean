import AtomMqtt.Action

set_option autoImplicit false

/-! The router, the processing of packets and the TCP connection handler. -/
namespace AtomMqtt
open Programs

def run (a : Action) : Broker Unit := do
  let _ ← Program.perform (R := Reply) a
  return ()

def ask (a : Action) : Broker (Reply a) := Program.perform a

section
variable {α : Type} {P : Trace Action Reply → α → Prop} {a : Action}

theorem ensures_run {f : Unit → Broker α} (h : ∀ r, Ensures (fun tr x => P (⟨a, r⟩ :: tr) x) (f ())) :
    Ensures P (run a >>= f) := .act h

theorem ensures_run_last {P : Trace Action Reply → Unit → Prop} (h : ∀ r, P [⟨a, r⟩] ()) : Ensures P (run a) :=
  .act fun r => .ret (h r)

theorem ensures_ask {f : Reply a → Broker α} (h : ∀ r, Ensures (fun tr x => P (⟨a, r⟩ :: tr) x) (f r)) :
    Ensures P (ask a >>= f) := .act h

theorem exec_ask_iff {f : Reply a → Broker α} {r : Reply a} {tr : Trace Action Reply} {x : α} :
    Exec (ask a >>= f) (⟨a, r⟩ :: tr) x ↔ Exec (f r) tr x := by
  constructor
  · intro h
    obtain ⟨r', tail, heq, htail⟩ := exec_act_iff.mp h
    cases heq
    exact htail
  · intro h
    exact .act a r h

end

def metrics (op : MetricsOp) : Broker Unit := run (.metrics op)

def sendEvent (event : PersistEvent) : Broker Unit := run (.sendEvent event)

def QoS.toI32 (qos : QoS) : ℤ := qos.toU8.toNat

/-- The PUBLISH that goes out to subscribers, of version 3.1.1 for every connection. -/
def publishPacket (topic : String) (payload : Bytes) (retain : Bool) : MqttPacket :=
  .V311 (.Publish { topic, payload, qos := .AtMostOnce, retain, packetId := none })

def routePublish (topic : String) (payload : Bytes) (qos : QoS) (retain : Bool) (sourceClient : String) :
    Broker Unit := do
  let subscribers ← ask (.lookup topic)
  metrics .incrementMessagesPublished
  subscribers.forM fun sub => run (.forward sub.clientId (publishPacket topic payload false))
  subscribers.forM fun sub => run (.forwardWeb sub.clientId (.Publish topic payload qos.toU8 sourceClient))
  if retain then run (.retainedInsert topic { topic, payload, qos })

def deliverWill (clientId : String) (will : WillMessage) : Broker Unit := do
  let subscribers ← ask (.lookup will.topic)
  subscribers.forM fun sub => run (.forward sub.clientId (publishPacket will.topic will.payload will.retain))
  subscribers.forM fun sub => run (.forwardWeb sub.clientId (.Will will.topic will.payload will.qos.toU8 clientId))
  if will.retain then
    run (.retainedInsert will.topic { topic := will.topic, payload := will.payload, qos := will.qos })
  sendEvent (.RemoveWill clientId)

def routeDisconnected (clientId : String) (cleanSession : Bool) : Broker Unit := do
  match ← ask (.willsRemove clientId) with
  | some (_, will) => deliverWill clientId will
  | none => pure ()
  if cleanSession then do
    run (.unsubscribeAll clientId)
    sendEvent (.RemoveClientSubscriptions clientId)
    run (.sessionsRemove clientId)
    sendEvent (.RemoveSession clientId)
    run .syncSubscriptionsActive
  else run (.sessionsSetDisconnected clientId)

def routeMessage : BrokerMessage → Broker Unit
  | .Publish topic payload qos retain sourceClient => routePublish topic payload qos retain sourceClient
  | .ClientDisconnected clientId cleanSession => routeDisconnected clientId cleanSession

/-- What both versions do with a PUBLISH that the rules allow, before they answer. -/
def acceptPublish (clientId topic : String) (payload : Bytes) (qos : QoS) (retain : Bool) : Broker Unit := do
  run (.sendRouter (.Publish topic payload qos retain clientId))
  if retain then
    if payload.isEmpty then do
      run (.retainedRemove topic)
      sendEvent (.RemoveRetained topic)
    else do
      run (.retainedInsert topic { topic, payload, qos })
      sendEvent (.SaveRetained topic payload qos.toI32)

/-- The retained messages that match a new subscription. The iterator goes through the map shard after
    shard; here it is read at once. -/
def replayRetained (clientId filter : String) : Broker Unit := do
  let topicFilter := TopicFilter.new filter
  let items ← ask .retainedIter
  items.forM fun item =>
    if topicFilter.matches item.topic && !item.payload.isEmpty then
      run (.forward clientId (publishPacket item.topic item.payload true))
    else pure ()

/-- What both versions do with a filter that the rules allow. -/
def acceptSubscription (clientId filter : String) (qos : QoS) : Broker Unit := do
  run (.subscribe clientId filter qos)
  sendEvent (.SaveSubscription clientId filter qos.toI32)
  replayRetained clientId filter

def removeSubscriptions (clientId : String) (filters : List String) : Broker Unit := do
  filters.forM fun filter => do
    run (.unsubscribe clientId filter)
    sendEvent (.RemoveSubscription clientId filter)
  run .syncSubscriptionsActive

def publishResponseV3 (p : V3.PublishPacket) : Option MqttPacket :=
  match p.qos, p.packetId with
  | .AtLeastOnce, some pid => some (.V311 (.PubAck { packetId := pid }))
  | .ExactlyOnce, some pid => some (.V311 (.PubRec { packetId := pid }))
  | _, _ => none

def processV3Packet (settings : Settings) (packet : V3.MqttPacketV3) (clientId username : String) :
    Broker (MqttResult (Option MqttPacket)) :=
  match packet with
  | .Publish p => do
    metrics .incrementMessagesReceived
    metrics (.incrementBytesReceived p.payload.length)
    if !settings.acl.authorizePublish username p.topic then return .ok none
    else do
      acceptPublish clientId p.topic p.payload p.qos p.retain
      return .ok (publishResponseV3 p)
  | .PubRec p => return .ok (some (.V311 (.PubRel { packetId := p.packetId })))
  | .PubRel p => return .ok (some (.V311 (.PubComp { packetId := p.packetId })))
  | .Subscribe p => do
    let returnCodes ← p.filters.mapM fun filter =>
      if !settings.acl.authorizeSubscribe username filter.path then return 0x80
      else do
        acceptSubscription clientId filter.path filter.qos
        return filter.qos.toU8
    let subackCodes := returnCodes.filterMap V3.SubAckReturnCode.fromU8
    run .syncSubscriptionsActive
    return .ok (some (.V311 (.SubAck { packetId := p.packetId, returnCodes := subackCodes })))
  | .Unsubscribe p => do
    removeSubscriptions clientId p.filters
    return .ok (some (.V311 (.UnsubAck { packetId := p.packetId })))
  | .PingReq => return .ok (some (.V311 .PingResp))
  | .Disconnect => do
    run (.sessionsSetDisconnected clientId)
    run (.willsRemove clientId)
    sendEvent (.RemoveWill clientId)
    return .ok none
  | _ => return .ok none

/-- The answer to a PUBLISH of version 5.0, with `Success` or `NotAuthorized`. -/
def publishResponseV5 (p : V5.PublishPacket) (reasonCode : V5.ReasonCode) : Option MqttPacket :=
  match p.qos, p.packetId with
  | .AtLeastOnce, some pid => some (.V5 (.PubAck { packetId := pid, reasonCode, properties := V5.Properties.new }))
  | .ExactlyOnce, some pid => some (.V5 (.PubRec { packetId := pid, reasonCode, properties := V5.Properties.new }))
  | _, _ => none

def processV5Packet (settings : Settings) (packet : V5.MqttPacketV5) (clientId username : String) :
    Broker (MqttResult (Option MqttPacket)) :=
  match packet with
  | .Publish p => do
    metrics .incrementMessagesReceived
    metrics (.incrementBytesReceived p.payload.length)
    if !settings.acl.authorizePublish username p.topic then return .ok (publishResponseV5 p .NotAuthorized)
    else do
      acceptPublish clientId p.topic p.payload p.qos p.retain
      return .ok (publishResponseV5 p .Success)
  | .PubRec p =>
    return .ok (some (.V5 (.PubRel { packetId := p.packetId, reasonCode := .Success,
                                     properties := V5.Properties.new })))
  | .PubRel p =>
    return .ok (some (.V5 (.PubComp { packetId := p.packetId, reasonCode := .Success,
                                      properties := V5.Properties.new })))
  | .Subscribe p => do
    let reasonCodes ← p.filters.mapM fun filter =>
      if !settings.acl.authorizeSubscribe username filter.path then return V5.ReasonCode.NotAuthorized
      else do
        acceptSubscription clientId filter.path filter.qos
        return V5.ReasonCode.Success
    run .syncSubscriptionsActive
    return .ok (some (.V5 (.SubAck { packetId := p.packetId, reasonCodes, properties := V5.Properties.new })))
  | .Unsubscribe p => do
    removeSubscriptions clientId p.filters
    let reasonCodes := p.filters.map fun _ => V5.ReasonCode.Success
    return .ok (some (.V5 (.UnsubAck { packetId := p.packetId, reasonCodes, properties := V5.Properties.new })))
  | .PingReq => return .ok (some (.V5 .PingResp))
  | .Disconnect p => do
    run (.sessionsSetDisconnected clientId)
    if p.reasonCode != .DisconnectWithWillMessage then do
      run (.willsRemove clientId)
      sendEvent (.RemoveWill clientId)
    return .ok none
  | _ => return .ok none

def processPacket (settings : Settings) (packet : MqttPacket) (clientId username : String) :
    Broker (MqttResult (Option MqttPacket)) :=
  match packet with
  | .V311 p => processV3Packet settings p clientId username
  | .V5 p => processV5Packet settings p clientId username

/-- What both handlers take from a CONNECT. -/
structure ConnectFields where
  clientId : String
  version : ProtocolVersion
  keepAlive : UInt16
  cleanSession : Bool
  username : Option String
  password : Option String
  will : Option WillMessage
  deriving DecidableEq, Repr

def connectFields : MqttPacket → Option ConnectFields
  | .V311 (.Connect connect) =>
    let will := connect.will.map fun w =>
      { clientId := "", topic := w.topic, payload := w.message, qos := w.qos, retain := w.retain, delayInterval := 0 }
    some { clientId := connect.clientId, version := .V311, keepAlive := connect.keepAlive,
           cleanSession := connect.cleanSession, username := connect.username, password := connect.password, will }
  | .V5 (.Connect connect) =>
    let will := connect.will.map fun w =>
      { clientId := "", topic := w.topic, payload := w.payload, qos := w.qos, retain := w.retain,
        delayInterval := w.delayInterval }
    some { clientId := connect.clientId, version := .V5, keepAlive := connect.keepAlive,
           cleanSession := connect.cleanStart, username := connect.username, password := connect.password, will }
  | _ => none

def deniedConnack (version : ProtocolVersion) (reason : AuthErrorKind) : MqttPacket :=
  match version with
  | .V311 => .V311 (.ConnAck { sessionPresent := false, returnCode := reason.toV3ReturnCode })
  | .V5 => .V5 (.ConnAck { sessionPresent := false, reasonCode := reason.toV5ReasonCode,
                           properties := V5.Properties.new })

def acceptedConnack (version : ProtocolVersion) : MqttPacket :=
  match version with
  | .V311 => .V311 (.ConnAck { sessionPresent := false, returnCode := .Accepted })
  | .V5 => .V5 (.ConnAck { sessionPresent := false, reasonCode := .Success, properties := V5.Properties.new })

/-- The local variables of a connection that has entered its packet loop. -/
structure ConnLoop where
  clientId : String
  version : ProtocolVersion
  cleanSession : Bool
  username : Option String
  buf : Bytes
  deriving DecidableEq, Repr

/-- Encodes a packet, writes it and counts it; `false` where the handler leaves with `?`. -/
def writePacket (what : Outgoing) (packet : MqttPacket) : Broker Bool :=
  match encodePacket packet with
  | .error _ => return false
  | .ok encoded => do
    if ← ask (.write what encoded) then do
      metrics .incrementPacketsSent
      metrics (.incrementBytesSent encoded.length)
      return true
    else return false

/-- The id, the mark on an existing session, the new session and its count. -/
def registerSession (c : ConnectFields) (username : String) : Broker String := do
  let clientId ← if c.clientId.isEmpty then ask .generateClientId else pure c.clientId
  run (.sessionsSetDisconnected clientId)
  run (.sessionsInsert clientId
    (SessionState.new clientId c.version c.cleanSession c.keepAlive (some username)))
  metrics .incrementClientsConnected
  return clientId

def storeWill (clientId : String) (will : WillMessage) : Broker Unit := do
  let will := { will with clientId }
  run (.willsInsert clientId will)
  sendEvent (.SaveWill clientId will.topic will.payload will.qos.toI32 will.retain will.delayInterval)

def saveSession (clientId : String) (c : ConnectFields) (username : String) : Broker Unit :=
  let protoVer : ℤ := match c.version with
    | .V5 => 5
    | _ => 4
  sendEvent (.SaveSession clientId protoVer c.cleanSession c.keepAlive (some username))

/-- The next turn of a task, or its end, with `Ok(())` or not. -/
inductive Control where
  | router
  | tcp
  | tcpLoop (l : ConnLoop)
  | ws (buf : Bytes)
  | wsLoop (l : ConnLoop)
  | wsLost (l : ConnLoop)
  | webSession (subscriberId : String) (activeSubscriptions : List String)
  | publishRequest (topic : String) (payload : String) (qos : UInt8) (retain : Bool)
  | deleteRetainedRequest (topic : String)
  | disconnectRequest (clientId : String)
  | exited (ok : Bool)
  deriving DecidableEq, Repr

/-- The cleanup after the packet loop, the same in both handlers. -/
def cleanup (l : ConnLoop) : Broker Control := do
  run (.connectionsRemove l.clientId)
  metrics .decrementClientsConnected
  run (.sessionsSetDisconnected l.clientId)
  run (.sendRouter (.ClientDisconnected l.clientId l.cleanSession))
  return .exited true

/-- What a handler does with a decoded packet; `again` is its loop. -/
def handlePacket (settings : Settings) (l : ConnLoop) (packet : MqttPacket) (size : ℕ)
    (again : ConnLoop → Control) : Broker Control := do
  let l := { l with buf := l.buf.drop size }
  metrics .incrementPacketsReceived
  match ← processPacket settings packet l.clientId (l.username.getD "anonymous") with
  | .error _ => return .exited false
  | .ok none => return again l
  | .ok (some response) => do
    if ← writePacket .response response then return again l
    else return .exited false

/-- The rest of `handle_connection` before its loop. The size of the CONNECT is taken with the 3.1.1
    decoder, whatever the version. -/
def enterTcpLoop (readBuf : Bytes) (c : ConnectFields) (clientId username : String) : Broker Control := do
  saveSession clientId c username
  if ← writePacket .connack (acceptedConnack c.version) then do
    run (.connectionsInsert clientId)
    match V3.decodePacket readBuf with
    | .ok (some (_, consumed)) =>
      return .tcpLoop { clientId, version := c.version, cleanSession := c.cleanSession,
                        username := some username, buf := readBuf.drop consumed }
    | _ => return .exited false
  else return .exited false

/-- `handle_connection` up to its loop, once the CONNECT is decoded. -/
def acceptTcp (settings : Settings) (readBuf : Bytes) (c : ConnectFields) : Broker Control :=
  match settings.authenticator.authenticate settings.config.allowAnonymous c.username c.password with
  | .Denied reason => do
    let sent ← writePacket .connack (deniedConnack c.version reason)
    return .exited sent
  | .Success username => do
    let clientId ← registerSession c username
    match c.will with
    | some will => storeWill clientId will
    | none => pure ()
    enterTcpLoop readBuf c clientId username

def handleConnection (settings : Settings) : Broker Control := do
  match ← ask .read with
  | .failed => return .exited false
  | .closed => return .exited true
  | .data readBuf =>
    match decodeFirstPacket readBuf with
    | .error _ => return .exited false
    | .ok none => return .exited true
    | .ok (some packet) =>
      match connectFields packet with
      | none => return .exited true
      | some c => acceptTcp settings readBuf c

/-- One turn of the loop of `handle_connection` -/
def tcpLoop (settings : Settings) (l : ConnLoop) : Broker Control :=
  match decodePacketByVersion l.buf l.version with
  | .ok (some (packet, size)) => handlePacket settings l packet size .tcpLoop
  | .ok none => do
    match ← ask .selectTcp with
    | .received (.data bytes) => return .tcpLoop { l with buf := l.buf ++ bytes }
    | .received .closed => cleanup l
    | .received .failed => return .exited false
    | .forwarded data => do
      if ← ask (.write .forwarded data) then do
        metrics .incrementPacketsSent
        metrics (.incrementBytesSent data.length)
        return .tcpLoop l
      else cleanup l
  | .error _ => cleanup l

end AtomMqtt
