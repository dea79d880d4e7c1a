import AtomMqtt.Server

set_option autoImplicit false

/-! MQTT over WebSocket, web sessions and requests of the web interface. -/
namespace AtomMqtt
open Programs

/-- `handle_connect_after_decode` up to its loop, once the fields are extracted. It stores no will. -/
def acceptWs (settings : Settings) (buf : Bytes) (c : ConnectFields) : Broker Control :=
  match settings.authenticator.authenticate settings.config.allowAnonymous c.username c.password with
  | .Denied reason => do
    let sent ← writePacket .connack (deniedConnack c.version reason)
    return .exited sent
  | .Success username => do
    let clientId ← registerSession c username
    saveSession clientId c username
    if ← writePacket .connack (acceptedConnack c.version) then
      let consumed : MqttResult (Option ℕ) := match c.version with
        | .V311 => Option.map Prod.snd <$> V3.decodePacket buf
        | .V5 => Option.map Prod.snd <$> V5.decodePacket buf
      match consumed with
      | .ok (some consumed) => do
        run (.connectionsInsert clientId)
        return .wsLoop { clientId, version := c.version, cleanSession := c.cleanSession,
                         username := some username, buf := buf.drop consumed }
      | _ => return .exited false
    else return .exited false

def handleConnectAfterDecode (settings : Settings) (buf : Bytes) (packet : MqttPacket) : Broker Control :=
  match connectFields packet with
  | none => return .exited true
  | some c => acceptWs settings buf c

/-- One turn of the loop of `handle_ws_mqtt_session` -/
def handleWsMqttSession (settings : Settings) (buf : Bytes) : Broker Control := do
  match ← ask .wsNext with
  | .frame (.binary data) =>
    let buf := buf ++ data
    match decodeFirstPacket buf with
    | .ok (some connectPacket) => handleConnectAfterDecode settings buf connectPacket
    | .ok none => return .ws buf
    | .error _ => return .exited true
  | .frame .close => return .exited true
  | .frame (.ping bytes) => do
    run (.pong bytes)
    return .ws buf
  | .frame _ => return .ws buf
  | .failed => return .exited true
  | .ended => return .exited true

/-- What the loop of `handle_connect_after_decode` does with a forwarded PUBLISH. -/
def forwardWs (l : ConnLoop) (data : Bytes) : Broker Control := do
  if ← ask (.write .forwarded data) then do
    metrics .incrementPacketsSent
    return .wsLoop l
  else cleanup l

/-- One turn of the loop of `handle_connect_after_decode` -/
def wsLoop (settings : Settings) (l : ConnLoop) : Broker Control :=
  match decodePacketByVersion l.buf l.version with
  | .ok (some (packet, size)) => handlePacket settings l packet size .wsLoop
  | .ok none => do
    match ← ask .selectWs with
    | .frame (.binary data) => return .wsLoop { l with buf := l.buf ++ data }
    | .frame .close => cleanup l
    | .frame (.ping bytes) => do
      run (.pong bytes)
      return .wsLoop l
    | .frame _ => return .wsLoop l
    | .forwarded data => forwardWs l data
    | .lost => return .wsLost l
  | .error _ => cleanup l

/-- The rest of the `select!` once the branch of the stream is disabled: it waits for the channel alone, and takes its
    `else` when that has no sender left. -/
def wsLost (l : ConnLoop) : Broker Control := do
  match ← ask .recvForwarded with
  | some data => forwardWs l data
  | none => cleanup l

def webSubscribe (subscriberId : String) (activeSubscriptions : List String) (topicFilter : String) (qosVal : ℕ) :
    Broker Control := do
  let qos : QoS := match qosVal with
    | 0 => .AtMostOnce
    | 1 => .AtLeastOnce
    | 2 => .ExactlyOnce
    | _ => .AtMostOnce
  if topicFilter.isEmpty then do
    run (.text (.Error "topic_filter required"))
    return .webSession subscriberId activeSubscriptions
  else do
    run (.subscribe subscriberId topicFilter qos)
    if !(← ask (.webSubscribersContains subscriberId)) then run (.webSubscribersInsert subscriberId)
    let activeSubscriptions :=
      if activeSubscriptions.contains topicFilter then activeSubscriptions
      else activeSubscriptions ++ [topicFilter]
    run (.text (.Subscribed topicFilter qosVal))
    return .webSession subscriberId activeSubscriptions

def webUnsubscribe (subscriberId : String) (activeSubscriptions : List String) (topicFilter : String) :
    Broker Control := do
  if topicFilter.isEmpty then return .webSession subscriberId activeSubscriptions
  else do
    run (.unsubscribe subscriberId topicFilter)
    let activeSubscriptions := activeSubscriptions.filter (· != topicFilter)
    run (.text (.Unsubscribed topicFilter))
    return .webSession subscriberId activeSubscriptions

def webCommand (subscriberId : String) (activeSubscriptions : List String) : WebCommand → Broker Control
  | .invalid => do
    run (.text (.Error "invalid JSON"))
    return .webSession subscriberId activeSubscriptions
  | .subscribe topicFilter qosVal => webSubscribe subscriberId activeSubscriptions topicFilter qosVal
  | .unsubscribe topicFilter => webUnsubscribe subscriberId activeSubscriptions topicFilter
  | .ping => do
    run (.text .Pong)
    return .webSession subscriberId activeSubscriptions
  | .unknown => do
    run (.text (.Error "unknown command"))
    return .webSession subscriberId activeSubscriptions

def webCleanup (subscriberId : String) (activeSubscriptions : List String) : Broker Control := do
  activeSubscriptions.forM fun filter => run (.unsubscribe subscriberId filter)
  run (.webSubscribersRemove subscriberId)
  return .exited true

/-- One turn of the loop of `handle_ws_session` -/
def handleWsSession (subscriberId : String) (activeSubscriptions : List String) : Broker Control := do
  match ← ask .selectWeb with
  | .frame (.text command) => webCommand subscriberId activeSubscriptions command
  | .frame (.ping bytes) => do
    run (.pong bytes)
    return .webSession subscriberId activeSubscriptions
  | .frame .close => webCleanup subscriberId activeSubscriptions
  | .frame .other => return .webSession subscriberId activeSubscriptions
  | .forwarded message => do
    if ← ask (.text message) then return .webSession subscriberId activeSubscriptions
    else webCleanup subscriberId activeSubscriptions
  | .closed => webCleanup subscriberId activeSubscriptions

/-- `POST /api/publish` -/
def publishMessage (topic payload : String) (qos : UInt8) (retain : Bool) : Broker Control := do
  let qos := (QoS.fromU8 qos).getD .AtMostOnce
  let bytes := asBytes payload
  run (.sendRouter (.Publish topic bytes qos retain "web-ui"))
  if retain && !payload.isEmpty then run (.retainedInsert topic { topic, payload := bytes, qos })
  metrics .incrementMessagesPublished
  run (.lookup topic)
  return .exited true

/-- `DELETE /api/retained/{topic}`; the end says whether it answers with success. -/
def deleteRetainedMessage (topic : String) : Broker Control := do
  if ← ask (.retainedContains topic) then do
    run (.retainedRemove topic)
    sendEvent (.RemoveRetained topic)
    return .exited true
  else return .exited false

/-- `POST /api/clients/{client_id}/disconnect`; the end says whether it answers with success. -/
def disconnectClient (clientId : String) : Broker Control := do
  let found ← ask (.sessionsSetDisconnected clientId)
  return .exited found

end AtomMqtt
