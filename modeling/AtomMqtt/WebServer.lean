import AtomMqtt.BrokerSystem

set_option autoImplicit false

/-! The web server. The routes in the order of their registration, the middleware in front of them, and the
tasks of the broker next to the requests. A time stamp, the uptime and the text of a JSON answer are left out. -/
namespace AtomMqtt
open Programs

inductive Method where
  | GET
  | POST
  | DELETE
  | other
  deriving DecidableEq, Repr

structure HttpRequest where
  method : Method
  path : String
  /-- the names in lower case, as the `http` crate keeps them -/
  headers : List (String × Bytes)
  body : Bytes
  deriving DecidableEq, Repr

structure PublishRequest where
  topic : String
  payload : String
  qos : UInt8
  retain : Bool
  deriving DecidableEq, Repr

structure LoginRequest where
  username : String
  password : String
  deriving DecidableEq, Repr

structure ClientInfo where
  clientId : String
  protocolVersion : ProtocolVersion
  connected : Bool
  keepAlive : UInt16
  username : String
  deriving DecidableEq, Repr

structure SubscriptionInfo where
  clientId : String
  filter : String
  qos : String
  deriving DecidableEq, Repr

structure RetainedMessageInfo where
  topic : String
  qos : String
  payloadSize : ℕ
  payloadPreview : String
  deriving DecidableEq, Repr

structure ConfigInfo where
  tcpHost : String
  tcpPort : UInt16
  webHost : String
  webPort : UInt16
  maxPacketSize : ℕ
  allowAnonymous : Bool
  sessionExpiryInterval : UInt32
  deriving DecidableEq, Repr

structure BrokerInfoResponse where
  version : String
  name : String
  config : ConfigInfo
  protocolVersions : List String
  deriving DecidableEq, Repr

inductive ResponseBody where
  | empty
  | text (s : String)
  | file (mime : String) (contents : Bytes)
  | metrics (snapshot : BrokerMetrics)
  | info (info : BrokerInfoResponse)
  | clients (clients : List ClientInfo)
  | client (client : ClientInfo)
  | subscriptions (subs : List SubscriptionInfo)
  | retained (messages : List RetainedMessageInfo)
  | published (topic : String) (subscriberCount : ℕ)
  | deleted (topic : String)
  | disconnected (message : String)
  | success
  | failure (error : String)
  deriving DecidableEq, Repr

structure HttpResponse where
  status : ℕ
  headers : List (String × String)
  body : ResponseBody
  deriving DecidableEq, Repr

namespace HttpResponse

def Ok (body : ResponseBody) : HttpResponse := ⟨200, [], body⟩

def SwitchingProtocols : HttpResponse := ⟨101, [], .empty⟩

def Unauthorized (body : ResponseBody) : HttpResponse := ⟨401, [], body⟩

def NotFound (body : ResponseBody) : HttpResponse := ⟨404, [], body⟩

end HttpResponse

/-- The fields of the configuration that the web interface reads. -/
structure WebConfig where
  info : ConfigInfo
  webAuthEnabled : Bool
  webAuthUsername : String
  webAuthPassword : String
  deriving DecidableEq, Repr

inductive Endpoint where
  | getMetrics
  | getClients
  | getClientDetail
  | getSubscriptions
  | getRetainedMessages
  | deleteRetainedMessage
  | getBrokerInfo
  | publishMessage
  | disconnectClient
  | login
  | wsSubscribe
  | wsMqtt
  | serveEmbeddedFile
  deriving DecidableEq, Repr

/-- The configuration, the files compiled into the binary, and what the server takes from other crates: the router finds
    the handler of a request and the parameter of its path, or answers itself; so does an extractor or the handshake with a
    request that it does not accept. -/
structure WebServer where
  config : WebConfig
  staticDir : String → Option Bytes
  mimeGuess : String → String
  decodeBase64 : String → Option Bytes
  fromUtf8Lossy : Bytes → String
  percentDecode : String → String
  route : HttpRequest → Option (Endpoint × String)
  unrouted : HttpRequest → HttpResponse
  readPublish : HttpRequest → Except HttpResponse PublishRequest
  readLogin : HttpRequest → Except HttpResponse LoginRequest
  handshake : HttpRequest → Except HttpResponse Unit

/-- Besides the actions of the broker, what the answers read, and the answers. -/
inductive WebAction where
  | broker (a : Action)
  | metricsSnapshot
  | sessionsIter
  | sessionsGet (clientId : String)
  | allSubscriptions
  | respond (response : HttpResponse)
  deriving DecidableEq, Repr

@[reducible] def WebReply : WebAction → Type
  | .broker a => Reply a
  | .metricsSnapshot => BrokerMetrics
  | .sessionsIter => List SessionState
  | .sessionsGet _ => Option SessionState
  | .allSubscriptions => List Subscription
  | .respond _ => Unit

abbrev Web := Program WebAction WebReply

def Node.performWeb (i : ThreadId) (node : Node) (a : WebAction) (input : Input) : Option (Node × WebReply a) :=
  match a with
  | .broker a => node.perform i a input
  | .metricsSnapshot => some (node, node.shared.broker.metrics)
  | .sessionsIter => some (node, node.shared.broker.sessions.values)
  | .sessionsGet clientId => some (node, node.shared.broker.sessions.lookup clientId)
  | .allSubscriptions => some (node, node.shared.broker.subscriptions.allSubscriptions)
  | .respond _ => some (node, ())

def liftBroker {α : Type} (p : Broker α) : Web α := p.into WebAction.broker fun _ r => r

def askWeb (a : WebAction) : Web (WebReply a) := Program.perform a

/-- A request with the random part of the id that a session of it takes, or a task of the broker. -/
inductive WebControl where
  | http (uuid : String) (req : HttpRequest)
  | broker (c : Control)
  deriving DecidableEq, Repr

def answer (response : HttpResponse) : Web WebControl := do
  let _ ← askWeb (.respond response)
  return .broker (.exited true)

def getMetrics : Web WebControl := do
  let snapshot ← askWeb .metricsSnapshot
  answer (.Ok (.metrics snapshot))

def getBrokerInfo (web : WebServer) : Web WebControl := do
  let _ ← askWeb .metricsSnapshot
  answer (.Ok (.info
    { version := "1.0.1", name := "AtomMQTT Broker", config := web.config.info
      protocolVersions := ["MQTT 3.1.1", "MQTT 5.0"] }))

def SessionState.info (session : SessionState) : ClientInfo where
  clientId := session.clientId
  protocolVersion := session.protocolVersion
  connected := session.connected
  keepAlive := session.keepAlive
  username := session.username.getD ""

def getClients : Web WebControl := do
  let sessions ← askWeb .sessionsIter
  answer (.Ok (.clients ((sessions.filter (·.connected)).map (·.info))))

def getClientDetail (clientId : String) : Web WebControl := do
  match ← askWeb (.sessionsGet clientId) with
  | some session => answer (.Ok (.client session.info))
  | none => answer (.NotFound (.text ("Client '" ++ clientId ++ "' not found")))

def QoS.toText : QoS → String
  | .AtMostOnce => "QoS0"
  | .AtLeastOnce => "QoS1"
  | .ExactlyOnce => "QoS2"

def getSubscriptions : Web WebControl := do
  let subs ← askWeb .allSubscriptions
  answer (.Ok (.subscriptions (subs.map fun s => { clientId := s.clientId, filter := s.filter, qos := s.qos.toText })))

def getRetainedMessages (web : WebServer) : Web WebControl := do
  let messages ← askWeb (.broker .retainedIter)
  answer (.Ok (.retained (messages.map fun entry =>
    { topic := entry.topic, qos := entry.qos.toText, payloadSize := entry.payload.length
      payloadPreview := web.fromUtf8Lossy (entry.payload.take 50) })))

def deleteRetained (topic : String) : Web WebControl := do
  match ← liftBroker (deleteRetainedMessage topic) with
  | .exited true => answer (.Ok (.deleted topic))
  | _ => answer (.NotFound (.failure ("Retained message '" ++ topic ++ "' not found")))

/-- What `publish_message` does before its answer; the result is the count of the subscribers. -/
def publishRequest (body : PublishRequest) : Web ℕ := do
  let qos := (QoS.fromU8 body.qos).getD .AtMostOnce
  let payload := asBytes body.payload
  liftBroker (run (.sendRouter (.Publish body.topic payload qos body.retain "web-ui")))
  if body.retain && !body.payload.isEmpty then
    liftBroker (run (.retainedInsert body.topic { topic := body.topic, payload, qos }))
  liftBroker (metrics .incrementMessagesPublished)
  let subs ← liftBroker (ask (.lookup body.topic))
  return subs.length

def publish (body : PublishRequest) : Web WebControl := do
  let subscriberCount ← publishRequest body
  answer (.Ok (.published body.topic subscriberCount))

theorem publishRequest_alike (body : PublishRequest) :
    Alike (liftBroker (publishMessage body.topic body.payload body.qos body.retain)) (publishRequest body) := by
  unfold publishMessage publishRequest
  refine .act fun _ => ?_
  cases hretain : body.retain && !body.payload.isEmpty with
  | false => exact .act fun _ => .act fun _ => .ret _ _
  | true => exact .act fun _ => .act fun _ => .act fun _ => .ret _ _

def disconnect (clientId : String) : Web WebControl := do
  match ← liftBroker (disconnectClient clientId) with
  | .exited true => answer (.Ok (.disconnected ("Client '" ++ clientId ++ "' will be disconnected")))
  | _ => answer (.NotFound (.text ("Client '" ++ clientId ++ "' not found")))

def login (web : WebServer) (body : LoginRequest) : Web WebControl :=
  if !web.config.webAuthEnabled then answer (.Ok .success)
  else if body.username = web.config.webAuthUsername ∧ body.password = web.config.webAuthPassword then
    answer (.Ok .success)
  else answer (.Unauthorized (.failure "用户名或密码错误"))

def subscriberId (uuid : String) : String := "webui-sub-" ++ uuid

def wsSubscribe (web : WebServer) (uuid : String) (req : HttpRequest) : Web WebControl :=
  match web.handshake req with
  | .ok () => do
    let _ ← askWeb (.respond .SwitchingProtocols)
    return .broker (.webSession (subscriberId uuid) [])
  | .error response => answer response

def wsMqtt (web : WebServer) (req : HttpRequest) : Web WebControl :=
  match web.handshake req with
  | .ok () => do
    let _ ← askWeb (.respond .SwitchingProtocols)
    return .broker (.ws [])
  | .error response => answer response

/-- `path.trim_start_matches('/')` -/
def trimStartSlashes (path : String) : String := String.ofList (path.toList.dropWhile (· == '/'))

/-- What `serve_embedded_file` answers. -/
def embeddedFile (web : WebServer) (path : String) : HttpResponse :=
  let path := trimStartSlashes path
  let path := if path.isEmpty then "index.html" else path
  match web.staticDir path with
  | some contents => .Ok (.file (web.mimeGuess path) contents)
  | none => .NotFound (.text "404 Not Found")

/-- A path, a path with `{name}` for one segment, or `/{path:.*}`. -/
inductive Pattern where
  | path (path : String)
  | segment (before after : String)
  | tail
  deriving DecidableEq, Repr

def startsWith (s : String) (pre : String) : Bool := pre.toList.isPrefixOf s.toList

/-- The services of `start_web_server`, in the order of their registration. -/
def services : List (Method × Pattern × Endpoint) :=
  [(.GET, .path "/api/metrics", .getMetrics),
    (.GET, .path "/api/clients", .getClients),
    (.GET, .segment "/api/clients/" "", .getClientDetail),
    (.GET, .path "/api/subscriptions", .getSubscriptions),
    (.GET, .path "/api/retained", .getRetainedMessages),
    (.DELETE, .segment "/api/retained/" "", .deleteRetainedMessage),
    (.GET, .path "/api/broker/info", .getBrokerInfo),
    (.POST, .path "/api/publish", .publishMessage),
    (.POST, .segment "/api/clients/" "/disconnect", .disconnectClient),
    (.POST, .path "/api/login", .login),
    (.GET, .path "/ws/subscribe", .wsSubscribe),
    (.GET, .path "/mqtt", .wsMqtt),
    (.GET, .tail, .serveEmbeddedFile)]

/-- The parameter of a path that the pattern describes, empty if the pattern has none. -/
def Pattern.matches (path : String) : Pattern → Option String
  | .path p => if path = p then some "" else none
  | .segment before after => do
    let rest ← path.toList.dropPrefix? before.toList
    let name ← rest.dropSuffix? after.toList
    if name = [] ∨ '/' ∈ name then none else some (String.ofList name)
  | .tail => (path.toList.dropPrefix? ['/']).map String.ofList

/-- The endpoint of a service if it is for this method and path, with the parameter of the path. -/
def endpointFor (method : Method) (path : String) (s : Method × Pattern × Endpoint) : Option (Endpoint × String) :=
  if method = s.1 then (s.2.1.matches path).map fun param => (s.2.2, param) else none

/-- The path has no escape for a character, so that the router reads the very path that the middleware looks at. -/
def HttpRequest.Plain (req : HttpRequest) : Prop := '%' ∉ req.path.toList

/-- What is relied on of the router: a request with a plain path goes to no handler but one that is registered for its
    method and its path. -/
structure WebServer.RoutesPlain (web : WebServer) : Prop where
  registered : ∀ req found, req.Plain → web.route req = some found →
    ∃ s ∈ services, endpointFor req.method req.path s = some found

def Endpoint.handle (web : WebServer) (uuid : String) (req : HttpRequest) (param : String) : Endpoint → Web WebControl
  | .getMetrics => AtomMqtt.getMetrics
  | .getClients => AtomMqtt.getClients
  | .getClientDetail => AtomMqtt.getClientDetail (web.percentDecode param)
  | .getSubscriptions => AtomMqtt.getSubscriptions
  | .getRetainedMessages => AtomMqtt.getRetainedMessages web
  | .deleteRetainedMessage => deleteRetained (web.percentDecode param)
  | .getBrokerInfo => AtomMqtt.getBrokerInfo web
  | .publishMessage =>
    match web.readPublish req with
    | .ok body => publish body
    | .error response => answer response
  | .disconnectClient => disconnect (web.percentDecode param)
  | .login =>
    match web.readLogin req with
    | .ok body => AtomMqtt.login web body
    | .error response => answer response
  | .wsSubscribe => AtomMqtt.wsSubscribe web uuid req
  | .wsMqtt => AtomMqtt.wsMqtt web req
  | .serveEmbeddedFile => answer (embeddedFile web req.path)

/-- What comes behind the middleware. -/
def handleRequest (web : WebServer) (uuid : String) (req : HttpRequest) : Web WebControl :=
  match web.route req with
  | some (endpoint, param) => endpoint.handle web uuid req param
  | none => answer (web.unrouted req)

/-- `HeaderValue::to_str`: only visible ASCII and tabs. -/
def headerToStr (value : Bytes) : Option String :=
  if value.all fun b => (32 ≤ b && b < 127) || b == 9 then fromUtf8 value else none

def WebServer.authenticated (web : WebServer) (req : HttpRequest) : Bool :=
  match req.headers.lookup "authorization" with
  | some value =>
    match headerToStr value with
    | some encoded =>
      match encoded.toList.dropPrefix? "Basic ".toList with
      | some encoded =>
        let expected := web.config.webAuthUsername ++ ":" ++ web.config.webAuthPassword
        match web.decodeBase64 (String.ofList encoded) with
        | some decoded => web.fromUtf8Lossy decoded == expected
        | none => false
      | none => false
    | none => false
  | none => false

def unauthorized : HttpResponse :=
  { HttpResponse.Unauthorized (.text "需要身份验证") with
    headers := [("WWW-Authenticate", "Basic realm=\"AtomMQTT\"")] }

def webAuthMiddleware (web : WebServer) (req : HttpRequest) (next : Web WebControl) : Web WebControl :=
  if startsWith req.path "/api/" then
    if web.config.webAuthEnabled then
      if req.path = "/api/login" then next
      else if web.authenticated req then next
      else answer unauthorized
    else next
  else next

def serve (web : WebServer) (uuid : String) (req : HttpRequest) : Web WebControl :=
  webAuthMiddleware web req (handleRequest web uuid req)

/-- The kind of the task that a request is: a session goes on as a task of the broker. -/
def WebServer.fits (web : WebServer) (req : HttpRequest) : ThreadId → Bool
  | .router _ => false
  | .connection _ => (web.route req).map Prod.fst == some .wsMqtt
  | .web _ => (web.route req).map Prod.fst == some .wsSubscribe
  | .request _ => (web.route req).map Prod.fst != some .wsMqtt && (web.route req).map Prod.fst != some .wsSubscribe

/-- Besides the requests, the router and the TCP connections begin. -/
def Node.startWeb (web : WebServer) (node : Node) (i : ThreadId) : WebControl → Bool
  | .http _ req => web.fits req i
  | .broker .router => node.start i .router
  | .broker .tcp => node.start i .tcp
  | .broker _ => false

def webSystem (web : WebServer) (settings : Settings) :
    System ThreadId Node WebAction WebReply WebControl Input WorldStep where
  start := Node.startWeb web
  body := fun _ c =>
    match c with
    | .http uuid req => serve web uuid req
    | .broker c => liftBroker (WebControl.broker <$> body settings c)
  perform := Node.performWeb
  world := Node.world

end AtomMqtt
