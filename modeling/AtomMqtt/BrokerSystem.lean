import AtomMqtt.Persistence
import AtomMqtt.WebSocket

set_option autoImplicit false

/-! The broker as a system of tasks. The router, the connections of both transports, the web sessions and the
requests run next to each other on one shared state. Outside them the background writer commits batches of
events to the database, and the broker may be killed and started again from it. -/
namespace AtomMqtt
open Programs

structure Node where
  shared : Shared
  database : Database
  life : ℕ

inductive WorldStep where
  | commit (n : ℕ)
  | restart
  deriving DecidableEq, Repr

def Shared.start (broker : BrokerState) (events : List (ThreadId × PersistEvent)) : Shared :=
  { broker, queue := [], channels := fun _ => [], dropped := fun _ => false, webChannels := fun _ => [], events }

def Node.commit (n : ℕ) (node : Node) : Node :=
  { node with
    shared := { node.shared with events := node.shared.events.drop n }
    database := (node.shared.events.take n).foldl (fun db event => db.execute event.1 event.2) node.database }

def Node.restart (node : Node) : Node :=
  let (broker, events) := startupCleanup node.database.restore
  { shared := Shared.start broker (events.map fun event => (.router (node.life + 1), event))
    database := node.database
    life := node.life + 1 }

def Node.world (node : Node) : WorldStep → Option (Node × Bool)
  | .commit n => some (node.commit n, false)
  | .restart => some (node.restart, true)

def Node.perform (i : ThreadId) (node : Node) (a : Action) (input : Input) : Option (Node × Reply a) :=
  (node.shared.perform i a input).map fun (shared, r) => ({ node with shared }, r)

/-- Which task may begin: the router once in each life, the others when they like. -/
def Node.start (node : Node) : ThreadId → Control → Bool
  | .router life, .router => life == node.life
  | .connection _, .tcp => true
  | .connection _, .ws buf => buf.isEmpty
  | .web _, .webSession _ activeSubscriptions => activeSubscriptions.isEmpty
  | .request _, .publishRequest _ _ _ _ => true
  | .request _, .deleteRetainedRequest _ => true
  | .request _, .disconnectRequest _ => true
  | _, _ => false

def routerLoop : Broker Control := do
  let (_, message) ← ask .recvRouter
  routeMessage message
  return .router

/-- A handler that returns drops its receiver. -/
def exit (ok : Bool) : Broker Control := do
  run .dropReceiver
  return .exited ok

def body (settings : Settings) : Control → Broker Control
  | .router => routerLoop
  | .tcp => handleConnection settings
  | .tcpLoop l => tcpLoop settings l
  | .ws buf => handleWsMqttSession settings buf
  | .wsLoop l => wsLoop settings l
  | .wsLost l => wsLost l
  | .webSession subscriberId activeSubscriptions => handleWsSession subscriberId activeSubscriptions
  | .publishRequest topic payload qos retain => publishMessage topic payload qos retain
  | .deleteRetainedRequest topic => deleteRetainedMessage topic
  | .disconnectRequest clientId => disconnectClient clientId
  | .exited ok => exit ok

def brokerSystem (settings : Settings) : System ThreadId Node Action Reply Control Input WorldStep where
  start := Node.start
  body := fun _ => body settings
  perform := Node.perform
  world := Node.world

theorem restart_of_world {node node' : Node} {ends : Bool} (h : node.world .restart = some (node', ends)) :
    node.restart = node' ∧ true = ends := Prod.mk.inj (Option.some.inj h)

abbrev BrokerConfigState := Config ThreadId Node Action Reply Control

abbrev BrokerEvent := Event ThreadId Action Reply Control WorldStep

abbrev BrokerMove := Move ThreadId Control Input WorldStep

def initial : BrokerConfigState :=
  { shared := { shared := Shared.start BrokerState.new [], database := Database.empty, life := 0 }
    thread := fun _ => .fresh }

def started (db : Database) : BrokerConfigState :=
  { shared := Node.restart { initial.shared with database := db }, thread := fun _ => .fresh }

/-- Where a task stands between two turns. -/
def between : Thread Action Reply Control → Option Control
  | .running (.ret c) => some c
  | _ => none

theorem eq_of_between {t : Thread Action Reply Control} {c : Control} (h : between t = some c) : t = .running (.ret c) := by
  cases t with
  | running p =>
    cases p with
    | ret c' =>
      cases h
      rfl
    | act a f => cases h
  | _ => cases h

/-- What task `i` does while no other task does anything: its trace, the state it leaves and its result. -/
def runAlone {α : Type} (i : ThreadId) (input : Action → Input) (p : Broker α) (s : Shared) :
    Option (Trace Action Reply × Shared × α) :=
  p.runOn (fun s a => s.perform i a (input a)) s

section
variable {α : Type} {i : ThreadId} {input : Action → Input} {s s₁ s' : Shared}

/-- Run alone from `s`, a task ends in `s'` with this result. -/
abbrev RunsTo (i : ThreadId) (input : Action → Input) (p : Broker α) (s s' : Shared) (x : α) : Prop :=
  Leads (fun s a => s.perform i a (input a)) p s s' x

theorem runsTo_run {a : Action} {f : Unit → Broker α} {r : Reply a} {x : α} (h : s.perform i a (input a) = some (s₁, r))
    (hf : RunsTo i input (f ()) s₁ s' x) : RunsTo i input (run a >>= f) s s' x := .act h hf

theorem runsTo_run_last {a : Action} {r : Reply a} (h : s.perform i a (input a) = some (s₁, r)) :
    RunsTo i input (run a) s s₁ () := .act h (.ret _ _)

theorem runsTo_ask {a : Action} {f : Reply a → Broker α} {r : Reply a} {x : α}
    (h : s.perform i a (input a) = some (s₁, r)) (hf : RunsTo i input (f r) s₁ s' x) :
    RunsTo i input (ask a >>= f) s s' x := .act h hf

end

def sentBytes (packet : MqttPacket) : Bytes := (encodePacket packet).toOption.getD []

/-- The next actions of a task, every write a success, none of them in wait for something from outside. -/
def turns (i : ThreadId) (n : ℕ) : List BrokerMove := List.replicate n (.act i (.written true))

/-- The moves from the start on, each event checked against those before it. -/
def executeWhere (settings : Settings) (ok : List BrokerEvent → BrokerEvent → Bool) (moves : List BrokerMove) :
    Option (List BrokerEvent × BrokerConfigState) :=
  (brokerSystem settings).execWhere (fun evs _ e _ => ok evs e) [] initial moves

def execute (settings : Settings) : List BrokerMove → Option (List BrokerEvent × BrokerConfigState) :=
  executeWhere settings fun _ _ => true

theorem executeWhere_run {settings : Settings} {ok : List BrokerEvent → BrokerEvent → Bool}
    {P : List BrokerEvent → BrokerEvent → Prop} (hok : ∀ evs e, ok evs e = true → P evs e) {moves : List BrokerMove}
    {evs : List BrokerEvent} {cfg : BrokerConfigState} (h : executeWhere settings ok moves = some (evs, cfg)) :
    (brokerSystem settings).RunWhere (fun evs _ e _ => P evs e) initial evs cfg :=
  System.execWhere_run _ (fun evs _ e _ => hok evs e) .nil h

theorem execute_run {settings : Settings} {moves : List BrokerMove} {evs : List BrokerEvent} {cfg : BrokerConfigState}
    (h : execute settings moves = some (evs, cfg)) : (brokerSystem settings).Run initial evs cfg :=
  executeWhere_run (fun _ _ _ => trivial) h

def plainConnectV3 (clientId : String) (cleanSession : Bool) (username : Option String) : V3.ConnectPacket where
  clientId := clientId
  cleanSession := cleanSession
  keepAlive := 60
  will := none
  username := username
  password := none

def plainConnectV5 (clientId : String) (cleanStart : Bool) (username : Option String) : V5.ConnectPacket where
  clientId := clientId
  cleanStart := cleanStart
  keepAlive := 60
  properties := V5.Properties.new
  will := none
  username := username
  password := none

def joinMoves (k : ConnId) (clientId : String) (cleanSession : Bool) : List BrokerMove :=
  [.spawn (.connection k) .tcp,
    .act (.connection k) (.received (.data (sentBytes (.V311 (.Connect (plainConnectV3 clientId cleanSession none))))))] ++
  turns (.connection k) (8 + if clientId.isEmpty then 1 else 0)

def openSettings : Settings where
  config := { maxPacketSize := 10 * 1024 * 1024, allowAnonymous := true }
  authenticator := { method := .None, users := [] }
  acl := { entries := [], enabled := false }

end AtomMqtt
