import AtomMqtt.BrokerState
import AtomMqtt.Codec
import AtomMqtt.Library.Threads

set_option autoImplicit false

/-! The actions of the broker's tasks. Each operation on a map, a mutex, a channel or a socket is one action,
and its reply is what the task goes on with. What comes from a socket is an input from outside. -/
namespace AtomMqtt
open Programs

/-- The result of `read_half.read_buf`: `closed` is 0 bytes. -/
inductive Received where
  | data (bytes : Bytes)
  | closed
  | failed
  deriving DecidableEq, Repr, Inhabited

/-- `actix_ws::Message`; `other` is text, a continuation or none. -/
inductive Frame where
  | binary (data : Bytes)
  | close
  | ping (bytes : Bytes)
  | pong
  | other
  deriving DecidableEq, Repr, Inhabited

/-- `msg_stream.next().await` -/
inductive WsItem where
  | frame (f : Frame)
  | failed
  | ended
  deriving DecidableEq, Repr, Inhabited

/-- A text frame of a web session, read as JSON. -/
inductive WebCommand where
  | invalid
  | subscribe (topicFilter : String) (qos : ℕ)
  | unsubscribe (topicFilter : String)
  | ping
  | unknown
  deriving DecidableEq, Repr, Inhabited

inductive WebFrame where
  | text (command : WebCommand)
  | ping (bytes : Bytes)
  | close
  | other
  deriving DecidableEq, Repr, Inhabited

/-- The branches of the `select!` of a TCP connection. -/
inductive TcpEvent where
  | received (r : Received)
  | forwarded (data : Bytes)
  deriving DecidableEq, Repr, Inhabited

/-- The branches of the `select!` of a WebSocket connection. Where the stream has ended or failed its branch is `lost`:
    the pattern `Some(Ok(msg))` does not match, and the `select!` goes on with the other branch alone. -/
inductive WsEvent where
  | frame (f : Frame)
  | forwarded (data : Bytes)
  | lost
  deriving DecidableEq, Repr, Inhabited

/-- The branches of the `select!` of a web session. Its `else` is never taken: the session holds a
    sender of its channel itself. -/
inductive WebEvent where
  | frame (f : WebFrame)
  | forwarded (message : WebMessage)
  | closed
  deriving DecidableEq, Repr, Inhabited

inductive Outgoing where
  | connack
  | response
  | forwarded
  deriving DecidableEq, Repr

inductive Action where
  | generateClientId
  | sessionsInsert (clientId : String) (session : SessionState)
  | sessionsSetDisconnected (clientId : String)
  | sessionsRemove (clientId : String)
  | willsInsert (clientId : String) (will : WillMessage)
  | willsRemove (clientId : String)
  | connectionsInsert (clientId : String)
  | connectionsRemove (clientId : String)
  | subscribe (clientId filter : String) (qos : QoS)
  | unsubscribe (clientId filter : String)
  | unsubscribeAll (clientId : String)
  | lookup (topic : String)
  | syncSubscriptionsActive
  | retainedInsert (topic : String) (message : RetainedMessage)
  | retainedRemove (topic : String)
  | retainedContains (topic : String)
  | retainedIter
  | metrics (op : MetricsOp)
  | forward (clientId : String) (packet : MqttPacket)
  | forwardWeb (subscriberId : String) (message : WebMessage)
  | webSubscribersContains (subscriberId : String)
  | webSubscribersInsert (subscriberId : String)
  | webSubscribersRemove (subscriberId : String)
  | sendRouter (message : BrokerMessage)
  | recvRouter
  | sendEvent (event : PersistEvent)
  | read
  | selectTcp
  | wsNext
  | selectWs
  | recvForwarded
  | dropReceiver
  | selectWeb
  | write (what : Outgoing) (data : Bytes)
  | pong (bytes : Bytes)
  | text (message : WebMessage)
  deriving DecidableEq, Repr

@[reducible] def Reply : Action → Type
  | .generateClientId => String
  | .sessionsSetDisconnected _ => Bool
  | .willsRemove _ => Option (ThreadId × WillMessage)
  | .lookup _ => List Subscription
  | .retainedContains _ => Bool
  | .retainedIter => List RetainedMessage
  | .webSubscribersContains _ => Bool
  | .recvRouter => ThreadId × BrokerMessage
  | .read => Received
  | .selectTcp => TcpEvent
  | .wsNext => WsItem
  | .selectWs => WsEvent
  | .recvForwarded => Option Bytes
  | .selectWeb => WebEvent
  | .write _ _ => Bool
  | .text _ => Bool
  | _ => Unit

instance (a : Action) : Inhabited (Reply a) := by
  cases a <;> exact inferInstance

abbrev Broker := Program Action Reply

/-- What the sockets bring: `go` where there is nothing to choose, `forwarded` to take the branch of
    the channel, `ended` for a stream that has ended or failed. -/
inductive Input where
  | go
  | received (r : Received)
  | item (w : WsItem)
  | frame (f : Frame)
  | webFrame (f : WebFrame)
  | forwarded
  | ended
  | written (ok : Bool)
  deriving DecidableEq, Repr

structure Shared where
  broker : BrokerState
  queue : List (ThreadId × BrokerMessage)
  channels : ConnId → List Bytes
  /-- the receiver of the channel is dropped -/
  dropped : ConnId → Bool
  webChannels : WebId → List WebMessage
  events : List (ThreadId × PersistEvent)

namespace Shared

def onBroker (s : Shared) (f : BrokerState → BrokerState) : Shared := { s with broker := f s.broker }

/-- `tx.send(data)`: an error, which nobody reads, once the receiver is dropped. -/
def send (s : Shared) (k : ConnId) (data : Bytes) : Shared :=
  if s.dropped k then s else { s with channels := Function.update s.channels k (s.channels k ++ [data]) }

/-- `if let Some(tx) = state.connections.get(..) { if let Ok(encoded) = encode_packet(..) { tx.send(..) } }` -/
def forward (s : Shared) (clientId : String) (packet : MqttPacket) : Shared :=
  match s.broker.connections.lookup clientId with
  | none => s
  | some k =>
    match encodePacket packet with
    | .error _ => s
    | .ok encoded => s.send k encoded

/-- The channel of the client's entry, if that is live: its receiver is still there. -/
def receiver (s : Shared) (clientId : String) : Option ConnId :=
  (s.broker.connections.lookup clientId).filter fun k => !s.dropped k

def forwardWeb (s : Shared) (subscriberId : String) (message : WebMessage) : Shared :=
  match s.broker.webSubscribers.lookup subscriberId with
  | none => s
  | some k => { s with webChannels := Function.update s.webChannels k (s.webChannels k ++ [message]) }

def takeForwarded (s : Shared) : ThreadId → Option (Shared × Bytes)
  | .connection k =>
    match s.channels k with
    | [] => none
    | data :: rest => some ({ s with channels := Function.update s.channels k rest }, data)
  | _ => none

def takeForwardedWeb (s : Shared) : ThreadId → Option (Shared × WebMessage)
  | .web k =>
    match s.webChannels k with
    | [] => none
    | message :: rest => some ({ s with webChannels := Function.update s.webChannels k rest }, message)
  | _ => none

/-- The channel of the connection is empty and has no sender left: `recv` gives `None`. -/
def channelClosed (s : Shared) : ThreadId → Bool
  | .connection k => (s.channels k).isEmpty && !(s.broker.connections.values.contains k)
  | _ => false

end Shared

/-- What an action of task `i` does, and its reply; there is none where the task has to wait. -/
def Shared.perform (i : ThreadId) (s : Shared) (a : Action) (input : Input) : Option (Shared × Reply a) :=
  match a with
  | .generateClientId =>
    let (id, broker) := s.broker.generateClientId
    some ({ s with broker }, id)
  | .sessionsInsert clientId session =>
    some (s.onBroker fun b => { b with sessions := b.sessions.insert clientId session }, ())
  | .sessionsSetDisconnected clientId =>
    some (s.onBroker fun b =>
        { b with sessions := b.sessions.modify (fun session => { session with connected := false }) clientId },
      (s.broker.sessions.lookup clientId).isSome)
  | .sessionsRemove clientId => some (s.onBroker fun b => { b with sessions := b.sessions.erase clientId }, ())
  | .willsInsert clientId will => some (s.onBroker fun b => { b with wills := b.wills.insert clientId (i, will) }, ())
  | .willsRemove clientId =>
    some (s.onBroker fun b => { b with wills := b.wills.erase clientId }, s.broker.wills.lookup clientId)
  | .connectionsInsert clientId =>
    match i with
    | .connection k => some (s.onBroker fun b => { b with connections := b.connections.insert clientId k }, ())
    | _ => none
  | .connectionsRemove clientId =>
    some (s.onBroker fun b => { b with connections := b.connections.erase clientId }, ())
  | .subscribe clientId filter qos =>
    some (s.onBroker fun b => { b with subscriptions := b.subscriptions.subscribe clientId filter qos }, ())
  | .unsubscribe clientId filter =>
    some (s.onBroker fun b => { b with subscriptions := b.subscriptions.unsubscribe clientId filter }, ())
  | .unsubscribeAll clientId =>
    some (s.onBroker fun b => { b with subscriptions := b.subscriptions.unsubscribeAll clientId }, ())
  | .lookup topic => some (s, s.broker.subscriptions.lookup topic)
  | .syncSubscriptionsActive =>
    some (s.onBroker fun b => { b with metrics := { b.metrics with subscriptionsActive := b.subscriptions.count } },
      ())
  | .retainedInsert topic message =>
    some (s.onBroker fun b => { b with retained := b.retained.insert topic message }, ())
  | .retainedRemove topic => some (s.onBroker fun b => { b with retained := b.retained.erase topic }, ())
  | .retainedContains topic => some (s, (s.broker.retained.lookup topic).isSome)
  | .retainedIter => some (s, s.broker.retained.values)
  | .metrics op => some (s.onBroker fun b => { b with metrics := op.apply b.metrics }, ())
  | .forward clientId packet => some (s.forward clientId packet, ())
  | .forwardWeb subscriberId message => some (s.forwardWeb subscriberId message, ())
  | .webSubscribersContains subscriberId => some (s, (s.broker.webSubscribers.lookup subscriberId).isSome)
  | .webSubscribersInsert subscriberId =>
    match i with
    | .web k => some (s.onBroker fun b => { b with webSubscribers := b.webSubscribers.insert subscriberId k }, ())
    | _ => none
  | .webSubscribersRemove subscriberId =>
    some (s.onBroker fun b => { b with webSubscribers := b.webSubscribers.erase subscriberId }, ())
  | .sendRouter message => some ({ s with queue := s.queue ++ [(i, message)] }, ())
  | .recvRouter =>
    match s.queue with
    | [] => none
    | sent :: rest => some ({ s with queue := rest }, sent)
  | .sendEvent event => some ({ s with events := s.events ++ [(i, event)] }, ())
  | .read =>
    match input with
    | .received r => some (s, r)
    | _ => none
  | .selectTcp =>
    match input with
    | .received r => some (s, .received r)
    | .forwarded => (s.takeForwarded i).map fun (s, data) => (s, .forwarded data)
    | _ => none
  | .wsNext =>
    match input with
    | .item w => some (s, w)
    | _ => none
  | .selectWs =>
    match input with
    | .frame f => some (s, .frame f)
    | .forwarded => (s.takeForwarded i).map fun (s, data) => (s, .forwarded data)
    | .ended => some (s, .lost)
    | _ => none
  | .recvForwarded =>
    match s.takeForwarded i with
    | some (s, data) => some (s, some data)
    | none => if s.channelClosed i then some (s, none) else none
  | .dropReceiver =>
    match i with
    | .connection k => if s.dropped k then none else some ({ s with dropped := Function.update s.dropped k true }, ())
    | _ => none
  | .selectWeb =>
    match input with
    | .webFrame f => some (s, .frame f)
    | .forwarded => (s.takeForwardedWeb i).map fun (s, message) => (s, .forwarded message)
    | _ => none
  | .write _ _ =>
    match input with
    | .written ok => some (s, ok)
    | _ => none
  | .pong _ => some (s, ())
  | .text _ =>
    match input with
    | .written ok => some (s, ok)
    | _ => none

end AtomMqtt
