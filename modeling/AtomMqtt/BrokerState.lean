import AtomMqtt.Auth
import AtomMqtt.Subscription
import Mathlib.Data.List.AList

set_option autoImplicit false

/-! The shared state of the broker. A concurrent map is an `AList`; a sender is the number of the connection
whose channel it feeds. What a task has queued or stored for others stands with the task that sent it, which no
task reads. -/
namespace AtomMqtt

abbrev DashMap (K V : Type) := AList fun _ : K => V

namespace DashMap
variable {K V : Type} [DecidableEq K]

/-- `if let Some(mut v) = map.get_mut(key) { v.f() }` -/
def modify (f : V → V) (key : K) (map : DashMap K V) : DashMap K V :=
  match map.lookup key with
  | some v => map.insert key (f v)
  | none => map

def values (map : DashMap K V) : List V := map.entries.map Sigma.snd

variable {map : DashMap K V} {key key' : K} {v w : V}

theorem lookup_insert : (map.insert key v).lookup key' = if key = key' then some v else map.lookup key' := by
  split_ifs with hkey
  · rw [hkey, AList.lookup_insert]
  · exact AList.lookup_insert_ne (Ne.symm hkey)

theorem lookup_erase : (map.erase key).lookup key' = if key = key' then none else map.lookup key' := by
  split_ifs with hkey
  · rw [hkey, AList.lookup_erase]
  · exact AList.lookup_erase_ne (Ne.symm hkey)

theorem lookup_modify {f : V → V} :
    (map.modify f key).lookup key' = if key = key' then (map.lookup key').map f else map.lookup key' := by
  unfold modify
  cases hlookup : map.lookup key with
  | none =>
    split_ifs with hkey
    · rw [← hkey, hlookup]
      rfl
    · rfl
  | some v =>
    simp only [lookup_insert]
    split_ifs with hkey
    · rw [← hkey, hlookup]
      rfl
    · rfl

theorem lookup_insert_eq_some : (map.insert key v).lookup key' = some w ↔
    (key' = key ∧ w = v) ∨ (key' ≠ key ∧ map.lookup key' = some w) := by
  by_cases hkey : key' = key
  · subst hkey
    simp [AList.lookup_insert, eq_comm]
  · simp [AList.lookup_insert_ne hkey, hkey]

theorem lookup_erase_eq_some : (map.erase key).lookup key' = some w ↔ key' ≠ key ∧ map.lookup key' = some w := by
  by_cases hkey : key' = key
  · subst hkey
    simp [AList.lookup_erase]
  · simp [AList.lookup_erase_ne hkey, hkey]

theorem lookup_modify_eq_some {f : V → V} : (map.modify f key).lookup key' = some w ↔
    ∃ v, map.lookup key' = some v ∧ w = if key' = key then f v else v := by
  rw [lookup_modify]
  by_cases hkey : key = key'
  · subst hkey
    simp only [if_true, Option.map_eq_some_iff]
    exact exists_congr fun v => and_congr_right fun _ => eq_comm
  · simp [hkey, Ne.symm hkey]

end DashMap

abbrev ConnId := ℕ

abbrev WebId := ℕ

inductive ThreadId where
  | router (life : ℕ)
  | connection (k : ConnId)
  | web (k : WebId)
  | request (n : ℕ)
  deriving DecidableEq, Repr, Inhabited

def ThreadId.isRouter : ThreadId → Bool
  | .router _ => true
  | _ => false

structure BrokerConfig where
  maxPacketSize : ℕ
  allowAnonymous : Bool
  deriving DecidableEq, Repr

structure SessionState where
  clientId : String
  protocolVersion : ProtocolVersion
  cleanSession : Bool
  keepAlive : UInt16
  connected : Bool
  username : Option String
  deriving DecidableEq, Repr

def SessionState.new (clientId : String) (protocolVersion : ProtocolVersion) (cleanSession : Bool)
    (keepAlive : UInt16) (username : Option String) : SessionState :=
  { clientId, protocolVersion, cleanSession, keepAlive, connected := true, username }

structure WillMessage where
  clientId : String
  topic : String
  payload : Bytes
  qos : QoS
  retain : Bool
  delayInterval : UInt32
  deriving DecidableEq, Repr

structure RetainedMessage where
  topic : String
  payload : Bytes
  qos : QoS
  deriving DecidableEq, Repr

structure BrokerMetrics where
  bytesReceived : ℕ
  bytesSent : ℕ
  messagesPublished : ℕ
  messagesReceived : ℕ
  subscriptionsActive : ℕ
  clientsConnected : ℕ
  clientsTotal : ℕ
  packetsReceived : ℕ
  packetsSent : ℕ
  deriving DecidableEq, Repr

def BrokerMetrics.new : BrokerMetrics := ⟨0, 0, 0, 0, 0, 0, 0, 0, 0⟩

/-- The methods of `BrokerMetrics`. -/
inductive MetricsOp where
  | incrementBytesReceived (n : ℕ)
  | incrementBytesSent (n : ℕ)
  | incrementMessagesPublished
  | incrementMessagesReceived
  | incrementClientsConnected
  | decrementClientsConnected
  | incrementPacketsReceived
  | incrementPacketsSent
  deriving DecidableEq, Repr

def MetricsOp.apply (self : BrokerMetrics) : MetricsOp → BrokerMetrics
  | .incrementBytesReceived n => { self with bytesReceived := self.bytesReceived + n }
  | .incrementBytesSent n => { self with bytesSent := self.bytesSent + n }
  | .incrementMessagesPublished => { self with messagesPublished := self.messagesPublished + 1 }
  | .incrementMessagesReceived => { self with messagesReceived := self.messagesReceived + 1 }
  | .incrementClientsConnected =>
    { self with clientsConnected := self.clientsConnected + 1, clientsTotal := self.clientsTotal + 1 }
  | .decrementClientsConnected => { self with clientsConnected := self.clientsConnected - 1 }
  | .incrementPacketsReceived => { self with packetsReceived := self.packetsReceived + 1 }
  | .incrementPacketsSent => { self with packetsSent := self.packetsSent + 1 }

inductive BrokerMessage where
  | Publish (topic : String) (payload : Bytes) (qos : QoS) (retain : Bool) (sourceClient : String)
  | ClientDisconnected (clientId : String) (cleanSession : Bool)
  deriving DecidableEq, Repr, Inhabited

inductive PersistEvent where
  | SaveSession (clientId : String) (protocolVersion : ℤ) (cleanSession : Bool) (keepAlive : UInt16)
      (username : Option String)
  | RemoveSession (clientId : String)
  | SaveSubscription (clientId filter : String) (qos : ℤ)
  | RemoveSubscription (clientId filter : String)
  | RemoveClientSubscriptions (clientId : String)
  | SaveRetained (topic : String) (payload : Bytes) (qos : ℤ)
  | RemoveRetained (topic : String)
  | SaveWill (clientId topic : String) (payload : Bytes) (qos : ℤ) (retain : Bool) (delayInterval : UInt32)
  | RemoveWill (clientId : String)
  | Shutdown
  deriving DecidableEq, Repr

/-- What a web subscriber is sent. The payload of a message is the text that `from_utf8_lossy` makes
    of these bytes, and its time stamp is left out. -/
inductive WebMessage where
  | Publish (topic : String) (payload : Bytes) (qos : UInt8) (sourceClient : String)
  | Will (topic : String) (payload : Bytes) (qos : UInt8) (sourceClient : String)
  | Error (message : String)
  | Subscribed (topicFilter : String) (qos : ℕ)
  | Unsubscribed (topicFilter : String)
  | Pong
  deriving DecidableEq, Repr, Inhabited

/-- The fields of `BrokerState` that nothing writes. -/
structure Settings where
  config : BrokerConfig
  authenticator : Authenticator
  acl : AclChecker
  deriving DecidableEq, Repr

structure BrokerState where
  sessions : DashMap String SessionState
  subscriptions : SubscriptionTree
  retained : DashMap String RetainedMessage
  wills : DashMap String (ThreadId × WillMessage)
  metrics : BrokerMetrics
  nextClientId : UInt64
  connections : DashMap String ConnId
  webSubscribers : DashMap String WebId

def BrokerState.new : BrokerState :=
  { sessions := ∅, subscriptions := SubscriptionTree.new, retained := ∅, wills := ∅,
    metrics := BrokerMetrics.new, nextClientId := 1, connections := ∅, webSubscribers := ∅ }

def BrokerState.generateClientId (self : BrokerState) : String × BrokerState :=
  ("anonymous_" ++ toString self.nextClientId.toNat, { self with nextClientId := self.nextClientId + 1 })

end AtomMqtt
