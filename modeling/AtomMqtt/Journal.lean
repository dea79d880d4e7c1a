import AtomMqtt.Effects
import AtomMqtt.PacketTraces
import AtomMqtt.Restore

set_option autoImplicit false

/-! A journal of the router and the channels. From the events alone: what has been sent to the router, what the
router has done with each message, and what has been put in the channels and taken out of them. The journal
begins again with the broker. -/
namespace AtomMqtt
open Programs

/-- The subscribers that the router has found for a topic, after so many events. -/
structure Lookup where
  time : ℕ
  topic : String
  subscribers : List Subscription

/-- The router has a packet for a client, and finds the connection that the client has then, if that is live: its entry is
    there, and the receiver of its channel still exists. -/
structure Visit where
  time : ℕ
  clientId : String
  packet : MqttPacket
  connection : Option ConnId

/-- A message that the router has taken, the will that it has found for it, and what it has done since. -/
structure Handling where
  time : ℕ
  sender : ThreadId
  message : BrokerMessage
  will : Option (ThreadId × WillMessage)
  looked : Option Lookup
  visits : List Visit

/-- A packet in the channel of a connection. What the router has put there stems from one of the messages
    that it has taken, the retained messages for a new subscription from none. -/
structure Arrival where
  stem : Option ℕ
  packet : MqttPacket

structure Journal where
  time : ℕ
  connections : DashMap String ConnId
  dropped : ConnId → Bool
  sent : List (ThreadId × BrokerMessage)
  done : List Handling
  current : Option Handling
  arrived : ConnId → List Arrival
  received : ConnId → List Bytes

namespace Handling

def origin (h : Handling) : ThreadId × BrokerMessage := (h.sender, h.message)

def visit (h : Handling) (v : Visit) : Handling := { h with visits := h.visits ++ [v] }

end Handling

namespace Journal

def start : Journal :=
  { time := 0, connections := ∅, dropped := fun _ => false, sent := [], done := [], current := none
    arrived := fun _ => [], received := fun _ => [] }

def handled (j : Journal) : List Handling := j.done ++ j.current.toList

def onCurrent (j : Journal) (i : ThreadId) (f : Handling → Handling) : Option Handling :=
  if i.isRouter then j.current.map f else j.current

def receiver (j : Journal) (clientId : String) : Option ConnId :=
  (j.connections.lookup clientId).filter fun k => !j.dropped k

def arrive (j : Journal) (connection : Option ConnId) (arrival : Arrival) : ConnId → List Arrival :=
  match connection with
  | none => j.arrived
  | some k => Function.update j.arrived k (j.arrived k ++ [arrival])

def receive (j : Journal) (i : ThreadId) (data : Bytes) : ConnId → List Bytes :=
  match i with
  | .connection k => Function.update j.received k (j.received k ++ [data])
  | _ => j.received

def act (j : Journal) (i : ThreadId) : (a : Action) → Reply a → Journal
  | .connectionsInsert clientId, _ =>
    match i with
    | .connection k => { j with connections := j.connections.insert clientId k }
    | _ => j
  | .connectionsRemove clientId, _ => { j with connections := j.connections.erase clientId }
  | .dropReceiver, _ =>
    match i with
    | .connection k => { j with dropped := Function.update j.dropped k true }
    | _ => j
  | .sendRouter message, _ => { j with sent := j.sent ++ [(i, message)] }
  | .recvRouter, (sender, message) =>
    { j with
      done := j.handled
      current := some { time := j.time, sender, message, will := none, looked := none, visits := [] } }
  | .willsRemove _, will => { j with current := j.onCurrent i fun h => { h with will } }
  | .lookup topic, subscribers =>
    { j with current := j.onCurrent i fun h => { h with looked := some { time := j.time, topic, subscribers } } }
  | .forward clientId packet, _ =>
    let connection := j.receiver clientId
    { j with
      current := j.onCurrent i fun h => h.visit { time := j.time, clientId, packet, connection }
      arrived := j.arrive connection { stem := if i.isRouter then some j.done.length else none, packet } }
  | .selectTcp, .forwarded data => { j with received := j.receive i data }
  | .selectWs, .forwarded data => { j with received := j.receive i data }
  | .recvForwarded, some data => { j with received := j.receive i data }
  | _, _ => j

def next (j : Journal) (e : BrokerEvent) : Journal :=
  match e with
  | .act i a r => { j.act i a r with time := j.time + 1 }
  | .world .restart => { start with time := j.time + 1 }
  | _ => { j with time := j.time + 1 }

end Journal

def journal (evs : List BrokerEvent) : Journal := evs.foldl Journal.next Journal.start

theorem journal_snoc (evs : List BrokerEvent) (e : BrokerEvent) : journal (evs ++ [e]) = (journal evs).next e := by
  simp [journal]

section
variable {j : Journal} {i : ThreadId} {a : Action} {r : Reply a}

theorem next_time (j : Journal) (e : BrokerEvent) : (j.next e).time = j.time + 1 := by
  cases e with
  | world w => cases w <;> rfl
  | _ => rfl

theorem journal_time (evs : List BrokerEvent) : (journal evs).time = evs.length := by
  induction evs using List.reverseRecOn with
  | nil => rfl
  | append_singleton evs e ih => rw [journal_snoc, next_time, ih, List.length_append, List.length_singleton]

end

/-- The journal has the connections of the broker, and what has arrived in a channel has been received from
    it or is still there. -/
structure Journal.Mirrors (j : Journal) (s : Shared) : Prop where
  connections : j.connections = s.broker.connections
  dropped : j.dropped = s.dropped
  channels : ∀ k, (j.arrived k).map (fun arrival => sentBytes arrival.packet) = j.received k ++ s.channels k

namespace Journal
variable {j : Journal} {s s' : Shared} {i : ThreadId} {a : Action} {input : Input} {r : Reply a}

theorem arrive_eq (connection : Option ConnId) (arrival : Arrival) (k : ConnId) : j.arrive connection arrival k =
    j.arrived k ++ if connection = some k then [arrival] else [] := by
  unfold arrive
  cases connection with
  | none => simp
  | some k' =>
    by_cases hk : k = k'
    · subst hk
      simp
    · simp [Function.update_of_ne hk, Ne.symm hk]

theorem act_connections : (j.act i a r).connections = a.onConnections i j.connections := by
  cases a with
  | selectTcp => cases r <;> rfl
  | selectWs => cases r <;> rfl
  | recvForwarded => cases r <;> rfl
  | connectionsInsert clientId => cases i <;> rfl
  | dropReceiver => cases i <;> rfl
  | _ => rfl

theorem act_dropped : (j.act i a r).dropped = a.onDropped i j.dropped := by
  cases a with
  | selectTcp => cases r <;> rfl
  | selectWs => cases r <;> rfl
  | recvForwarded => cases r <;> rfl
  | connectionsInsert clientId => cases i <;> rfl
  | dropReceiver => cases i <;> rfl
  | _ => rfl

theorem act_arrived (k : ConnId) : ((j.act i a r).arrived k).map (fun arrival => sentBytes arrival.packet) =
    (j.arrived k).map (fun arrival => sentBytes arrival.packet) ++ a.enqueues j.receiver k := by
  cases a with
  | forward clientId packet =>
    change (j.arrive _ _ k).map _ = _
    rw [arrive_eq, List.map_append, Action.enqueues]
    split_ifs <;> rfl
  | selectTcp => cases r <;> exact (List.append_nil _).symm
  | selectWs => cases r <;> exact (List.append_nil _).symm
  | recvForwarded => cases r <;> exact (List.append_nil _).symm
  | connectionsInsert clientId => cases i <;> exact (List.append_nil _).symm
  | dropReceiver => cases i <;> exact (List.append_nil _).symm
  | _ => exact (List.append_nil _).symm

theorem receive_eq (data : Bytes) (k : ConnId) :
    j.receive i data k = j.received k ++ if i = .connection k then [data] else [] := by
  cases i with
  | connection k' =>
    rw [receive]
    by_cases hk : k = k'
    · subst hk
      rw [Function.update_self, if_pos rfl]
    · have hne : ThreadId.connection k' ≠ .connection k := fun heq => hk (ThreadId.connection.inj heq).symm
      rw [Function.update_of_ne hk, if_neg hne, List.append_nil]
  | _ => exact (List.append_nil _).symm

theorem act_received (k : ConnId) : (j.act i a r).received k = j.received k ++ a.dequeues i k r := by
  cases a with
  | selectTcp =>
    cases r with
    | forwarded data => exact receive_eq data k
    | received _ => exact (List.append_nil _).symm
  | selectWs =>
    cases r with
    | forwarded data => exact receive_eq data k
    | _ => exact (List.append_nil _).symm
  | recvForwarded =>
    cases r with
    | some data => exact receive_eq data k
    | none => exact (List.append_nil _).symm
  | connectionsInsert clientId => cases i <;> exact (List.append_nil _).symm
  | dropReceiver => cases i <;> exact (List.append_nil _).symm
  | _ => exact (List.append_nil _).symm

theorem Mirrors.receiver (h : j.Mirrors s) : j.receiver = s.receiver := by
  funext clientId
  rw [Journal.receiver, Shared.receiver, h.connections, h.dropped]

theorem Mirrors.act (h : j.Mirrors s) (hperform : s.perform i a input = some (s', r)) : (j.act i a r).Mirrors s' where
  connections := by
    rw [act_connections, h.connections, perform_connections hperform]
  dropped := by
    rw [act_dropped, h.dropped, perform_dropped hperform]
  channels := by
    intro k
    rw [act_arrived, h.channels, h.receiver, act_received, List.append_assoc, List.append_assoc,
      channels_of_perform hperform]

end Journal

section
variable {settings : Settings} {P : List BrokerEvent → BrokerConfigState → BrokerEvent → BrokerConfigState → Prop}
  {evs : List BrokerEvent} {cfg : BrokerConfigState}

theorem mirrors_of_run (hrun : (brokerSystem settings).RunWhere P initial evs cfg) :
    (journal evs).Mirrors cfg.shared.shared := by
  induction hrun with
  | nil => exact ⟨rfl, rfl, fun _ => rfl⟩
  | @snoc evs cfg cfg' e run step ok ih =>
    rw [journal_snoc]
    cases step with
    | spawn _ _ => exact ⟨ih.connections, ih.dropped, ih.channels⟩
    | act _ _ hperform =>
      obtain ⟨⟨shared, r'⟩, hshared, heq⟩ := Option.map_eq_some_iff.mp hperform
      cases heq
      have h := ih.act hshared
      exact ⟨h.connections, h.dropped, h.channels⟩
    | @world w node ends hworld =>
      cases w with
      | commit n =>
        cases hworld
        exact ⟨ih.connections, ih.dropped, ih.channels⟩
      | restart =>
        obtain ⟨rfl, rfl⟩ := restart_of_world hworld
        exact ⟨(startupCleanup_frame cfg.shared.database.restore).connections.symm, rfl, fun _ => rfl⟩

end

end AtomMqtt
