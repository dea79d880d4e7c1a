import AtomMqtt.PacketTraces
import AtomMqtt.SubscriptionRefinement

set_option autoImplicit false

/-! What an action changes. One function for each part of the shared state, and the theorem that a step applies
it. -/
namespace AtomMqtt
open Programs

namespace Action

def onBroker (i : ThreadId) : Action → BrokerState → BrokerState
  | .generateClientId, b => b.generateClientId.2
  | .sessionsInsert clientId session, b => { b with sessions := b.sessions.insert clientId session }
  | .sessionsSetDisconnected clientId, b =>
    { b with sessions := b.sessions.modify (fun session => { session with connected := false }) clientId }
  | .sessionsRemove clientId, b => { b with sessions := b.sessions.erase clientId }
  | .willsInsert clientId will, b => { b with wills := b.wills.insert clientId (i, will) }
  | .willsRemove clientId, b => { b with wills := b.wills.erase clientId }
  | .connectionsInsert clientId, b =>
    match i with
    | .connection k => { b with connections := b.connections.insert clientId k }
    | _ => b
  | .connectionsRemove clientId, b => { b with connections := b.connections.erase clientId }
  | .subscribe clientId filter qos, b =>
    { b with subscriptions := b.subscriptions.subscribe clientId filter qos }
  | .unsubscribe clientId filter, b => { b with subscriptions := b.subscriptions.unsubscribe clientId filter }
  | .unsubscribeAll clientId, b => { b with subscriptions := b.subscriptions.unsubscribeAll clientId }
  | .syncSubscriptionsActive, b =>
    { b with metrics := { b.metrics with subscriptionsActive := b.subscriptions.count } }
  | .retainedInsert topic message, b => { b with retained := b.retained.insert topic message }
  | .retainedRemove topic, b => { b with retained := b.retained.erase topic }
  | .metrics op, b => { b with metrics := op.apply b.metrics }
  | .webSubscribersInsert subscriberId, b =>
    match i with
    | .web k => { b with webSubscribers := b.webSubscribers.insert subscriberId k }
    | _ => b
  | .webSubscribersRemove subscriberId, b => { b with webSubscribers := b.webSubscribers.erase subscriberId }
  | _, b => b

def onSessions : Action → DashMap String SessionState → DashMap String SessionState
  | .sessionsInsert clientId session, sessions => sessions.insert clientId session
  | .sessionsSetDisconnected clientId, sessions =>
    sessions.modify (fun session => { session with connected := false }) clientId
  | .sessionsRemove clientId, sessions => sessions.erase clientId
  | _, sessions => sessions

def onWills (i : ThreadId) :
    Action → DashMap String (ThreadId × WillMessage) → DashMap String (ThreadId × WillMessage)
  | .willsInsert clientId will, wills => wills.insert clientId (i, will)
  | .willsRemove clientId, wills => wills.erase clientId
  | _, wills => wills

def onConnections (i : ThreadId) : Action → DashMap String ConnId → DashMap String ConnId
  | .connectionsInsert clientId, connections =>
    match i with
    | .connection k => connections.insert clientId k
    | _ => connections
  | .connectionsRemove clientId, connections => connections.erase clientId
  | _, connections => connections

def onDropped (i : ThreadId) : Action → (ConnId → Bool) → ConnId → Bool
  | .dropReceiver, dropped =>
    match i with
    | .connection k => Function.update dropped k true
    | _ => dropped
  | _, dropped => dropped

def onSubscriptions : Action → SubscriptionTree → SubscriptionTree
  | .subscribe clientId filter qos, tree => tree.subscribe clientId filter qos
  | .unsubscribe clientId filter, tree => tree.unsubscribe clientId filter
  | .unsubscribeAll clientId, tree => tree.unsubscribeAll clientId
  | _, tree => tree

def onQueue (i : ThreadId) : Action → List (ThreadId × BrokerMessage) → List (ThreadId × BrokerMessage)
  | .sendRouter message, queue => queue ++ [(i, message)]
  | .recvRouter, queue => queue.tail
  | _, queue => queue

def onEvents (i : ThreadId) : Action → List (ThreadId × PersistEvent) → List (ThreadId × PersistEvent)
  | .sendEvent event, events => events ++ [(i, event)]
  | _, events => events

/-- What the action puts in the channel of connection `k`. -/
def enqueues (receiver : String → Option ConnId) (k : ConnId) : Action → List Bytes
  | .forward clientId packet => if receiver clientId = some k then [sentBytes packet] else []
  | _ => []

/-- What has been taken out of the channel of connection `k`. -/
def dequeues (i : ThreadId) (k : ConnId) : (a : Action) → Reply a → List Bytes
  | .selectTcp, .forwarded data => if i = .connection k then [data] else []
  | .selectWs, .forwarded data => if i = .connection k then [data] else []
  | .recvForwarded, some data => if i = .connection k then [data] else []
  | _, _ => []

end Action

section
variable {i : ThreadId} {s s' : Shared} {a : Action} {input : Input} {r : Reply a}

theorem forward_eq (clientId : String) (packet : MqttPacket) : s.forward clientId packet =
    match s.receiver clientId with
    | none => s
    | some k => { s with channels := Function.update s.channels k (s.channels k ++ [sentBytes packet]) } := by
  unfold Shared.forward Shared.receiver
  rw [encodePacket_sentBytes]
  cases s.broker.connections.lookup clientId with
  | none => rfl
  | some k =>
    cases hdropped : s.dropped k with
    | false =>
      rw [Option.filter_some_pos (by rw [hdropped]; rfl)]
      exact if_neg (by rw [hdropped]; decide)
    | true =>
      rw [Option.filter_some_neg (by rw [hdropped]; rfl)]
      exact if_pos hdropped

theorem forward_broker (clientId : String) (packet : MqttPacket) : (s.forward clientId packet).broker = s.broker := by
  rw [forward_eq]
  cases s.receiver clientId <;> rfl

theorem forward_dropped (clientId : String) (packet : MqttPacket) : (s.forward clientId packet).dropped = s.dropped := by
  rw [forward_eq]
  cases s.receiver clientId <;> rfl

theorem forward_queue (clientId : String) (packet : MqttPacket) : (s.forward clientId packet).queue = s.queue ∧
    (s.forward clientId packet).events = s.events := by
  rw [forward_eq]
  cases s.receiver clientId <;> exact ⟨rfl, rfl⟩

theorem forwardWeb_broker (subscriberId : String) (message : WebMessage) :
    (s.forwardWeb subscriberId message).broker = s.broker := by
  unfold Shared.forwardWeb
  cases s.broker.webSubscribers.lookup subscriberId <;> rfl

theorem forwardWeb_queue (subscriberId : String) (message : WebMessage) :
    (s.forwardWeb subscriberId message).queue = s.queue ∧ (s.forwardWeb subscriberId message).events = s.events := by
  unfold Shared.forwardWeb
  cases s.broker.webSubscribers.lookup subscriberId <;> exact ⟨rfl, rfl⟩

theorem forwardWeb_dropped (subscriberId : String) (message : WebMessage) :
    (s.forwardWeb subscriberId message).dropped = s.dropped := by
  unfold Shared.forwardWeb
  cases s.broker.webSubscribers.lookup subscriberId <;> rfl

theorem takeForwarded_frame {data : Bytes} (h : s.takeForwarded i = some (s', data)) :
    (s'.broker = s.broker ∧ s'.queue = s.queue ∧ s'.events = s.events) ∧ s'.dropped = s.dropped := by
  unfold Shared.takeForwarded at h
  split at h
  · split at h
    · cases h
    · cases h
      exact ⟨⟨rfl, rfl, rfl⟩, rfl⟩
  · cases h

theorem takeForwardedWeb_frame {message : WebMessage} (h : s.takeForwardedWeb i = some (s', message)) :
    (s'.broker = s.broker ∧ s'.queue = s.queue ∧ s'.events = s.events) ∧ s'.dropped = s.dropped := by
  unfold Shared.takeForwardedWeb at h
  split at h
  · split at h
    · cases h
    · cases h
      exact ⟨⟨rfl, rfl, rfl⟩, rfl⟩
  · cases h

theorem recvForwarded_cases {item : Option Bytes} (h : s.perform i .recvForwarded input = some (s', item)) :
    (∃ s₁ data, s.takeForwarded i = some (s₁, data) ∧ s' = s₁ ∧ item = some data) ∨
      s' = s ∧ item = none ∧ s.channelClosed i = true := by
  simp only [Shared.perform] at h
  cases htake : s.takeForwarded i with
  | some taken =>
    rw [htake] at h
    cases h
    exact .inl ⟨_, _, rfl, rfl, rfl⟩
  | none =>
    rw [htake] at h
    simp only [Option.ite_none_right_eq_some] at h
    obtain ⟨hclosed, heq⟩ := h
    cases heq
    exact .inr ⟨rfl, rfl, hclosed⟩

theorem dropReceiver_cases {u : Unit} (h : s.perform i .dropReceiver input = some (s', u)) :
    ∃ k, i = .connection k ∧ s.dropped k = false ∧ s' = { s with dropped := Function.update s.dropped k true } := by
  cases i with
  | connection k =>
    simp only [Shared.perform, Option.ite_none_left_eq_some, Bool.not_eq_true] at h
    obtain ⟨hdropped, heq⟩ := h
    cases heq
    exact ⟨k, rfl, hdropped, rfl⟩
  | _ => cases h

/-- What a step does to the broker, the queue and the events. -/
structure Performed (i : ThreadId) (a : Action) (s s' : Shared) : Prop where
  broker : s'.broker = a.onBroker i s.broker
  queue : s'.queue = a.onQueue i s.queue
  events : s'.events = a.onEvents i s.events

theorem Performed.of_frame (h : s'.broker = s.broker ∧ s'.queue = s.queue ∧ s'.events = s.events)
    (hbroker : a.onBroker i = id := by rfl) (hqueue : a.onQueue i = id := by rfl)
    (hevents : a.onEvents i = id := by rfl) : Performed i a s s' := by
  constructor
  · rw [h.1, hbroker]
    rfl
  · rw [h.2.1, hqueue]
    rfl
  · rw [h.2.2, hevents]
    rfl

theorem performed_of_perform (h : s.perform i a input = some (s', r)) : Performed i a s s' := by
  cases a with
  | forward clientId packet =>
    cases h
    exact .of_frame ⟨forward_broker clientId packet, forward_queue clientId packet⟩
  | forwardWeb subscriberId message =>
    cases h
    exact .of_frame ⟨forwardWeb_broker subscriberId message, forwardWeb_queue subscriberId message⟩
  | recvRouter =>
    cases hqueue : s.queue with
    | nil => simp [Shared.perform, hqueue] at h
    | cons sent rest =>
      simp only [Shared.perform, hqueue, Option.some.injEq, Prod.mk.injEq] at h
      obtain ⟨rfl, -⟩ := h
      exact ⟨rfl, by rw [hqueue]; rfl, rfl⟩
  | connectionsInsert clientId | webSubscribersInsert subscriberId =>
    cases i <;> first | cases h; exact ⟨rfl, rfl, rfl⟩ | cases h
  | read | wsNext | write what data | text message =>
    cases input <;> first | cases h; exact ⟨rfl, rfl, rfl⟩ | cases h
  | selectTcp =>
    cases input with
    | received received =>
      cases h
      exact .of_frame ⟨rfl, rfl, rfl⟩
    | forwarded =>
      obtain ⟨⟨s₁, data⟩, htake, heq⟩ := Option.map_eq_some_iff.mp h
      cases heq
      exact .of_frame (takeForwarded_frame htake).1
    | _ => cases h
  | selectWs =>
    cases input with
    | frame f =>
      cases h
      exact .of_frame ⟨rfl, rfl, rfl⟩
    | forwarded =>
      obtain ⟨⟨s₁, data⟩, htake, heq⟩ := Option.map_eq_some_iff.mp h
      cases heq
      exact .of_frame (takeForwarded_frame htake).1
    | ended =>
      cases h
      exact .of_frame ⟨rfl, rfl, rfl⟩
    | _ => cases h
  | recvForwarded =>
    obtain ⟨s₁, data, htake, rfl, -⟩ | ⟨rfl, -⟩ := recvForwarded_cases h
    · exact .of_frame (takeForwarded_frame htake).1
    · exact .of_frame ⟨rfl, rfl, rfl⟩
  | dropReceiver =>
    obtain ⟨k, -, -, rfl⟩ := dropReceiver_cases h
    exact .of_frame ⟨rfl, rfl, rfl⟩
  | selectWeb =>
    cases input with
    | webFrame f =>
      cases h
      exact .of_frame ⟨rfl, rfl, rfl⟩
    | forwarded =>
      obtain ⟨⟨s₁, message⟩, htake, heq⟩ := Option.map_eq_some_iff.mp h
      cases heq
      exact .of_frame (takeForwardedWeb_frame htake).1
    | _ => cases h
  | _ =>
    cases h
    exact ⟨rfl, rfl, rfl⟩

theorem node_performed {node node' : Node} (h : node.perform i a input = some (node', r)) :
    Performed i a node.shared node'.shared ∧ node'.database = node.database ∧ node'.life = node.life := by
  obtain ⟨⟨shared, r'⟩, hperform, heq⟩ := Option.map_eq_some_iff.mp h
  cases heq
  exact ⟨performed_of_perform hperform, rfl, rfl⟩

/-- What a step leaves of the maps, the queue and the events. -/
structure Effect (i : ThreadId) (a : Action) (s s' : Shared) : Prop where
  sessions : s'.broker.sessions = a.onSessions s.broker.sessions
  wills : s'.broker.wills = a.onWills i s.broker.wills
  subscriptions : s'.broker.subscriptions = a.onSubscriptions s.broker.subscriptions
  queue : s'.queue = a.onQueue i s.queue
  events : s'.events = a.onEvents i s.events

theorem perform_effect (h : s.perform i a input = some (s', r)) : Effect i a s s' := by
  obtain ⟨hbroker, hqueue, hevents⟩ := performed_of_perform h
  refine ⟨?_, ?_, ?_, hqueue, hevents⟩
  · rw [hbroker]
    cases a <;> cases i <;> rfl
  · rw [hbroker]
    cases a <;> cases i <;> rfl
  · rw [hbroker]
    cases a <;> cases i <;> rfl

theorem perform_connections (h : s.perform i a input = some (s', r)) :
    s'.broker.connections = a.onConnections i s.broker.connections := by
  rw [(performed_of_perform h).broker]
  cases a <;> cases i <;> rfl

theorem node_perform_effect {node node' : Node} (h : node.perform i a input = some (node', r)) :
    Effect i a node.shared node'.shared ∧ node'.database = node.database := by
  obtain ⟨⟨shared, r'⟩, hperform, heq⟩ := Option.map_eq_some_iff.mp h
  cases heq
  exact ⟨perform_effect hperform, rfl⟩

theorem perform_dropped (h : s.perform i a input = some (s', r)) : s'.dropped = a.onDropped i s.dropped := by
  cases a with
  | forward clientId packet =>
    cases h
    exact forward_dropped clientId packet
  | forwardWeb subscriberId message =>
    cases h
    exact forwardWeb_dropped subscriberId message
  | recvRouter =>
    cases hqueue : s.queue with
    | nil => simp [Shared.perform, hqueue] at h
    | cons sent rest =>
      simp only [Shared.perform, hqueue, Option.some.injEq, Prod.mk.injEq] at h
      obtain ⟨rfl, -⟩ := h
      rfl
  | connectionsInsert clientId | webSubscribersInsert subscriberId =>
    cases i <;> first | cases h; rfl | cases h
  | read | wsNext | write what data | text message =>
    cases input <;> first | cases h; rfl | cases h
  | selectTcp | selectWs =>
    cases input with
    | forwarded =>
      obtain ⟨⟨s₁, data⟩, htake, heq⟩ := Option.map_eq_some_iff.mp h
      cases heq
      exact (takeForwarded_frame htake).2
    | _ => first | cases h; rfl | cases h
  | recvForwarded =>
    obtain ⟨s₁, data, htake, rfl, -⟩ | ⟨rfl, -⟩ := recvForwarded_cases h
    · exact (takeForwarded_frame htake).2
    · rfl
  | dropReceiver =>
    obtain ⟨k, rfl, -, rfl⟩ := dropReceiver_cases h
    rfl
  | selectWeb =>
    cases input with
    | forwarded =>
      obtain ⟨⟨s₁, message⟩, htake, heq⟩ := Option.map_eq_some_iff.mp h
      cases heq
      exact (takeForwardedWeb_frame htake).2
    | _ => first | cases h; rfl | cases h
  | _ =>
    cases h
    rfl

theorem channels_forward {clientId : String} {packet : MqttPacket} (k : ConnId) :
    (s.forward clientId packet).channels k =
      s.channels k ++ if s.receiver clientId = some k then [sentBytes packet] else [] := by
  rw [forward_eq]
  cases s.receiver clientId with
  | none => simp
  | some k' =>
    by_cases hk : k = k'
    · subst hk
      simp
    · simp [Function.update_of_ne hk, Ne.symm hk]

theorem forwardWeb_channels (subscriberId : String) (message : WebMessage) :
    (s.forwardWeb subscriberId message).channels = s.channels := by
  unfold Shared.forwardWeb
  cases s.broker.webSubscribers.lookup subscriberId <;> rfl

theorem takeForwarded_channels {data : Bytes} (h : s.takeForwarded i = some (s', data)) (k : ConnId) :
    s.channels k = (if i = .connection k then [data] else []) ++ s'.channels k := by
  unfold Shared.takeForwarded at h
  cases i with
  | connection k' =>
    cases hchannel : s.channels k' with
    | nil => simp [hchannel] at h
    | cons first rest =>
      simp only [hchannel, Option.some.injEq, Prod.mk.injEq] at h
      obtain ⟨rfl, rfl⟩ := h
      by_cases hk : k = k'
      · subst hk
        simp [hchannel]
      · have hne : ThreadId.connection k' ≠ .connection k := fun heq => hk (ThreadId.connection.inj heq).symm
        rw [if_neg hne, List.nil_append]
        exact (Function.update_of_ne hk _ _).symm
  | _ => cases h

theorem takeForwardedWeb_channels {message : WebMessage} (h : s.takeForwardedWeb i = some (s', message)) :
    s'.channels = s.channels := by
  unfold Shared.takeForwardedWeb at h
  split at h
  · split at h
    · cases h
    · cases h
      rfl
  · cases h

/-- The channels are queues: what is in one and what is put in it is what is taken out of it and what is left. -/
theorem channels_of_perform (h : s.perform i a input = some (s', r)) (k : ConnId) :
    s.channels k ++ a.enqueues s.receiver k = a.dequeues i k r ++ s'.channels k := by
  cases a with
  | forward clientId packet =>
    cases h
    exact (channels_forward k).symm
  | forwardWeb subscriberId message =>
    cases h
    rw [forwardWeb_channels]
    exact List.append_nil _
  | recvRouter =>
    cases hqueue : s.queue with
    | nil => simp [Shared.perform, hqueue] at h
    | cons sent rest =>
      simp only [Shared.perform, hqueue, Option.some.injEq, Prod.mk.injEq] at h
      obtain ⟨rfl, -⟩ := h
      exact List.append_nil _
  | connectionsInsert clientId | webSubscribersInsert subscriberId =>
    cases i <;> first | cases h; exact List.append_nil _ | cases h
  | read | wsNext | write what data | text message =>
    cases input <;> first | cases h; exact List.append_nil _ | cases h
  | selectTcp =>
    cases input with
    | received received =>
      cases h
      exact List.append_nil _
    | forwarded =>
      obtain ⟨⟨s₁, data⟩, htake, heq⟩ := Option.map_eq_some_iff.mp h
      cases heq
      exact (List.append_nil _).trans (takeForwarded_channels htake k)
    | _ => cases h
  | selectWs =>
    cases input with
    | frame f =>
      cases h
      exact List.append_nil _
    | forwarded =>
      obtain ⟨⟨s₁, data⟩, htake, heq⟩ := Option.map_eq_some_iff.mp h
      cases heq
      exact (List.append_nil _).trans (takeForwarded_channels htake k)
    | ended =>
      cases h
      exact List.append_nil _
    | _ => cases h
  | recvForwarded =>
    obtain ⟨s₁, data, htake, rfl, rfl⟩ | ⟨rfl, rfl, -⟩ := recvForwarded_cases h
    · exact (List.append_nil _).trans (takeForwarded_channels htake k)
    · exact List.append_nil _
  | dropReceiver =>
    obtain ⟨k', -, -, rfl⟩ := dropReceiver_cases h
    exact List.append_nil _
  | selectWeb =>
    cases input with
    | webFrame f =>
      cases h
      exact List.append_nil _
    | forwarded =>
      obtain ⟨⟨s₁, message⟩, htake, heq⟩ := Option.map_eq_some_iff.mp h
      cases heq
      rw [takeForwardedWeb_channels htake]
      exact List.append_nil _
    | _ => cases h
  | _ =>
    cases h
    exact List.append_nil _

theorem recvRouter_reply {node node' : Node} {sent : ThreadId × BrokerMessage}
    (h : node.perform i .recvRouter input = some (node', sent)) : node.shared.queue = sent :: node'.shared.queue := by
  obtain ⟨⟨shared, r'⟩, hperform, heq⟩ := Option.map_eq_some_iff.mp h
  cases heq
  cases hqueue : node.shared.queue with
  | nil => simp [Shared.perform, hqueue] at hperform
  | cons first rest =>
    simp only [Shared.perform, hqueue, Option.some.injEq, Prod.mk.injEq] at hperform
    obtain ⟨rfl, rfl⟩ := hperform
    rfl

theorem willsRemove_reply {node node' : Node} {clientId : String} {found : Option (ThreadId × WillMessage)}
    (h : node.perform i (.willsRemove clientId) input = some (node', found)) :
    node.shared.broker.wills.lookup clientId = found := by
  obtain ⟨⟨shared, r'⟩, hperform, heq⟩ := Option.map_eq_some_iff.mp h
  cases heq
  cases hperform
  rfl

theorem lookup_reply {node node' : Node} {topic : String} {subscribers : List Subscription}
    (h : node.perform i (.lookup topic) input = some (node', subscribers)) :
    node.shared.broker.subscriptions.lookup topic = subscribers := by
  cases h
  rfl

end

theorem session_of_act {a : Action} {sessions : DashMap String SessionState} {clientId : String} {session : SessionState}
    (h : (a.onSessions sessions).lookup clientId = some session) :
    (∃ old, sessions.lookup clientId = some old ∧ (session = old ∨ session = { old with connected := false })) ∨
      a = .sessionsInsert clientId session := by
  cases a with
  | sessionsInsert clientId' session' =>
    cases DashMap.lookup_insert_eq_some.mp h with
    | inl hnew =>
      obtain ⟨rfl, rfl⟩ := hnew
      exact .inr rfl
    | inr hold => exact .inl ⟨session, hold.2, .inl rfl⟩
  | sessionsSetDisconnected clientId' =>
    obtain ⟨old, hold, hsession⟩ := DashMap.lookup_modify_eq_some.mp h
    refine .inl ⟨old, hold, ?_⟩
    split_ifs at hsession
    · exact .inr hsession
    · exact .inl hsession
  | sessionsRemove clientId' =>
    have hold := DashMap.lookup_erase_eq_some.mp h
    exact .inl ⟨session, hold.2, .inl rfl⟩
  | _ => exact .inl ⟨session, h, .inl rfl⟩

theorem has_of_act {a : Action} {tree : SubscriptionTree} (hheld : tree.Held) {clientId filter : String}
    (h : (a.onSubscriptions tree).Has clientId filter) :
    tree.Has clientId filter ∨ ∃ qos, a = .subscribe clientId filter qos := by
  cases a with
  | subscribe clientId' filter' qos' =>
    cases has_of_step hheld (.subscribe clientId' filter' qos') h with
    | inl h => exact .inl h
    | inr h =>
      obtain ⟨qos, heq⟩ := h
      cases heq
      exact .inr ⟨qos', rfl⟩
  | unsubscribe clientId' filter' =>
    cases has_of_step hheld (.unsubscribe clientId' filter') h with
    | inl h => exact .inl h
    | inr h =>
      obtain ⟨qos, heq⟩ := h
      cases heq
  | unsubscribeAll clientId' =>
    cases has_of_step hheld (.unsubscribeAll clientId') h with
    | inl h => exact .inl h
    | inr h =>
      obtain ⟨qos, heq⟩ := h
      cases heq
  | _ => exact .inl h

theorem held_of_act {tree : SubscriptionTree} (h : tree.Held) (a : Action) : (a.onSubscriptions tree).Held := by
  cases a with
  | subscribe clientId filter qos => exact h.step (.subscribe clientId filter qos)
  | unsubscribe clientId filter => exact h.step (.unsubscribe clientId filter)
  | unsubscribeAll clientId => exact h.step (.unsubscribeAll clientId)
  | _ => exact h

theorem held_of_restore (db : Database) : db.restore.subscriptions.Held := by
  apply List.foldlRecOn (motive := SubscriptionTree.Held) _ _ SubscriptionTree.Held.new
  intro tree h s _
  exact h.step (.subscribe s.clientId s.filter s.qos)

theorem held_of_startupCleanup {state : BrokerState} (h : state.subscriptions.Held) :
    (startupCleanup state).1.subscriptions.Held := by
  unfold startupCleanup
  apply List.foldlRecOn (motive := fun state : BrokerState => state.subscriptions.Held)
  · apply List.foldlRecOn (motive := fun state : BrokerState => state.subscriptions.Held) _ _ h
    intro state h clientId _
    exact h.step (.unsubscribeAll clientId)
  · intro state h clientId _
    exact h.step (.unsubscribeAll clientId)

theorem held_of_started (db : Database) : (started db).shared.shared.broker.subscriptions.Held :=
  held_of_startupCleanup (held_of_restore db)

theorem held_of_run {settings : Settings} {evs : List BrokerEvent} {cfg₀ cfg : BrokerConfigState}
    {P : List BrokerEvent → BrokerConfigState → BrokerEvent → BrokerConfigState → Prop}
    (hinit : cfg₀.shared.shared.broker.subscriptions.Held) (hrun : (brokerSystem settings).RunWhere P cfg₀ evs cfg) :
    cfg.shared.shared.broker.subscriptions.Held := by
  induction hrun with
  | nil => exact hinit
  | snoc run step ok ih =>
    cases step with
    | spawn _ _ => exact ih
    | @act i p a k input node r hrunning hnext hperform =>
      have heffect := (node_perform_effect hperform).1
      rw [heffect.subscriptions]
      exact held_of_act ih a
    | @world w node ends hworld =>
      cases w with
      | commit n =>
        cases hworld
        exact ih
      | restart =>
        obtain ⟨rfl, rfl⟩ := restart_of_world hworld
        exact held_of_startupCleanup (held_of_restore _)

end AtomMqtt
