import AtomMqtt.Delivery
import AtomMqtt.Effects

set_option autoImplicit false

/-! What a SUBSCRIBE leaves behind. Filter after filter, in both versions: the tree, the events for the
database, the retained messages on the client's channel, and the answer. -/
namespace AtomMqtt
open Programs

def BrokerState.replayed (b : BrokerState) (filter : String) : List RetainedMessage :=
  b.retained.values.filter fun item => (TopicFilter.new filter).matches item.topic && !item.payload.isEmpty

/-- The subscriptions were made in this order, saved, and answered on channel `k` with the retained messages. -/
structure Subscribed (i : ThreadId) (clientId : String) (k : ConnId) (filters : List (String × QoS)) (s s' : Shared) :
    Prop where
  tree : s'.broker.subscriptions =
    filters.foldl (fun tree f => tree.subscribe clientId f.1 f.2) s.broker.subscriptions
  saved : s'.events = s.events ++ filters.map fun f => (i, .SaveSubscription clientId f.1 f.2.toI32)
  channel : s'.channels k = s.channels k ++ filters.flatMap fun f =>
    (s.broker.replayed f.1).map fun item => publishBytes item.topic item.payload true
  otherChannels : ∀ k', k' ≠ k → s'.channels k' = s.channels k'
  broker : s'.broker = { s.broker with subscriptions := s'.broker.subscriptions, metrics := s'.broker.metrics }
  queue : s'.queue = s.queue
  dropped : s'.dropped = s.dropped

section
variable {i : ThreadId} {input : Action → Input} {clientId username : String} {k : ConnId} {s s₁ s' : Shared}
  {settings : Settings}

theorem Subscribed.nil (s : Shared) : Subscribed i clientId k [] s s where
  tree := rfl
  saved := (List.append_nil _).symm
  channel := (List.append_nil _).symm
  otherChannels := fun _ _ => rfl
  broker := rfl
  queue := rfl
  dropped := rfl

theorem Subscribed.append {filters filters' : List (String × QoS)} (h : Subscribed i clientId k filters s s₁)
    (h' : Subscribed i clientId k filters' s₁ s') : Subscribed i clientId k (filters ++ filters') s s' where
  tree := by rw [h'.tree, h.tree, List.foldl_append]
  saved := by rw [h'.saved, h.saved, List.map_append, List.append_assoc]
  channel := by
    have hsame : s₁.broker.replayed = s.broker.replayed := by
      rw [h.broker]
      rfl
    rw [h'.channel, h.channel, hsame, List.flatMap_append, List.append_assoc]
  otherChannels := fun k' hk => (h'.otherChannels k' hk).trans (h.otherChannels k' hk)
  broker := by
    rw [h'.broker, h.broker]
  queue := h'.queue.trans h.queue
  dropped := h'.dropped.trans h.dropped

theorem Subscribed.receiver {filters : List (String × QoS)} (h : Subscribed i clientId k filters s s') :
    s'.receiver = s.receiver := by
  unfold Shared.receiver
  rw [h.broker, h.dropped]

def Shared.sendRetained (s : Shared) (clientId : String) (items : List RetainedMessage) : Shared :=
  items.foldl (fun s item => s.forward clientId (publishPacket item.topic item.payload true)) s

theorem sendRetained_frame (s : Shared) (clientId : String) (items : List RetainedMessage) :
    (s.sendRetained clientId items).broker = s.broker ∧
      (s.sendRetained clientId items).events = s.events ∧ (s.sendRetained clientId items).queue = s.queue ∧
      (s.sendRetained clientId items).dropped = s.dropped := by
  induction items generalizing s with
  | nil => exact ⟨rfl, rfl, rfl, rfl⟩
  | cons item items ih =>
    obtain ⟨hbroker, hevents, hqueue, hdropped⟩ := ih (s.forward clientId (publishPacket item.topic item.payload true))
    obtain ⟨hqueue', hevents'⟩ := forward_queue (s := s) clientId (publishPacket item.topic item.payload true)
    exact ⟨hbroker.trans (forward_broker _ _), hevents.trans hevents', hqueue.trans hqueue',
      hdropped.trans (forward_dropped _ _)⟩

theorem sendRetained_channels (hk : s.receiver clientId = some k) (items : List RetainedMessage) :
    (s.sendRetained clientId items).channels = Function.update s.channels k
      (s.channels k ++ items.map fun item => publishBytes item.topic item.payload true) := by
  induction items generalizing s with
  | nil => simp [Shared.sendRetained]
  | cons item items ih =>
    have hsame : (s.forward clientId (publishPacket item.topic item.payload true)).receiver clientId = some k := by
      unfold Shared.receiver
      rw [forward_broker, forward_dropped]
      exact hk
    have hrest := ih (s := s.forward clientId (publishPacket item.topic item.payload true)) hsame
    refine hrest.trans ?_
    rw [forward_channel item.topic item.payload true hk]
    simp

def Shared.subscribed (i : ThreadId) (clientId : String) (s : Shared) (f : String × QoS) : Shared :=
  let s := s.onBroker fun b => { b with subscriptions := b.subscriptions.subscribe clientId f.1 f.2 }
  let s := { s with events := s.events ++ [(i, PersistEvent.SaveSubscription clientId f.1 f.2.toI32)] }
  s.sendRetained clientId (s.broker.replayed f.1)

theorem acceptSubscription_runs (f : String × QoS) :
    RunsTo i input (acceptSubscription clientId f.1 f.2) s (s.subscribed i clientId f) () := by
  apply runsTo_run rfl
  apply runsTo_run rfl
  apply runsTo_ask rfl
  rw [Shared.subscribed, Shared.sendRetained, BrokerState.replayed, List.foldl_filter]
  apply Leads.forM
  intro item _ s
  split_ifs
  · exact runsTo_run_last rfl
  · exact .ret _ _

theorem subscribed_one (hk : s.receiver clientId = some k) (f : String × QoS) :
    Subscribed i clientId k [f] s (s.subscribed i clientId f) := by
  let s₁ := s.onBroker fun b => { b with subscriptions := b.subscriptions.subscribe clientId f.1 f.2 }
  let s₂ := { s₁ with events := s₁.events ++ [(i, PersistEvent.SaveSubscription clientId f.1 f.2.toI32)] }
  obtain ⟨hbroker, hevents, hqueue, hdropped⟩ := sendRetained_frame s₂ clientId (s₂.broker.replayed f.1)
  have hchannels := sendRetained_channels (s := s₂) hk (s₂.broker.replayed f.1)
  constructor
  · exact congrArg BrokerState.subscriptions hbroker
  · exact hevents
  · refine (congrFun hchannels k).trans ?_
    rw [Function.update_self, List.flatMap_singleton]
    rfl
  · intro k' hne
    exact (congrFun hchannels k').trans (Function.update_of_ne hne _ _)
  · rw [show (s.subscribed i clientId f).broker = s₂.broker from hbroker]
    rfl
  · exact hqueue
  · exact hdropped

theorem subscribed_all (hk : s.receiver clientId = some k) (filters : List (String × QoS)) :
    Subscribed i clientId k filters s (filters.foldl (Shared.subscribed i clientId) s) := by
  induction filters generalizing s with
  | nil => exact .nil s
  | cons f filters ih =>
    have hone := subscribed_one (i := i) hk f
    exact hone.append (ih (hone.receiver ▸ hk))

/-- The filters that the rules allow the user to subscribe to. -/
def Settings.allowed (settings : Settings) (username : String) (filters : List (String × QoS)) : List (String × QoS) :=
  filters.filter fun f => settings.acl.authorizeSubscribe username f.1

theorem subscribeFilters_runs (settings : Settings) (username : String) {γ δ : Type} (filters : List γ)
    (request : γ → String × QoS) (denied : δ) (code : γ → δ) (hk : s.receiver clientId = some k) :
    ∃ s', RunsTo i input (filters.mapM fun filter =>
        if !settings.acl.authorizeSubscribe username (request filter).1 then return denied
        else do
          acceptSubscription clientId (request filter).1 (request filter).2
          return code filter) s s'
        (filters.map fun filter =>
          if settings.acl.authorizeSubscribe username (request filter).1 then code filter else denied) ∧
      Subscribed i clientId k (settings.allowed username (filters.map request)) s s' := by
  let next : Shared → γ → Shared := fun s filter =>
    if settings.acl.authorizeSubscribe username (request filter).1 then s.subscribed i clientId (request filter) else s
  refine ⟨filters.foldl next s, ?_, ?_⟩
  · apply Leads.mapM
    intro filter _ s
    cases hallowed : settings.acl.authorizeSubscribe username (request filter).1 with
    | false =>
      simp only [next, hallowed]
      exact .ret _ _
    | true =>
      simp only [next, hallowed]
      exact (acceptSubscription_runs (request filter)).bind (.ret _ _)
  · have hfold : filters.foldl next s =
        (settings.allowed username (filters.map request)).foldl (Shared.subscribed i clientId) s := by
      rw [Settings.allowed, List.foldl_filter, List.foldl_map]
    rw [hfold]
    exact subscribed_all hk _

theorem Subscribed.sync {filters : List (String × QoS)} (h : Subscribed i clientId k filters s s') :
    Subscribed i clientId k filters s (s'.onBroker fun b =>
      { b with metrics := { b.metrics with subscriptionsActive := b.subscriptions.count } }) where
  tree := h.tree
  saved := h.saved
  channel := h.channel
  otherChannels := h.otherChannels
  broker := by
    unfold Shared.onBroker
    rw [h.broker]
  queue := h.queue
  dropped := h.dropped

end

/-- A SUBSCRIBE of either version: its packet id and what it asks for. -/
def MqttPacket.subscription : MqttPacket → Option (UInt16 × List (String × QoS))
  | .V311 (.Subscribe p) => some (p.packetId, p.filters.map fun f => (f.path, f.qos))
  | .V5 (.Subscribe p) => some (p.packetId, p.filters.map fun f => (f.path, f.qos))
  | _ => none

def grantedCodeV3 : QoS → V3.SubAckReturnCode
  | .AtMostOnce => .SuccessQoS0
  | .AtLeastOnce => .SuccessQoS1
  | .ExactlyOnce => .SuccessQoS2

def grantedCodeV5 : QoS → V5.ReasonCode
  | .AtMostOnce => .Success
  | .AtLeastOnce => .GrantedQoS1
  | .ExactlyOnce => .GrantedQoS2

/-- The answer that has one code for each filter, in order: that of the QoS if the filter is allowed,
    the code of a failure if it is not. -/
def subAck (settings : Settings) (username : String) (packetId : UInt16) (filters : List (String × QoS)) :
    ProtocolVersion → MqttPacket
  | .V311 => .V311 (.SubAck { packetId, returnCodes := filters.map fun f =>
      if settings.acl.authorizeSubscribe username f.1 then grantedCodeV3 f.2 else .Failure })
  | .V5 => .V5 (.SubAck { packetId, properties := V5.Properties.new, reasonCodes := filters.map fun f =>
      if settings.acl.authorizeSubscribe username f.1 then grantedCodeV5 f.2 else .NotAuthorized })

theorem returnCodes_eq (settings : Settings) (username : String) (filters : List V3.SubscribeFilter) :
    (filters.map fun f => if settings.acl.authorizeSubscribe username f.path then f.qos.toU8 else 0x80).filterMap
        V3.SubAckReturnCode.fromU8 =
      filters.map fun f => if settings.acl.authorizeSubscribe username f.path then grantedCodeV3 f.qos else .Failure := by
  have hgranted : ∀ qos : QoS, V3.SubAckReturnCode.fromU8 qos.toU8 = some (grantedCodeV3 qos) := by
    intro qos
    cases qos <;> rfl
  rw [List.filterMap_map, ← List.filterMap_eq_map]
  apply List.filterMap_congr
  intro f _
  simp only [Function.comp_apply]
  split_ifs
  · exact hgranted f.qos
  · rfl

theorem grantedCodeV5_eq_success {qos : QoS} : V5.ReasonCode.Success = grantedCodeV5 qos ↔ qos = .AtMostOnce := by
  cases qos <;> simp [grantedCodeV5]

/-- In both versions a SUBSCRIBE makes, saves and answers with retained messages exactly the subscriptions that
    the rules allow. The acknowledgement is right for version 3.1.1, and for version 5.0 exactly if every
    filter that is allowed asks for QoS 0. -/
theorem subscribe_iff (settings : Settings) (username : String) {packet : MqttPacket} {packetId : UInt16}
    {filters : List (String × QoS)} (hpacket : packet.subscription = some (packetId, filters)) {s : Shared}
    {clientId : String} {k : ConnId} (hk : s.receiver clientId = some k) (i : ThreadId)
    (input : Action → Input) :
    ∃ s' response, RunsTo i input (processPacket settings packet clientId username) s s' (.ok (some response)) ∧
      Subscribed i clientId k (settings.allowed username filters) s s' ∧
      (response = subAck settings username packetId filters packet.version ↔
        packet.version = .V311 ∨ ∀ f ∈ settings.allowed username filters, f.2 = .AtMostOnce) := by
  cases packet with
  | V311 p =>
    cases p with
    | Subscribe p =>
      cases hpacket
      obtain ⟨s', hruns, hsubscribed⟩ := subscribeFilters_runs (i := i) settings username p.filters
        (fun f => (f.path, f.qos)) (0x80 : UInt8) (fun f => f.qos.toU8) hk
      refine ⟨_, _, hruns.bind (runsTo_run rfl (.ret _ _)), hsubscribed.sync, ?_⟩
      refine iff_of_true ?_ (.inl rfl)
      simp only [returnCodes_eq, subAck, MqttPacket.version, List.map_map]
      rfl
    | _ => cases hpacket
  | V5 p =>
    cases p with
    | Subscribe p =>
      cases hpacket
      obtain ⟨s', hruns, hsubscribed⟩ := subscribeFilters_runs (i := i) settings username p.filters
        (fun f => (f.path, f.qos)) V5.ReasonCode.NotAuthorized (fun _ => V5.ReasonCode.Success) hk
      refine ⟨_, _, hruns.bind (runsTo_run rfl (.ret _ _)), hsubscribed.sync, ?_⟩
      have hversion : ¬ MqttPacket.version (.V5 (.Subscribe p)) = .V311 := by
        intro h
        cases h
      rw [or_iff_right hversion]
      simp only [subAck, MqttPacket.version, List.map_map, MqttPacket.V5.injEq, V5.MqttPacketV5.SubAck.injEq,
        V5.SubAckPacket.mk.injEq, true_and, and_true, List.map_inj_left, Function.comp_apply, Settings.allowed,
        List.mem_filter, List.mem_map, and_imp, forall_exists_index, forall_apply_eq_imp_iff₂]
      apply forall₂_congr
      intro f _
      split_ifs with hallowed
      · rw [grantedCodeV5_eq_success]
        exact ⟨fun h _ => h, fun h => h hallowed⟩
      · exact iff_of_true rfl (fun h => absurd h hallowed)
    | _ => cases hpacket

def retainedA : Shared :=
  Shared.start { BrokerState.new with
    connections := (∅ : DashMap String ConnId).insert "c" 0
    retained := (∅ : DashMap String RetainedMessage).insert "a" { topic := "a", payload := [0x78], qos := .AtMostOnce } } []

theorem subscribe_v3 :
    let packet : MqttPacket := .V311 (.Subscribe { packetId := 7, filters := [{ path := "a", qos := .AtLeastOnce }] })
    ∃ s' response, RunsTo (.connection 0) (fun _ => .go) (processPacket openSettings packet "c" "u") retainedA s'
        (.ok (some response)) ∧
      Subscribed (.connection 0) "c" 0 (openSettings.allowed "u" [("a", .AtLeastOnce)]) retainedA s' ∧
      (response = subAck openSettings "u" 7 [("a", .AtLeastOnce)] packet.version ↔
        packet.version = .V311 ∨ ∀ f ∈ openSettings.allowed "u" [("a", .AtLeastOnce)], f.2 = .AtMostOnce) := by
  intro packet
  have hpacket : packet.subscription = some (7, [("a", .AtLeastOnce)]) := rfl
  exact subscribe_iff openSettings "u" hpacket (by decide) (.connection 0) (fun _ => .go)

def subscribeV5 : MqttPacket :=
  .V5 (.Subscribe { packetId := 7, properties := V5.Properties.new, filters :=
    [{ path := "a", qos := .AtLeastOnce, noLocal := false, retainAsPublished := false, retainHandling := .Send }] })

/-- A subscription with QoS 1 is made, and answered with the code of QoS 0. -/
theorem subscribe_v5_granted : ∃ s', RunsTo (.connection 0) (fun _ => .go)
      (processPacket openSettings subscribeV5 "c" "u") retainedA s'
      (.ok (some (.V5 (.SubAck { packetId := 7, reasonCodes := [.Success], properties := V5.Properties.new })))) ∧
    s'.broker.subscriptions.allSubscriptions = [{ clientId := "c", filter := "a", qos := .AtLeastOnce }] ∧
    subAck openSettings "u" 7 [("a", .AtLeastOnce)] .V5 =
      .V5 (.SubAck { packetId := 7, reasonCodes := [.GrantedQoS1], properties := V5.Properties.new }) := by
  refine ⟨_, ⟨_, rfl⟩, ?_, ?_⟩
  · decide +kernel
  · decide +kernel

end AtomMqtt
