import AtomMqtt.Delivery
import AtomMqtt.Effects

set_option autoImplicit false

/-! The copies of a message on one channel. The router forwards a message once for each subscription that the
search finds, and the search keeps two subscriptions of one client apart by their filters. -/
namespace AtomMqtt
open Programs

/-- How many of these subscriptions lead to the channel of connection `k`, by the live entries of their clients. -/
def Shared.leadTo (s : Shared) (k : ConnId) (subscribers : List Subscription) : ℕ :=
  subscribers.countP fun sub => s.receiver sub.clientId == some k

def Shared.forwardAll (s : Shared) (subscribers : List Subscription) (packet : MqttPacket) : Shared :=
  subscribers.foldl (fun s sub => s.forward sub.clientId packet) s

def Shared.forwardWebAll (s : Shared) (subscribers : List Subscription) (message : WebMessage) : Shared :=
  subscribers.foldl (fun s sub => s.forwardWeb sub.clientId message) s

section
variable {s : Shared} {topic : String} {payload : Bytes} {retain : Bool}

theorem forwardAll_channels (subscribers : List Subscription) (k : ConnId) :
    (s.forwardAll subscribers (publishPacket topic payload retain)).channels k =
      s.channels k ++ List.replicate (s.leadTo k subscribers) (publishBytes topic payload retain) := by
  induction subscribers generalizing s with
  | nil => simp [Shared.forwardAll, Shared.leadTo]
  | cons sub subscribers ih =>
    have hrest := ih (s := s.forward sub.clientId (publishPacket topic payload retain))
    have hcount : (s.forward sub.clientId (publishPacket topic payload retain)).leadTo k subscribers =
        s.leadTo k subscribers := by
      unfold Shared.leadTo Shared.receiver
      rw [forward_broker, forward_dropped]
    have hmore : s.leadTo k (sub :: subscribers) =
        s.leadTo k subscribers + if s.receiver sub.clientId = some k then 1 else 0 := by
      simp [Shared.leadTo, List.countP_cons]
    rw [hcount, channels_forward, sentBytes_publishPacket, List.append_assoc] at hrest
    refine hrest.trans ?_
    rw [hmore]
    by_cases hk : s.receiver sub.clientId = some k
    · simp [hk, List.replicate_succ]
    · simp [hk]

theorem forwardWebAll_channels (subscribers : List Subscription) (message : WebMessage) :
    (s.forwardWebAll subscribers message).channels = s.channels := by
  induction subscribers generalizing s with
  | nil => rfl
  | cons sub subscribers ih =>
    exact (ih (s := s.forwardWeb sub.clientId message)).trans (forwardWeb_channels _ _)

def Shared.delivered (s : Shared) (subscribers : List Subscription) (packet : MqttPacket) (message : WebMessage) :
    Shared :=
  (s.forwardAll subscribers packet).forwardWebAll subscribers message

theorem delivered_channels (subscribers : List Subscription) (message : WebMessage) (k : ConnId) :
    (s.delivered subscribers (publishPacket topic payload retain) message).channels k =
      s.channels k ++ List.replicate (s.leadTo k subscribers) (publishBytes topic payload retain) :=
  (congrFun (forwardWebAll_channels subscribers message) k).trans (forwardAll_channels subscribers k)

theorem delivered_broker (subscribers : List Subscription) (packet : MqttPacket) (message : WebMessage) :
    (s.delivered subscribers packet message).broker = s.broker := by
  have hforward : ∀ s : Shared, (s.forwardAll subscribers packet).broker = s.broker := by
    induction subscribers with
    | nil => exact fun _ => rfl
    | cons sub subscribers ih => exact fun s => (ih _).trans (forward_broker sub.clientId packet)
  have hweb : ∀ s : Shared, (s.forwardWebAll subscribers message).broker = s.broker := by
    clear hforward
    induction subscribers with
    | nil => exact fun _ => rfl
    | cons sub subscribers ih => exact fun s => (ih _).trans (forwardWeb_broker sub.clientId message)
  exact (hweb _).trans (hforward s)

theorem runsTo_delivered {i : ThreadId} {input : Action → Input} {subscribers : List Subscription} {packet : MqttPacket}
    {message : WebMessage} {rest : Broker Unit} {s' : Shared}
    (h : RunsTo i input rest (s.delivered subscribers packet message) s' ()) :
    RunsTo i input (do
      subscribers.forM fun sub => run (.forward sub.clientId packet)
      subscribers.forM fun sub => run (.forwardWeb sub.clientId message)
      rest) s s' () := by
  have hforward : RunsTo i input (subscribers.forM fun sub => run (.forward sub.clientId packet)) s
      (s.forwardAll subscribers packet) () := .forM (fun sub _ s => runsTo_run_last rfl) s
  have hweb : RunsTo i input (subscribers.forM fun sub => run (.forwardWeb sub.clientId message))
      (s.forwardAll subscribers packet) (s.delivered subscribers packet message) () :=
    .forM (fun sub _ s => runsTo_run_last rfl) _
  exact hforward.bind (hweb.bind h)

def retainedAfter (retain : Bool) (message : RetainedMessage) (retained : DashMap String RetainedMessage) :
    DashMap String RetainedMessage :=
  if retain then retained.insert message.topic message else retained

/-- Run alone, the router leaves on each channel one copy for each subscription found that leads to it. -/
theorem routePublish_copies (i : ThreadId) (input : Action → Input) (qos : QoS) (retain : Bool) (sourceClient : String) :
    ∃ s', RunsTo i input (routePublish topic payload qos retain sourceClient) s s' () ∧
      (∀ k, s'.channels k = s.channels k ++
        List.replicate (s.leadTo k (s.broker.subscriptions.lookup topic)) (publishBytes topic payload false)) ∧
      s'.broker.retained = retainedAfter retain { topic, payload, qos } s.broker.retained := by
  generalize hfound : s.broker.subscriptions.lookup topic = subscribers
  let published : MetricsOp := .incrementMessagesPublished
  let s₁ := s.onBroker fun b => { b with metrics := published.apply b.metrics }
  let s₂ := s₁.delivered subscribers (publishPacket topic payload false) (.Publish topic payload qos.toU8 sourceClient)
  have hcopies : ∀ k, s₂.channels k =
      s.channels k ++ List.replicate (s.leadTo k subscribers) (publishBytes topic payload false) :=
    delivered_channels subscribers _
  have hretained : s₂.broker.retained = s.broker.retained := by
    have hbroker : s₂.broker = s₁.broker := delivered_broker _ _ _
    rw [hbroker]
    rfl
  have hstart : ∀ {rest : Broker Unit} {s' : Shared}, RunsTo i input rest s₂ s' () → RunsTo i input (do
      let subscribers ← ask (.lookup topic)
      metrics .incrementMessagesPublished
      subscribers.forM fun sub => run (.forward sub.clientId (publishPacket topic payload false))
      subscribers.forM fun sub => run (.forwardWeb sub.clientId (.Publish topic payload qos.toU8 sourceClient))
      rest) s s' () := by
    intro rest s' h
    have hlookup : s.perform i (.lookup topic) (input (.lookup topic)) = some (s, subscribers) := by
      rw [← hfound]
      rfl
    apply runsTo_ask hlookup
    exact runsTo_run rfl (runsTo_delivered h)
  cases retain with
  | false => exact ⟨s₂, hstart (.ret _ _), hcopies, hretained⟩
  | true =>
    refine ⟨_, hstart (runsTo_run_last rfl), hcopies, ?_⟩
    exact congrArg (retainedAfter true { topic, payload, qos }) hretained

end

/-- A search for the topic visits the path of the filter. -/
def Finds (filter topic : String) : Prop := splitSlash filter ∈ matchPaths (splitSlash topic)

instance (filter topic : String) : Decidable (Finds filter topic) := inferInstanceAs (Decidable (_ ∈ _))

/-- No two subscriptions that match the topic lead to one channel whose receiver is still there. -/
def ChannelsApart (M : SubscriptionMap) (receiver : String → Option ConnId) (topic : String) : Prop :=
  ∀ {c f c' f' : String} {k : ConnId}, (M (c, f)).isSome = true → Finds f topic → (M (c', f')).isSome = true →
    Finds f' topic → receiver c = some k → receiver c' = some k → c = c' ∧ f = f'

theorem countP_le_one {α : Type} [DecidableEq α] {xs : List α} (hnodup : xs.Nodup) (p : α → Bool) :
    xs.countP p ≤ 1 ↔ ∀ a ∈ xs, p a = true → ∀ b ∈ xs, p b = true → a = b := by
  rw [List.countP_eq_length_filter, ← List.toFinset_card_of_nodup (hnodup.filter p), Finset.card_le_one]
  simp only [List.mem_toFinset, List.mem_filter, and_imp]

theorem leadTo_le_one_iff {s : Shared} {M : SubscriptionMap} (hM : Represents M s.broker.subscriptions.root)
    (topic : String) :
    (∀ k, s.leadTo k (s.broker.subscriptions.lookup topic) ≤ 1) ↔ ChannelsApart M s.receiver topic := by
  have hnodup : (s.broker.subscriptions.lookup topic).Nodup := (lookup_keys_nodup _ topic).of_map
  simp only [Shared.leadTo, countP_le_one hnodup, beq_iff_eq]
  constructor
  · intro h c f c' f' k hsome hfinds hsome' hfinds' hk hk'
    obtain ⟨qos, hqos⟩ := Option.isSome_iff_exists.mp hsome
    obtain ⟨qos', hqos'⟩ := Option.isSome_iff_exists.mp hsome'
    have hsub := (hM.mem_lookup topic { clientId := c, filter := f, qos }).mpr ⟨hqos, hfinds⟩
    have hsub' := (hM.mem_lookup topic { clientId := c', filter := f', qos := qos' }).mpr ⟨hqos', hfinds'⟩
    have heq := h k _ hsub hk _ hsub' hk'
    exact ⟨congrArg Subscription.clientId heq, congrArg Subscription.filter heq⟩
  · intro h k a ha hka b hb hkb
    obtain ⟨hMa, hpath⟩ := (hM.mem_lookup topic a).mp ha
    obtain ⟨hMb, hpath'⟩ := (hM.mem_lookup topic b).mp hb
    have hsame := h (Option.isSome_of_eq_some hMa) hpath (Option.isSome_of_eq_some hMb) hpath' hka hkb
    have hkey : a.key = b.key := Prod.ext hsame.1 hsame.2
    obtain ⟨c, f, q⟩ := a
    obtain ⟨c', f', q'⟩ := b
    obtain ⟨rfl, rfl⟩ := hsame
    rw [hkey, hMb] at hMa
    cases hMa
    rfl

/-- Over any subscriptions that a sequence of operations has left, the router enqueues a published message
    at most once on each channel exactly if no two subscriptions that match its topic lead to one channel by live
    entries. -/
theorem oneCopy_iff {s : Shared} {ops : List TreeOp}
    (htree : s.broker.subscriptions = ops.foldl TreeOp.onTree SubscriptionTree.new) (i : ThreadId)
    (input : Action → Input) (topic : String) (payload : Bytes) (qos : QoS) (retain : Bool) (sourceClient : String) :
    ∃ (s' : Shared) (copies : ConnId → ℕ),
      RunsTo i input (routeMessage (.Publish topic payload qos retain sourceClient)) s s' () ∧
      (∀ k, s'.channels k = s.channels k ++ List.replicate (copies k) (publishBytes topic payload false)) ∧
      ((∀ k, copies k ≤ 1) ↔
        ChannelsApart (ops.foldl TreeOp.onMap SubscriptionMap.empty) s.receiver topic) := by
  have hM : Represents (ops.foldl TreeOp.onMap SubscriptionMap.empty) s.broker.subscriptions.root := by
    rw [htree]
    exact Represents.empty.run ops
  obtain ⟨s', hruns, hcopies, -⟩ := routePublish_copies i input qos retain sourceClient
  exact ⟨s', fun k => s.leadTo k (s.broker.subscriptions.lookup topic), hruns, hcopies, leadTo_le_one_iff hM topic⟩

def connectedC (ops : List TreeOp) : Shared :=
  Shared.start { BrokerState.new with
    subscriptions := ops.foldl TreeOp.onTree SubscriptionTree.new
    connections := (∅ : DashMap String ConnId).insert "c" 0 } []

theorem oneCopy_twoClients :
    let ops : List TreeOp := [.subscribe "c" "foo/+" .AtMostOnce, .subscribe "d" "+/bar" .AtMostOnce]
    ∃ (s' : Shared) (copies : ConnId → ℕ),
      RunsTo (.router 0) (fun _ => .go) (routeMessage (.Publish "foo/bar" [0x78] .AtMostOnce false "e"))
        (connectedC ops) s' () ∧
      (∀ k, s'.channels k = (connectedC ops).channels k ++
        List.replicate (copies k) (publishBytes "foo/bar" [0x78] false)) ∧
      ((∀ k, copies k ≤ 1) ↔
        ChannelsApart (ops.foldl TreeOp.onMap SubscriptionMap.empty) (connectedC ops).receiver "foo/bar") := by
  intro ops
  have htree : (connectedC ops).broker.subscriptions = ops.foldl TreeOp.onTree SubscriptionTree.new := rfl
  exact oneCopy_iff htree (.router 0) (fun _ => .go) "foo/bar" [0x78] .AtMostOnce false "e"

/-- The client has subscribed to `foo/+` and to `+/bar`: it is sent two copies of a message on `foo/bar`. -/
theorem oneCopy_fails :
    ∃ s', RunsTo (.router 0) (fun _ => .go) (routeMessage (.Publish "foo/bar" [0x78] .AtMostOnce false "e"))
        (connectedC [.subscribe "c" "foo/+" .AtMostOnce, .subscribe "c" "+/bar" .AtMostOnce]) s' () ∧
      s'.channels 0 = [publishBytes "foo/bar" [0x78] false, publishBytes "foo/bar" [0x78] false] := by
  obtain ⟨s', hruns, hcopies, -⟩ : ∃ s', RunsTo (.router 0) (fun _ => .go) (routePublish "foo/bar" [0x78] .AtMostOnce false "e")
      (connectedC [.subscribe "c" "foo/+" .AtMostOnce, .subscribe "c" "+/bar" .AtMostOnce]) s' () ∧ _ :=
    routePublish_copies (.router 0) (fun _ => .go) .AtMostOnce false "e"
  have htwo : (connectedC [.subscribe "c" "foo/+" .AtMostOnce, .subscribe "c" "+/bar" .AtMostOnce]).leadTo 0
      ((connectedC [.subscribe "c" "foo/+" .AtMostOnce, .subscribe "c" "+/bar" .AtMostOnce]).broker.subscriptions.lookup
        "foo/bar") = 2 := by decide +kernel
  refine ⟨s', hruns, ?_⟩
  rw [hcopies 0, htwo]
  rfl

end AtomMqtt
