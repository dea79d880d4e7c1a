import AtomMqtt.Library.Erasure
import AtomMqtt.OtherClients
import AtomMqtt.WebSessions

set_option autoImplicit false

/-! A run without one of its web sessions. What a session does is taken out of a run, with the forwards to it
and its subscriptions in what the router finds. The rest is a run, and the others hold the same subscriptions in
it. -/
namespace AtomMqtt
open Programs

def forwardsTo (id : String) : ThreadId → Action → Bool
  | .router _, .forward clientId _ => clientId == id
  | .router _, .forwardWeb subscriberId _ => subscriberId == id
  | _, _ => false

/-- A lookup does not find this id. -/
def viewWithout (id : String) : (a : Action) → Reply a → Reply a
  | .lookup _, subscribers => withoutClient id subscribers
  | _, r => r

def isSession (k : WebId) : ThreadId → Bool
  | .web j => j == k
  | _ => false

theorem isSession_iff {k : WebId} {i : ThreadId} : isSession k i = true ↔ i = .web k := by
  cases i <;> simp [isSession]

/-- What is left of an event without web session `k` of this id. -/
def withoutSession (k : WebId) (id : String) : BrokerEvent → Option BrokerEvent :=
  Event.erase (isSession k) (forwardsTo id) (viewWithout id)

section
variable {id : String} {i : ThreadId} {life : ℕ} {α : Type}

/-- The task goes on in the same way when it is not told of the id. -/
abbrev Unmoved (id : String) (i : ThreadId) (p : Broker α) : Prop :=
  Erases (forwardsTo id i) (viewWithout id) p p

theorem unmoved_of_only {N : Action → Prop} {p : Broker α} (h : Only N p)
    (hshown : ∀ a, N a → forwardsTo id i a = false) (hlookup : ∀ topic, ¬ N (.lookup topic)) : Unmoved id i p := by
  apply Erases.of_only h hshown
  intro a ha r
  cases a with
  | lookup topic => exact absurd ha (hlookup topic)
  | _ => rfl

theorem forwards_erase {packet : MqttPacket} {message : WebMessage} {subscribers : List Subscription}
    {rest : Broker Unit} (hrest : Unmoved id (.router life) rest) :
    Erases (forwardsTo id (.router life)) (viewWithout id)
      (do
        subscribers.forM fun sub => run (.forward sub.clientId packet)
        subscribers.forM fun sub => run (.forwardWeb sub.clientId message)
        rest)
      (do
        (withoutClient id subscribers).forM fun sub => run (.forward sub.clientId packet)
        (withoutClient id subscribers).forM fun sub => run (.forwardWeb sub.clientId message)
        rest) := by
  have hloop : ∀ a : Subscription → Action, (∀ sub, forwardsTo id (.router life) (a sub) = (sub.clientId == id)) →
      (∀ sub (r : Reply (a sub)), viewWithout id (a sub) r = r) →
      Erases (forwardsTo id (.router life)) (viewWithout id) (subscribers.forM fun sub => run (a sub))
        ((withoutClient id subscribers).forM fun sub => run (a sub)) := by
    intro a hforwards hview
    apply Erases.forM_filter
    · intro sub hkept
      exact .keep ((hforwards sub).trans (beq_eq_false_iff_ne.mpr (bne_iff_ne.mp hkept))) fun _ => .ret _
    · intro sub hdropped
      refine .drop ((hforwards sub).trans ?_) fun _ => .ret _
      simpa using hdropped
  apply (hloop (fun sub => .forward sub.clientId packet) (fun _ => rfl) fun _ _ => rfl).bind
  intro _
  apply (hloop (fun sub => .forwardWeb sub.clientId message) (fun _ => rfl) fun _ _ => rfl).bind
  intro _
  exact hrest

theorem unmoved_run {a : Action} {f : Unit → Broker α} (hshown : forwardsTo id i a = false) (hf : Unmoved id i (f ())) :
    Unmoved id i (run a >>= f) := .keep hshown fun _ => hf

theorem unmoved_run_last {a : Action} (hshown : forwardsTo id i a = false) : Unmoved id i (run a) :=
  .keep hshown fun _ => .ret _

theorem routePublish_unmoved (topic : String) (payload : Bytes) (qos : QoS) (retain : Bool) (sourceClient : String) :
    Unmoved id (.router life) (routePublish topic payload qos retain sourceClient) := by
  unfold routePublish
  refine .keep (o := Action.lookup topic) rfl fun subscribers => ?_
  refine .keep (o := Action.metrics .incrementMessagesPublished) rfl fun _ => ?_
  apply forwards_erase
  cases retain with
  | false => exact .ret _
  | true => exact unmoved_run_last rfl

theorem deliverWill_unmoved (clientId : String) (will : WillMessage) :
    Unmoved id (.router life) (deliverWill clientId will) := by
  unfold deliverWill
  refine .keep (o := Action.lookup will.topic) rfl fun subscribers => ?_
  apply forwards_erase
  cases will.retain with
  | false => exact unmoved_run_last rfl
  | true => exact unmoved_run rfl (unmoved_run_last rfl)

theorem routeDisconnected_unmoved (clientId : String) (cleanSession : Bool) :
    Unmoved id (.router life) (routeDisconnected clientId cleanSession) := by
  have hend : Unmoved id (.router life) (if cleanSession = true then (do
      run (.unsubscribeAll clientId)
      sendEvent (.RemoveClientSubscriptions clientId)
      run (.sessionsRemove clientId)
      sendEvent (.RemoveSession clientId)
      run .syncSubscriptionsActive : Broker Unit) else run (.sessionsSetDisconnected clientId)) := by
    cases cleanSession with
    | false => exact unmoved_run_last rfl
    | true => exact unmoved_run rfl (unmoved_run rfl (unmoved_run rfl (unmoved_run rfl (unmoved_run_last rfl))))
  unfold routeDisconnected
  refine .keep (o := Action.willsRemove clientId) rfl fun will => ?_
  cases will with
  | none => exact hend
  | some sent => exact (deliverWill_unmoved clientId sent.2).bind fun _ => hend

theorem routerLoop_unmoved : Unmoved id (.router life) routerLoop := by
  unfold routerLoop
  refine .keep (o := Action.recvRouter) rfl fun sent => ?_
  apply Erases.bind (f := fun _ => pure Control.router)
  · obtain ⟨sender, message⟩ := sent
    cases message with
    | Publish topic payload qos retain sourceClient => exact routePublish_unmoved topic payload qos retain sourceClient
    | ClientDisconnected clientId cleanSession => exact routeDisconnected_unmoved clientId cleanSession
  · exact fun _ => .ret _

theorem publishMessage_unmoved {m : ℕ} (topic payload : String) (qos : UInt8) (retain : Bool) :
    Unmoved id (.request m) (publishMessage topic payload qos retain) := by
  have hend : Unmoved id (.request m) (do
      metrics .incrementMessagesPublished
      run (.lookup topic)
      return Control.exited true) := unmoved_run rfl (unmoved_run rfl (.ret _))
  unfold publishMessage
  apply unmoved_run rfl
  split
  · exact unmoved_run rfl hend
  · exact hend

/-- Every task goes on in the same way. -/
theorem body_unmoved (settings : Settings) {d : Duty Note Action} {c : Control} (h : Settled i d c) :
    Unmoved id i (body settings c) := by
  cases i with
  | router life =>
    cases c with
    | router => exact routerLoop_unmoved
    | exited ok => exact unmoved_run rfl (.ret _)
    | _ => exact h.elim
  | connection k | web k =>
    apply unmoved_of_only (body_only settings h) fun _ _ => rfl
    intro topic hmay
    exact (hmay rfl).elim False.elim False.elim
  | request m =>
    cases c with
    | publishRequest topic payload qos retain => exact publishMessage_unmoved topic payload qos retain
    | deleteRetainedRequest topic =>
      refine .keep (o := Action.retainedContains topic) rfl fun contained => ?_
      cases contained with
      | false => exact .ret _
      | true => exact unmoved_run rfl (unmoved_run rfl (.ret _))
    | disconnectRequest clientId => exact .keep (o := Action.sessionsSetDisconnected clientId) rfl fun _ => .ret _
    | exited ok => exact unmoved_run rfl (.ret _)
    | _ => exact h.elim

end

/-- The parts of the shared state that a session has to do with. -/
structure Footprint where
  subscriptions : SubscriptionTree
  metrics : BrokerMetrics
  webSubscribers : DashMap String WebId
  webChannels : WebId → List WebMessage

/-- The state with other such parts. -/
def Shared.marked (s : Shared) (m : Footprint) : Shared :=
  { s with
    broker :=
      { s.broker with subscriptions := m.subscriptions, metrics := m.metrics, webSubscribers := m.webSubscribers }
    webChannels := m.webChannels }

def Shared.footprint (s : Shared) : Footprint :=
  ⟨s.broker.subscriptions, s.broker.metrics, s.broker.webSubscribers, s.webChannels⟩

def Node.marked (node : Node) (m : Footprint) : Node := { node with shared := node.shared.marked m }

/-- These parts are as they are without session `k`, the only one of its id. -/
structure Traceless (k : WebId) (id : String) (s : Shared) (m : Footprint) : Prop where
  subscriptions : s.broker.subscriptions.Apart id m.subscriptions
  webSubscribers : ∀ c, c ≠ id → m.webSubscribers.lookup c = s.broker.webSubscribers.lookup c
  entry : m.webSubscribers.lookup id = none
  webChannels : ∀ j, j ≠ k → m.webChannels j = s.webChannels j

/-- The second state is the first as it is without the session. -/
def NeverThere (k : WebId) (id : String) (node node' : Node) : Prop :=
  ∃ m, node' = node.marked m ∧ Traceless k id node.shared m

section
variable {k : WebId} {id : String} {i : ThreadId} {s s' : Shared} {m : Footprint} {a : Action} {input : Input}
  {r : Reply a}

@[simp] theorem Shared.marked_connections (s : Shared) (m : Footprint) :
    (s.marked m).broker.connections = s.broker.connections := rfl

@[simp] theorem Shared.marked_webSubscribers (s : Shared) (m : Footprint) :
    (s.marked m).broker.webSubscribers = m.webSubscribers := rfl

@[simp] theorem Shared.marked_channels (s : Shared) (m : Footprint) : (s.marked m).channels = s.channels := rfl

@[simp] theorem Shared.marked_dropped (s : Shared) (m : Footprint) : (s.marked m).dropped = s.dropped := rfl

@[simp] theorem Shared.marked_webChannels (s : Shared) (m : Footprint) : (s.marked m).webChannels = m.webChannels := rfl

theorem Shared.send_marked (s : Shared) (m : Footprint) (j : ConnId) (data : Bytes) :
    (s.marked m).send j data = (s.send j data).marked m := by
  unfold Shared.send
  rw [marked_dropped]
  cases s.dropped j <;> rfl

theorem Shared.forward_marked (s : Shared) (m : Footprint) (clientId : String) (packet : MqttPacket) :
    (s.marked m).forward clientId packet = (s.forward clientId packet).marked m := by
  unfold Shared.forward
  rw [marked_connections]
  cases s.broker.connections.lookup clientId with
  | none => rfl
  | some j =>
    cases encodePacket packet with
    | error e => rfl
    | ok encoded => exact s.send_marked m j encoded

theorem Shared.takeForwarded_marked (s : Shared) (m : Footprint) (i : ThreadId) :
    (s.marked m).takeForwarded i = (s.takeForwarded i).map fun taken => (taken.1.marked m, taken.2) := by
  cases i with
  | connection j =>
    simp only [Shared.takeForwarded, marked_channels]
    cases s.channels j <;> rfl
  | _ => rfl

namespace Traceless

theorem send (h : Traceless k id s m) (j : ConnId) (data : Bytes) : Traceless k id (s.send j data) m := by
  unfold Shared.send
  split_ifs
  · exact h
  · exact { h with }

theorem forward (h : Traceless k id s m) (clientId : String) (packet : MqttPacket) :
    Traceless k id (s.forward clientId packet) m := by
  unfold Shared.forward
  cases s.broker.connections.lookup clientId with
  | none => exact h
  | some j =>
    cases encodePacket packet with
    | error e => exact h
    | ok encoded => exact h.send j encoded

theorem takeForwarded (h : Traceless k id s m) {data : Bytes} (htake : s.takeForwarded i = some (s', data)) :
    Traceless k id s' m := by
  unfold Shared.takeForwarded at htake
  split at htake
  · split at htake
    · cases htake
    · cases htake
      exact { h with }
  · cases htake

theorem received (h : Traceless k id s m) {γ : Type} {f : Bytes → γ} {x : γ}
    (hreceived : (s.takeForwarded i).map (fun taken => (taken.1, f taken.2)) = some (s', x)) :
    ((s.marked m).takeForwarded i).map (fun taken => (taken.1, f taken.2)) = some (s'.marked m, x) ∧
      Traceless k id s' m := by
  obtain ⟨⟨s₁, data⟩, htake, heq⟩ := Option.map_eq_some_iff.mp hreceived
  cases heq
  refine ⟨?_, h.takeForwarded htake⟩
  rw [s.takeForwarded_marked, htake]
  rfl

theorem onChannel (h : Traceless k id s m) (j : WebId) (f : List WebMessage → List WebMessage) :
    Traceless k id { s with webChannels := Function.update s.webChannels j (f (s.webChannels j)) }
      { m with webChannels := Function.update m.webChannels j (f (m.webChannels j)) } :=
  { h with
    webChannels := by
      intro l hl
      by_cases hlj : l = j
      · subst hlj
        change Function.update m.webChannels l _ l = Function.update s.webChannels l _ l
        rw [Function.update_self, Function.update_self, h.webChannels l hl]
      · change Function.update m.webChannels j _ l = Function.update s.webChannels j _ l
        rw [Function.update_of_ne hlj, Function.update_of_ne hlj, h.webChannels l hl] }

theorem forwardWeb_own (h : Traceless k id s m) (hentry : ∀ j, s.broker.webSubscribers.lookup id = some j → j = k)
    (message : WebMessage) : Traceless k id (s.forwardWeb id message) m := by
  unfold Shared.forwardWeb
  cases hlookup : s.broker.webSubscribers.lookup id with
  | none => exact h
  | some j =>
    obtain rfl := hentry j hlookup
    refine { h with webChannels := fun l hl => (h.webChannels l hl).trans ?_ }
    exact (Function.update_of_ne hl _ _).symm

theorem forwardWeb (h : Traceless k id s m) (hentry : ∀ j, s.broker.webSubscribers.lookup id = some j → j = k)
    (subscriberId : String) (message : WebMessage) :
    ∃ m', (s.marked m).forwardWeb subscriberId message = (s.forwardWeb subscriberId message).marked m' ∧
      Traceless k id (s.forwardWeb subscriberId message) m' := by
  by_cases hid : subscriberId = id
  · subst hid
    refine ⟨m, ?_, h.forwardWeb_own hentry message⟩
    have hnone : (s.marked m).forwardWeb subscriberId message = s.marked m := by
      unfold Shared.forwardWeb
      rw [Shared.marked_webSubscribers, h.entry]
    rw [hnone]
    unfold Shared.forwardWeb
    cases s.broker.webSubscribers.lookup subscriberId <;> rfl
  · unfold Shared.forwardWeb
    rw [Shared.marked_webSubscribers, h.webSubscribers subscriberId hid]
    cases s.broker.webSubscribers.lookup subscriberId with
    | none => exact ⟨m, rfl, h⟩
    | some j => exact ⟨_, rfl, h.onChannel j fun messages => messages ++ [message]⟩

theorem takeForwardedWeb (h : Traceless k id s m) (hi : isSession k i = false) {message : WebMessage}
    (htake : s.takeForwardedWeb i = some (s', message)) :
    ∃ m', (s.marked m).takeForwardedWeb i = some (s'.marked m', message) ∧ Traceless k id s' m' := by
  cases i with
  | web j =>
    have hj : j ≠ k := beq_eq_false_iff_ne.mp hi
    simp only [Shared.takeForwardedWeb, Shared.marked_webChannels, h.webChannels j hj] at htake ⊢
    cases hchannel : s.webChannels j with
    | nil => simp [hchannel] at htake
    | cons first rest =>
      simp only [hchannel, Option.some.injEq, Prod.mk.injEq] at htake
      obtain ⟨rfl, rfl⟩ := htake
      exact ⟨_, rfl, h.onChannel j fun _ => rest⟩
  | _ => cases htake

theorem insert (h : Traceless k id s m) {subscriberId : String} (hid : subscriberId ≠ id) (j : WebId) :
    Traceless k id (s.onBroker fun b => { b with webSubscribers := b.webSubscribers.insert subscriberId j })
      { m with webSubscribers := m.webSubscribers.insert subscriberId j } :=
  { h with
    webSubscribers := by
      intro c hc
      change (m.webSubscribers.insert subscriberId j).lookup c =
        (s.broker.webSubscribers.insert subscriberId j).lookup c
      rw [DashMap.lookup_insert, DashMap.lookup_insert, h.webSubscribers c hc]
    entry := by
      change (m.webSubscribers.insert subscriberId j).lookup id = none
      rw [DashMap.lookup_insert, if_neg hid, h.entry] }

theorem remove (h : Traceless k id s m) (subscriberId : String) :
    Traceless k id (s.onBroker fun b => { b with webSubscribers := b.webSubscribers.erase subscriberId })
      { m with webSubscribers := m.webSubscribers.erase subscriberId } :=
  { h with
    webSubscribers := by
      intro c hc
      change (m.webSubscribers.erase subscriberId).lookup c = (s.broker.webSubscribers.erase subscriberId).lookup c
      rw [DashMap.lookup_erase, DashMap.lookup_erase, h.webSubscribers c hc]
    entry := by
      change (m.webSubscribers.erase subscriberId).lookup id = none
      rw [DashMap.lookup_erase, h.entry, ite_self] }

theorem recvRouter (h : Traceless k id s m) {sent : ThreadId × BrokerMessage}
    (hperform : s.perform i .recvRouter input = some (s', sent)) :
    (s.marked m).perform i .recvRouter input = some (s'.marked m, sent) ∧ Traceless k id s' m := by
  cases hqueue : s.queue with
  | nil => simp [Shared.perform, hqueue] at hperform
  | cons first rest =>
    simp only [Shared.perform, hqueue, Option.some.injEq, Prod.mk.injEq] at hperform
    obtain ⟨rfl, rfl⟩ := hperform
    have hsame : (s.marked m).queue = first :: rest := hqueue
    refine ⟨?_, { h with }⟩
    simp only [Shared.perform, hsame]
    rfl

theorem selectTcp (h : Traceless k id s m) {event : TcpEvent}
    (hperform : s.perform i .selectTcp input = some (s', event)) :
    (s.marked m).perform i .selectTcp input = some (s'.marked m, event) ∧ Traceless k id s' m := by
  cases input with
  | received bytes =>
    cases hperform
    exact ⟨rfl, h⟩
  | forwarded => exact h.received hperform
  | _ => cases hperform

theorem selectWs (h : Traceless k id s m) {event : WsEvent}
    (hperform : s.perform i .selectWs input = some (s', event)) :
    (s.marked m).perform i .selectWs input = some (s'.marked m, event) ∧ Traceless k id s' m := by
  cases input with
  | frame f =>
    cases hperform
    exact ⟨rfl, h⟩
  | forwarded => exact h.received hperform
  | ended =>
    cases hperform
    exact ⟨rfl, h⟩
  | _ => cases hperform

theorem recvForwarded (h : Traceless k id s m) {data : Option Bytes}
    (hperform : s.perform i .recvForwarded input = some (s', data)) :
    (s.marked m).perform i .recvForwarded input = some (s'.marked m, data) ∧ Traceless k id s' m := by
  have hclosed : (s.marked m).channelClosed i = s.channelClosed i := by
    cases i <;> rfl
  simp only [Shared.perform] at hperform ⊢
  rw [s.takeForwarded_marked, hclosed]
  cases htake : s.takeForwarded i with
  | some taken =>
    rw [htake] at hperform
    cases hperform
    exact ⟨rfl, h.takeForwarded htake⟩
  | none =>
    rw [htake] at hperform
    simp only [Option.map_none]
    split_ifs at hperform ⊢
    cases hperform
    exact ⟨rfl, h⟩

theorem dropReceiver (h : Traceless k id s m) {u : Unit} (hperform : s.perform i .dropReceiver input = some (s', u)) :
    (s.marked m).perform i .dropReceiver input = some (s'.marked m, u) ∧ Traceless k id s' m := by
  obtain ⟨j, rfl, hthere, rfl⟩ := dropReceiver_cases hperform
  refine ⟨?_, { h with }⟩
  simp only [Shared.perform, Shared.marked_dropped, hthere]
  rfl

theorem selectWeb (h : Traceless k id s m) (hi : isSession k i = false) {event : WebEvent}
    (hperform : s.perform i .selectWeb input = some (s', event)) :
    ∃ m', (s.marked m).perform i .selectWeb input = some (s'.marked m', event) ∧ Traceless k id s' m' := by
  cases input with
  | webFrame f =>
    cases hperform
    exact ⟨m, rfl, h⟩
  | forwarded =>
    obtain ⟨⟨s₁, message⟩, htake, heq⟩ := Option.map_eq_some_iff.mp hperform
    cases heq
    obtain ⟨m', htake', htraceless⟩ := h.takeForwardedWeb hi htake
    refine ⟨m', ?_, htraceless⟩
    change ((s.marked m).takeForwardedWeb i).map _ = _
    rw [htake']
    rfl
  | _ => cases hperform

theorem kept (h : Traceless k id s m) (hi : isSession k i = false)
    (hentry : ∀ j, s.broker.webSubscribers.lookup id = some j → j = k) (huses : ¬ a.Uses id)
    (hperform : s.perform i a input = some (s', r)) :
    ∃ m', (s.marked m).perform i a input = some (s'.marked m', viewWithout id a r) ∧ Traceless k id s' m' := by
  cases a with
  | subscribe clientId filter qos =>
    cases hperform
    exact ⟨{ m with subscriptions := m.subscriptions.subscribe clientId filter qos }, rfl,
      { h with subscriptions := h.subscriptions.subscribe huses filter qos }⟩
  | unsubscribe clientId filter =>
    cases hperform
    exact ⟨{ m with subscriptions := m.subscriptions.unsubscribe clientId filter }, rfl,
      { h with subscriptions := h.subscriptions.unsubscribe clientId filter }⟩
  | unsubscribeAll clientId =>
    cases hperform
    exact ⟨{ m with subscriptions := m.subscriptions.unsubscribeAll clientId }, rfl,
      { h with subscriptions := h.subscriptions.unsubscribeAll clientId }⟩
  | lookup topic =>
    cases hperform
    refine ⟨m, ?_, h⟩
    change some (s.marked m, m.subscriptions.lookup topic) = _
    rw [h.subscriptions.lookup]
    rfl
  | syncSubscriptionsActive =>
    cases hperform
    exact ⟨{ m with metrics := { m.metrics with subscriptionsActive := m.subscriptions.count } }, rfl, { h with }⟩
  | metrics op =>
    cases hperform
    exact ⟨{ m with metrics := op.apply m.metrics }, rfl, { h with }⟩
  | webSubscribersContains subscriberId =>
    cases hperform
    refine ⟨m, ?_, h⟩
    change some (s.marked m, (m.webSubscribers.lookup subscriberId).isSome) = _
    rw [h.webSubscribers subscriberId huses]
    rfl
  | webSubscribersInsert subscriberId =>
    cases i with
    | web j =>
      cases hperform
      exact ⟨_, rfl, h.insert huses j⟩
    | _ => cases hperform
  | webSubscribersRemove subscriberId =>
    cases hperform
    exact ⟨_, rfl, h.remove subscriberId⟩
  | connectionsInsert clientId =>
    cases i with
    | connection j =>
      cases hperform
      exact ⟨m, rfl, { h with }⟩
    | _ => cases hperform
  | forward clientId packet =>
    cases hperform
    exact ⟨m, congrArg (fun t => some (t, ())) (s.forward_marked m clientId packet), h.forward clientId packet⟩
  | forwardWeb subscriberId message =>
    cases hperform
    obtain ⟨m', hmarked, htraceless⟩ := h.forwardWeb hentry subscriberId message
    exact ⟨m', congrArg (fun t => some (t, ())) hmarked, htraceless⟩
  | recvRouter => exact ⟨m, h.recvRouter hperform⟩
  | selectTcp => exact ⟨m, h.selectTcp hperform⟩
  | selectWs => exact ⟨m, h.selectWs hperform⟩
  | recvForwarded => exact ⟨m, h.recvForwarded hperform⟩
  | dropReceiver => exact ⟨m, h.dropReceiver hperform⟩
  | selectWeb => exact h.selectWeb hi hperform
  | read | wsNext | write what data | text message =>
    cases input <;> first | cases hperform; exact ⟨m, rfl, h⟩ | cases hperform
  | _ =>
    cases hperform
    exact ⟨m, rfl, { h with }⟩

theorem own (h : Traceless k id s m) (hmay : SessionMay id a) (hperform : s.perform (.web k) a input = some (s', r)) :
    s'.marked m = s.marked m ∧ Traceless k id s' m := by
  cases a with
  | subscribe clientId filter qos =>
    obtain rfl : clientId = id := hmay
    cases hperform
    exact ⟨rfl, { h with subscriptions := h.subscriptions.subscribe_own filter qos }⟩
  | unsubscribe clientId filter =>
    obtain rfl : clientId = id := hmay
    cases hperform
    exact ⟨rfl, { h with subscriptions := h.subscriptions.unsubscribe_own filter }⟩
  | webSubscribersInsert clientId =>
    obtain rfl : clientId = id := hmay
    cases hperform
    refine ⟨rfl, { h with webSubscribers := fun c hc => (h.webSubscribers c hc).trans ?_ }⟩
    exact (AList.lookup_insert_ne hc).symm
  | webSubscribersRemove clientId =>
    obtain rfl : clientId = id := hmay
    cases hperform
    refine ⟨rfl, { h with webSubscribers := fun c hc => (h.webSubscribers c hc).trans ?_ }⟩
    exact (AList.lookup_erase_ne hc).symm
  | selectWeb =>
    cases input with
    | webFrame f =>
      cases hperform
      exact ⟨rfl, h⟩
    | forwarded =>
      obtain ⟨⟨s₁, message⟩, htake, heq⟩ := Option.map_eq_some_iff.mp hperform
      cases heq
      simp only [Shared.takeForwardedWeb] at htake
      split at htake
      · cases htake
      · cases htake
        refine ⟨rfl, { h with webChannels := fun j hj => (h.webChannels j hj).trans ?_ }⟩
        exact (Function.update_of_ne hj _ _).symm
    | _ => cases hperform
  | text message =>
    cases input with
    | written ok =>
      cases hperform
      exact ⟨rfl, h⟩
    | _ => cases hperform
  | webSubscribersContains clientId | pong bytes =>
    cases hperform
    exact ⟨rfl, h⟩
  | dropReceiver => cases hperform
  | _ => exact hmay.elim

theorem forwarded (h : Traceless k id s m) (hconnection : s.broker.connections.lookup id = none)
    (hentry : ∀ j, s.broker.webSubscribers.lookup id = some j → j = k) (hforwards : forwardsTo id i a = true)
    (hperform : s.perform i a input = some (s', r)) : s'.marked m = s.marked m ∧ Traceless k id s' m := by
  cases i with
  | router life =>
    cases a with
    | forward clientId packet =>
      obtain rfl : clientId = id := beq_iff_eq.mp hforwards
      cases hperform
      have hnone : s.forward clientId packet = s := by
        rw [Shared.forward, hconnection]
      rw [hnone]
      exact ⟨rfl, h⟩
    | forwardWeb subscriberId message =>
      obtain rfl : subscriberId = id := beq_iff_eq.mp hforwards
      cases hperform
      refine ⟨?_, h.forwardWeb_own hentry message⟩
      unfold Shared.forwardWeb
      cases s.broker.webSubscribers.lookup subscriberId <;> rfl
    | _ => cases hforwards
  | _ => cases hforwards

end Traceless

theorem NeverThere.refl {node : Node} (h : HeldBy k id node [] false) : NeverThere k id node node := by
  refine ⟨node.shared.footprint, rfl, ?_, fun _ _ => rfl, h.entry, fun _ _ => rfl⟩
  exact .refl h.held fun filter hhas => List.not_mem_nil ((h.has filter).mp hhas)

end

section
variable {settings : Settings} {db : Database} {k : WebId} {id : String} {evs : List BrokerEvent}
  {cfg cfg' : BrokerConfigState}

theorem settled_of_run (hrun : (brokerSystem settings).RunWhere (fun _ _ e _ => Alone k id e) (started db) evs cfg)
    {i : ThreadId} {c : Control} (hthread : cfg.thread i = .running (.ret c)) : Settled i (duties evs i) c := by
  have hmeets : Meets (agenda i).monitor (Settled i) (duties evs i) (.ret c) :=
    (duties_cover settings).meets (fun _ => rfl) hrun hthread
  exact hmeets.of_ret

theorem entry_of_run (hdb : db.Unaware id)
    (hrun : (brokerSystem settings).RunWhere (fun _ _ e _ => Alone k id e) (started db) evs cfg) {j : WebId}
    (hlookup : cfg.shared.shared.broker.webSubscribers.lookup id = some j) : j = k := by
  obtain ⟨filters, entered, hheld⟩ := (inStep_of_run hdb hrun).heldBy
  rw [hheld.entry] at hlookup
  cases entered with
  | true => exact (Option.some.inj hlookup).symm
  | false => cases hlookup

theorem NeverThere.kept {node node' : Node} {s : Node} {i : ThreadId} {a : Action} {input : Input} {r : Reply a}
    (h : NeverThere k id node s) (hi : isSession k i = false)
    (hentry : ∀ j, node.shared.broker.webSubscribers.lookup id = some j → j = k) (huses : ¬ a.Uses id)
    (hperform : node.perform i a input = some (node', r)) :
    ∃ s', s.perform i a input = some (s', viewWithout id a r) ∧ NeverThere k id node' s' := by
  obtain ⟨m, rfl, htraceless⟩ := h
  obtain ⟨⟨shared, r'⟩, hshared, heq⟩ := Option.map_eq_some_iff.mp hperform
  cases heq
  obtain ⟨m', hperform', htraceless'⟩ := htraceless.kept hi hentry huses hshared
  refine ⟨Node.marked { node with shared } m', ?_, m', rfl, htraceless'⟩
  change ((node.shared.marked m).perform i a input).map _ = _
  rw [hperform']
  rfl

/-- What session `k` does, and what is forwarded to it, leaves the state without it as it is. -/
theorem NeverThere.left {node node' s : Node} {i : ThreadId} {a : Action} {input : Input} {r : Reply a}
    (h : NeverThere k id node s) (hconnection : node.shared.broker.connections.lookup id = none)
    (hentry : ∀ j, node.shared.broker.webSubscribers.lookup id = some j → j = k) (hmay : i = .web k → SessionMay id a)
    (hleft : i = .web k ∨ forwardsTo id i a = true) (hperform : node.perform i a input = some (node', r)) :
    NeverThere k id node' s := by
  obtain ⟨m, rfl, htraceless⟩ := h
  obtain ⟨⟨shared, r'⟩, hshared, heq⟩ := Option.map_eq_some_iff.mp hperform
  cases heq
  have hsame : shared.marked m = node.shared.marked m ∧ Traceless k id shared m := by
    cases hleft with
    | inl hi =>
      subst hi
      exact htraceless.own (hmay rfl) hshared
    | inr hforwards => exact htraceless.forwarded hconnection hentry hforwards hshared
  refine ⟨m, ?_, hsame.2⟩
  rw [Node.marked, Node.marked, hsame.1]

theorem NeverThere.commit {node s : Node} (h : NeverThere k id node s) (n : ℕ) :
    NeverThere k id (node.commit n) (s.commit n) := by
  obtain ⟨m, rfl, htraceless⟩ := h
  exact ⟨m, rfl, { htraceless with }⟩

theorem NeverThere.restart {node s : Node} (h : NeverThere k id node s) : s.restart = node.restart := by
  obtain ⟨m, rfl, -⟩ := h
  rfl

theorem sessionErasure (hdb : db.Unaware id) : Erasure (brokerSystem settings) (isSession k) (forwardsTo id)
    (viewWithout id) (fun _ _ e _ => Alone k id e) (started db) (NeverThere k id) where
  init := NeverThere.refl (.restart hdb)
  fresh := fun _ => rfl
  body := by
    intro evs cfg i c hrun hthread _
    exact body_unmoved settings (settled_of_run hrun hthread)
  first := by
    intro evs cfg i c a f hrun hthread _ hfirst
    cases i with
    | router life =>
      have hsettled := settled_of_run hrun hthread
      cases c with
      | router =>
        cases hfirst
        rfl
      | exited ok =>
        cases hfirst
        rfl
      | _ => exact hsettled.elim
    | _ => rfl
  start := by
    rintro node _ i c ⟨m, rfl, -⟩ _ hstart
    rw [← hstart]
    rfl
  kept := by
    intro evs cfg cfg' i a r input node hrun halone hi _ hperform hrel
    have hother : i ≠ .web k := fun heq => absurd (hi.symm.trans (isSession_iff.mpr heq)) nofun
    exact hrel.kept hi (fun j => entry_of_run hdb hrun) (halone.others i a r rfl hother) hperform
  left := by
    intro evs cfg cfg' i a r node hrun hstep _ hleft hrel
    obtain ⟨filters, entered, hheld⟩ := (inStep_of_run hdb hrun).heldBy
    cases hstep with
    | act hrunning hnext hperform =>
      have hmay : i = .web k → SessionMay id a := by
        rintro rfl
        have hid := ((inStep_of_run hdb hrun).running _ hrunning).1
        have hallowed : SessionMay (trails evs (.web k)).subscriberId a :=
          (trails_cover settings).allows (fun _ => rfl) hrun hrunning hnext
        exact hid ▸ hallowed
      have hout : i = .web k ∨ forwardsTo id i a = true := by
        cases (Bool.or_eq_true _ _).mp hleft with
        | inl hi => exact .inl (isSession_iff.mp hi)
        | inr hforwards => exact .inr hforwards
      exact hrel.left hheld.connection (fun j => entry_of_run hdb hrun) hmay hout hperform
  world := by
    intro evs cfg w node ends node' hrun hworld hrel
    cases w with
    | commit n =>
      cases hworld
      exact ⟨node'.commit n, rfl, hrel.commit n⟩
    | restart =>
      obtain ⟨rfl, rfl⟩ := restart_of_world hworld
      refine ⟨node'.restart, rfl, ?_⟩
      rw [hrel.restart]
      exact .refl (.restart (inStep_of_run hdb hrun).unaware)

/-- A web session whose id nobody else uses has in its list what the tree holds for it, each filter once; at its end
    the tree and the map of web subscribers have nothing of it; and there is a run without it, in which the others
    hold the same subscriptions. -/
theorem webSession_traceless (hdb : db.Unaware id)
    (hrun : (brokerSystem settings).RunWhere (fun _ _ e _ => Alone k id e) (started db) evs cfg) :
    (∀ activeSubscriptions, cfg.thread (.web k) = .running (.ret (.webSession id activeSubscriptions)) →
      activeSubscriptions.Nodup ∧
        ∀ filter, cfg.shared.shared.broker.subscriptions.Has id filter ↔ filter ∈ activeSubscriptions) ∧
    (∀ ok, cfg.thread (.web k) = .running (.ret (.exited ok)) →
      (∀ filter, ¬ cfg.shared.shared.broker.subscriptions.Has id filter) ∧
        cfg.shared.shared.broker.webSubscribers.lookup id = none) ∧
    ∃ cfg', (brokerSystem settings).Run (started db) (evs.filterMap (withoutSession k id)) cfg' ∧
      cfg'.thread (.web k) = .fresh ∧ ∀ other filter, other ≠ id →
        cfg'.shared.shared.broker.subscriptions.entries (other, filter) =
          cfg.shared.shared.broker.subscriptions.entries (other, filter) := by
  refine ⟨fun _ => session_holds hdb hrun, fun _ => session_gone hdb hrun, ?_⟩
  obtain ⟨cfg', hrun', ⟨m, hmarked, htraceless⟩, hleaves⟩ := (sessionErasure hdb).run hrun
  refine ⟨cfg', hrun', hleaves.out _ (isSession_iff.mpr rfl), fun other filter hother => ?_⟩
  have hheld' := held_of_run (held_of_started db) hrun'
  rw [hmarked] at hheld' ⊢
  exact htraceless.subscriptions.entries (held_of_run (held_of_started db) hrun) hheld' hother filter

end

def keepsAlone (k : WebId) (id : String) : BrokerEvent → Bool
  | .spawn i c => i != .web k || c == .webSession id []
  | .act i a _ => i == .web k || match a with
    | .subscribe clientId _ _ | .sendEvent (.SaveSubscription clientId _ _) | .connectionsInsert clientId =>
      clientId != id
    | .unsubscribe _ _ | .unsubscribeAll _ | .webSubscribersContains _ | .webSubscribersInsert _
    | .webSubscribersRemove _ => false
    | _ => true
  | .world _ => true

theorem alone_of_keepsAlone {k : WebId} {id : String} {e : BrokerEvent} (h : keepsAlone k id e = true) :
    Alone k id e where
  session := by
    rintro c rfl
    simpa [keepsAlone] using h
  others := by
    rintro i a r rfl hi huses
    simp only [keepsAlone, Bool.or_eq_true, beq_iff_eq, hi, false_or] at h
    cases a with
    | sendEvent event => cases event <;> first | exact huses | exact bne_iff_ne.mp h huses
    | _ => first | exact huses | exact bne_iff_ne.mp h huses | cases h

def sessionMoves : List BrokerMove :=
  [.spawn (.web 0) (.webSession "webui-sub-1" []), .act (.web 0) (.webFrame (.text (.subscribe "t" 0)))] ++
  turns (.web 0) 4 ++
  joinMoves 0 "c" true ++
  [.act (.connection 0) (.received (.data (sentBytes (.V311 (.Subscribe
    { packetId := 1, filters := [{ path := "t", qos := .AtMostOnce }] })))))] ++ turns (.connection 0) 8 ++
  [.act (.web 0) (.webFrame (.text (.subscribe "u" 0)))] ++ turns (.web 0) 3 ++
  [.act (.web 0) (.webFrame (.text (.unsubscribe "t")))] ++ turns (.web 0) 2 ++
  [.act (.web 0) (.webFrame .close)] ++ turns (.web 0) 2

theorem webSession_traceless_closed : ∃ evs cfg cfg',
    (brokerSystem openSettings).RunWhere (fun _ _ e _ => Alone 0 "webui-sub-1" e) (started Database.empty) evs cfg ∧
    cfg.thread (.web 0) = .running (.ret (.exited true)) ∧
    (∀ filter, ¬ cfg.shared.shared.broker.subscriptions.Has "webui-sub-1" filter) ∧
    cfg.shared.shared.broker.webSubscribers.lookup "webui-sub-1" = none ∧
    (brokerSystem openSettings).Run (started Database.empty) (evs.filterMap (withoutSession 0 "webui-sub-1")) cfg' ∧
    cfg'.thread (.web 0) = .fresh ∧ cfg'.shared.shared.broker.subscriptions.entries ("c", "t") = some .AtMostOnce := by
  have hrun : ((brokerSystem openSettings).execWhere (fun _ _ e _ => keepsAlone 0 "webui-sub-1" e) []
      (started Database.empty) sessionMoves).map (fun r => (between (r.2.thread (.web 0)),
        r.2.shared.shared.broker.subscriptions.entries ("c", "t"))) = some (some (.exited true), some .AtMostOnce) := by
    decide +kernel
  obtain ⟨⟨evs, cfg⟩, hexec, heq⟩ := Option.map_eq_some_iff.mp hrun
  obtain ⟨hended, hentry⟩ := Prod.mk.inj heq
  have hwhere : (brokerSystem openSettings).RunWhere (fun _ _ e _ => Alone 0 "webui-sub-1" e) (started Database.empty)
      evs cfg := System.execWhere_run _ (fun _ _ _ _ => alone_of_keepsAlone) .nil hexec
  obtain ⟨-, hgone, cfg', hrun', hfresh, hsame⟩ := webSession_traceless (fun _ => rfl) hwhere
  obtain ⟨hnone, hlookup⟩ := hgone true (eq_of_between hended)
  exact ⟨evs, cfg, cfg', hwhere, eq_of_between hended, hnone, hlookup, hrun', hfresh,
    (hsame "c" "t" (by decide)).trans hentry⟩

end AtomMqtt
