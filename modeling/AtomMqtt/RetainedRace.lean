import AtomMqtt.Delivery
import AtomMqtt.Duties
import AtomMqtt.Effects

set_option autoImplicit false

/-! A retained message and a subscription at the same time. The publisher, the router and the subscriber each
come to the subscriptions and to the retained map more than once, and have no lock in common. Which of their
steps comes first decides what the subscriber gets. -/
namespace AtomMqtt
open Programs

inductive Party where
  | publisher
  | router
  | subscriber
  deriving DecidableEq, Repr

abbrev RaceEvent := Event Party Action Reply Unit Empty

abbrev RaceConfig := Config Party Shared Action Reply Unit

/-- A retained PUBLISH and a SUBSCRIBE that are processed at the same time, both allowed by the rules. -/
structure Race where
  publisher : ConnId
  sourceClient : String
  message : RetainedMessage
  subscriber : ConnId
  clientId : String
  filter : String
  qos : QoS
  life : ℕ

namespace Race
variable (race : Race)

def thread : Party → ThreadId
  | .publisher => .connection race.publisher
  | .router => .router race.life
  | .subscriber => .connection race.subscriber

def publish : BrokerMessage :=
  .Publish race.message.topic race.message.payload race.message.qos true race.sourceClient

/-- One turn of the router, and what the packets make the two connections do. -/
def program : Party → Broker Unit
  | .publisher => acceptPublish race.sourceClient race.message.topic race.message.payload race.message.qos true
  | .router => do
    let (_, message) ← ask .recvRouter
    routeMessage message
  | .subscriber => acceptSubscription race.clientId race.filter race.qos

def system : System Party Shared Action Reply Unit Input Empty where
  start := fun _ _ _ => false
  body := fun _ => .ret
  perform := fun party s a input => s.perform (race.thread party) a input
  world := fun _ _ => none

def start (s : Shared) : RaceConfig :=
  { shared := s, thread := fun party => .running (race.program party) }

structure Starts (s : Shared) : Prop where
  queue : s.queue = []
  subscriptions : s.broker.subscriptions.Held
  connected : s.receiver race.clientId = some race.subscriber

end Race

def finished (cfg : RaceConfig) : Prop := ∀ party, cfg.thread party = .running (.ret ())

def enqueued (s : Shared) (k : ConnId) (evs : List RaceEvent) : List MqttPacket :=
  evs.filterMap fun
    | .act _ (.forward clientId packet) _ => if s.receiver clientId = some k then some packet else none
    | _ => none

def Action.subscribes : Action → Bool
  | .subscribe _ _ _ => true
  | _ => false

def Action.looksUp : Action → Bool
  | .lookup _ => true
  | _ => false

def Action.inserts : Action → Bool
  | .retainedInsert _ _ => true
  | _ => false

def Action.scans : Action → Bool
  | .retainedIter => true
  | _ => false

def does (p : Action → Bool) : RaceEvent → Bool
  | .act _ a _ => p a
  | _ => false

def precedes (p q : Action → Bool) (evs : List RaceEvent) : Bool := (evs.takeWhile fun e => !does q e).any (does p)

/-- The subscription is made before the router looks the topic up, or the message is in the retained map
    before it is scanned for the filter; the map or the subscriptions may have been so from the beginning. -/
def Race.inTime (race : Race) (s : Shared) (evs : List RaceEvent) : Bool :=
  (s.broker.subscriptions.lookup race.message.topic).any
      (fun sub => s.receiver sub.clientId == some race.subscriber) ||
    precedes Action.subscribes Action.looksUp evs ||
    (TopicFilter.new race.filter).matches race.message.topic &&
      (s.broker.retained.values.any (fun item => item.topic == race.message.topic && item.payload == race.message.payload) ||
        precedes Action.inserts Action.scans evs)

theorem precedes_split {p q : Action → Bool} {evs : List RaceEvent} (h : ∃ e ∈ evs, does q e = true) :
    ∃ before party a r after, evs = before ++ .act party a r :: after ∧ q a = true ∧
      precedes p q evs = before.any (does p) := by
  induction evs with
  | nil =>
    obtain ⟨e, he, -⟩ := h
    cases he
  | cons first evs ih =>
    cases hfirst : does q first with
    | true =>
      cases first with
      | act party a r => exact ⟨[], party, a, r, evs, rfl, hfirst, by simp [precedes, hfirst]⟩
      | spawn _ _ => cases hfirst
      | world _ => cases hfirst
    | false =>
      obtain ⟨e, he, hq⟩ := h
      have hrest : e ∈ evs := by
        cases List.mem_cons.mp he with
        | inl heq =>
          rw [heq, hfirst] at hq
          cases hq
        | inr hmem => exact hmem
      obtain ⟨before, party, a, r, after, rfl, ha, hbefore⟩ := ih ⟨e, hrest, hq⟩
      refine ⟨first :: before, party, a, r, after, rfl, ha, ?_⟩
      rw [List.any_cons, ← hbefore]
      simp [precedes, hfirst]

section
variable {α : Type}

theorem forM_run_actions {γ : Type} {xs : List γ} {a : γ → Action} :
    Ensures (fun tr _ => tr.map Sigma.fst = xs.map a) (xs.forM fun x => run (a x)) := by
  induction xs with
  | nil => exact .ret rfl
  | cons x xs ih =>
    change Ensures _ (run (a x) >>= fun _ => xs.forM fun x => run (a x))
    apply ensures_run
    intro _
    apply ih.mono
    intro tr _ htr
    rw [List.map_cons, List.map_cons, htr]

theorem acceptPublish_actions {sourceClient topic : String} {payload : Bytes} {qos : QoS} (hpayload : payload.isEmpty = false) :
    Ensures (fun tr _ => tr.map Sigma.fst = [.sendRouter (.Publish topic payload qos true sourceClient),
      .retainedInsert topic { topic, payload, qos }, .sendEvent (.SaveRetained topic payload qos.toI32)])
      (acceptPublish sourceClient topic payload qos true) := by
  unfold acceptPublish
  apply ensures_run
  intro _
  simp only [if_true, hpayload, Bool.false_eq_true, if_false]
  apply ensures_run
  intro _
  apply ensures_run_last
  intro _
  rfl

theorem acceptSubscription_actions {clientId filter : String} {qos : QoS} :
    Ensures (fun tr _ => ∃ items rest, tr = ⟨.subscribe clientId filter qos, ()⟩ ::
        ⟨.sendEvent (.SaveSubscription clientId filter qos.toI32), ()⟩ :: ⟨.retainedIter, items⟩ :: rest ∧
        rest.map Sigma.fst = replayed clientId filter items) (acceptSubscription clientId filter qos) := by
  unfold acceptSubscription replayRetained
  apply ensures_run
  intro _
  apply ensures_run
  intro _
  apply ensures_ask
  intro items
  rw [forM_filter]
  apply forM_run_actions.mono
  intro tr _ htr
  exact ⟨items, tr, rfl, htr⟩

theorem routePublish_actions {topic : String} {payload : Bytes} {qos : QoS} {sourceClient : String} :
    Ensures (fun tr _ => ∃ subscribers rest, tr = ⟨.lookup topic, subscribers⟩ :: rest ∧
        rest.map Sigma.fst = .metrics .incrementMessagesPublished :: (forwardAll (publishPacket topic payload false)
          (.Publish topic payload qos.toU8 sourceClient) subscribers ++ [.retainedInsert topic { topic, payload, qos }]))
      (routePublish topic payload qos true sourceClient) := by
  unfold routePublish
  apply ensures_ask
  intro subscribers
  apply ensures_run
  intro _
  apply Ensures.seq forM_run_actions
  intro tr₁ _ htr₁
  apply Ensures.seq forM_run_actions
  intro tr₂ _ htr₂
  apply ensures_run_last
  intro r
  refine ⟨subscribers, _, rfl, ?_⟩
  simp [htr₁, htr₂, forwardAll]

end

/-- The steps of the three parties, when all have ended: what the scan has read, and whom the lookup has found. -/
structure Race.Played (race : Race) (evs : List RaceEvent) (items : List RetainedMessage) (subscribers : List Subscription) :
    Prop where
  publisher : ∀ a r, .act .publisher a r ∈ evs → a ∈ [.sendRouter race.publish,
    .retainedInsert race.message.topic race.message,
    .sendEvent (.SaveRetained race.message.topic race.message.payload race.message.qos.toI32)]
  router : ∀ a r, .act .router a r ∈ evs → a = .recvRouter ∨
    (⟨a, r⟩ : (a : Action) × Reply a) = ⟨.lookup race.message.topic, subscribers⟩ ∨
    a ∈ Action.metrics .incrementMessagesPublished :: (forwardAll (publishPacket race.message.topic race.message.payload false)
      (.Publish race.message.topic race.message.payload race.message.qos.toU8 race.sourceClient) subscribers ++
        [.retainedInsert race.message.topic race.message])
  subscriber : ∀ a r, .act .subscriber a r ∈ evs → a = .subscribe race.clientId race.filter race.qos ∨
    a = .sendEvent (.SaveSubscription race.clientId race.filter race.qos.toI32) ∨
    (⟨a, r⟩ : (a : Action) × Reply a) = ⟨.retainedIter, items⟩ ∨ a ∈ replayed race.clientId race.filter items
  looked : .act .router (.lookup race.message.topic) subscribers ∈ evs
  scanned : .act .subscriber .retainedIter items ∈ evs
  forwarded : ∀ sub ∈ subscribers,
    .act .router (.forward sub.clientId (publishPacket race.message.topic race.message.payload false)) () ∈ evs
  replayed : ∀ clientId packet, .forward clientId packet ∈ replayed race.clientId race.filter items →
    .act .subscriber (.forward clientId packet) () ∈ evs

section
variable {race : Race} {s : Shared} {evs : List RaceEvent} {cfg : RaceConfig}

theorem received_sent (hqueue : s.queue = []) (hrun : race.system.Run (race.start s) evs cfg) :
    (∀ sent ∈ cfg.shared.queue, ∃ party, .act party (.sendRouter sent.2) () ∈ evs) ∧
      ∀ party sent, .act party .recvRouter sent ∈ evs → ∃ sender, .act sender (.sendRouter sent.2) () ∈ evs := by
  induction hrun with
  | nil =>
    refine ⟨?_, fun _ _ h => by cases h⟩
    intro sent h
    change sent ∈ s.queue at h
    rw [hqueue] at h
    cases h
  | @snoc evs cfg cfg' e run step ok ih =>
    cases step with
    | spawn _ hstart => cases hstart
    | world hworld => cases hworld
    | @act party p a k input s' r hrunning hnext hperform =>
      have hperformed := performed_of_perform hperform
      have hkept : ∀ {sent : ThreadId × BrokerMessage}, (∃ sender, .act sender (.sendRouter sent.2) () ∈ evs) →
          ∃ sender, .act sender (.sendRouter sent.2) () ∈ evs ++ [.act party a r] := by
        intro sent h
        obtain ⟨sender, hsent⟩ := h
        exact ⟨sender, List.mem_append_left _ hsent⟩
      refine ⟨?_, ?_⟩
      · intro sent hsent
        change sent ∈ s'.queue at hsent
        rw [hperformed.queue] at hsent
        cases a with
        | sendRouter message =>
          cases List.mem_append.mp hsent with
          | inl hold => exact hkept (ih.1 sent hold)
          | inr hnew =>
            rw [List.mem_singleton.mp hnew]
            exact ⟨party, List.mem_append_right _ List.mem_cons_self⟩
        | recvRouter => exact hkept (ih.1 sent (List.mem_of_mem_tail hsent))
        | _ => exact hkept (ih.1 sent hsent)
      · intro receiver sent hsent
        cases List.mem_append.mp hsent with
        | inl hold => exact hkept (ih.2 receiver sent hold)
        | inr hnew =>
          cases List.mem_singleton.mp hnew
          apply hkept
          apply ih.1
          change cfg.shared.perform (race.thread party) .recvRouter input = some (s', sent) at hperform
          cases hq : cfg.shared.queue with
          | nil => simp [Shared.perform, hq] at hperform
          | cons first rest =>
            simp only [Shared.perform, hq, Option.some.injEq, Prod.mk.injEq] at hperform
            rw [hperform.2]
            exact List.mem_cons_self

theorem trace_of_finished (hrun : race.system.Run (race.start s) evs cfg) (hdone : finished cfg) (party : Party) :
    Exec (race.program party) (System.traceOf party evs) () :=
  System.exec_of_run _ (fun _ _ => rfl) (fun _ _ => rfl) hrun rfl (hdone party)

theorem mem_actions {party : Party} {a : Action} {r : Reply a} (h : .act party a r ∈ evs) :
    a ∈ (System.traceOf party evs).map Sigma.fst :=
  List.mem_map.mpr ⟨⟨a, r⟩, System.mem_traceOf.mpr h, rfl⟩

theorem forward_of_actions {party : Party} {tr : Trace Action Reply} {clientId : String} {packet : MqttPacket}
    (htr : ∀ e ∈ tr, e ∈ System.traceOf party evs) (h : .forward clientId packet ∈ tr.map Sigma.fst) :
    .act party (.forward clientId packet) () ∈ evs := by
  obtain ⟨⟨a, r⟩, hr, rfl⟩ := List.mem_map.mp h
  exact System.mem_traceOf.mp (htr _ hr)

theorem received_publish (hstarts : race.Starts s) (hpayload : race.message.payload.isEmpty = false)
    (hrun : race.system.Run (race.start s) evs cfg) (hdone : finished cfg) {sent : ThreadId × BrokerMessage}
    (hrecv : .act .router .recvRouter sent ∈ evs) : sent.2 = race.publish := by
  obtain ⟨party, hsent⟩ := (received_sent hstarts.queue hrun).2 .router sent hrecv
  cases party with
  | publisher =>
    have hfirst := mem_actions hsent
    rw [(acceptPublish_actions hpayload).of_exec (trace_of_finished hrun hdone .publisher)] at hfirst
    simpa [Race.publish] using hfirst
  | router =>
    obtain ⟨⟨sender, message⟩, work, hrouter, hwork⟩ := exec_act_iff.mp (trace_of_finished hrun hdone .router)
    rw [← System.mem_traceOf, hrouter] at hsent
    cases List.mem_cons.mp hsent with
    | inl heq => cases heq
    | inr hrest => exact ((routeMessage_only message).ensures.of_exec hwork _ hrest).elim
  | subscriber =>
    obtain ⟨items, replays, hsubscriber, hreplays⟩ :=
      acceptSubscription_actions.of_exec (trace_of_finished hrun hdone .subscriber)
    have hown := mem_actions hsent
    rw [hsubscriber] at hown
    simp [hreplays, replayed] at hown

theorem played_of_run (hstarts : race.Starts s) (hpayload : race.message.payload.isEmpty = false)
    (hrun : race.system.Run (race.start s) evs cfg) (hdone : finished cfg) :
    ∃ items subscribers, race.Played evs items subscribers := by
  have htrace := trace_of_finished hrun hdone
  have hpublisher := (acceptPublish_actions hpayload).of_exec (htrace .publisher)
  obtain ⟨items, replays, hsubscriber, hreplays⟩ := acceptSubscription_actions.of_exec (htrace .subscriber)
  obtain ⟨⟨sender, message⟩, work, hrouter, hwork⟩ := exec_act_iff.mp (htrace .router)
  have hrecv : .act .router .recvRouter (sender, message) ∈ evs := by
    rw [← System.mem_traceOf, hrouter]
    exact List.mem_cons_self
  obtain rfl : message = race.publish := received_publish hstarts hpayload hrun hdone hrecv
  obtain ⟨subscribers, rest, rfl, hrest⟩ := routePublish_actions.of_exec hwork
  refine ⟨items, subscribers, ?_, ?_, ?_, ?_, ?_, ?_, ?_⟩
  · intro a r h
    have hown := mem_actions h
    rwa [hpublisher] at hown
  · intro a r h
    rw [← System.mem_traceOf, hrouter, List.mem_cons, List.mem_cons] at h
    obtain heq | heq | hlast := h
    · cases heq
      exact .inl rfl
    · exact .inr (.inl heq)
    · exact .inr (.inr (hrest ▸ List.mem_map.mpr ⟨_, hlast, rfl⟩))
  · intro a r h
    rw [← System.mem_traceOf, hsubscriber, List.mem_cons, List.mem_cons, List.mem_cons] at h
    obtain heq | heq | heq | hlast := h
    · cases heq
      exact .inl rfl
    · cases heq
      exact .inr (.inl rfl)
    · exact .inr (.inr (.inl heq))
    · exact .inr (.inr (.inr (hreplays ▸ List.mem_map.mpr ⟨_, hlast, rfl⟩)))
  · rw [← System.mem_traceOf, hrouter]
    exact List.mem_cons_of_mem _ List.mem_cons_self
  · rw [← System.mem_traceOf, hsubscriber]
    exact List.mem_cons_of_mem _ (List.mem_cons_of_mem _ List.mem_cons_self)
  · intro sub hsub
    have hworks : ∀ e ∈ rest, e ∈ System.traceOf Party.router evs := by
      intro e he
      rw [hrouter]
      exact List.mem_cons_of_mem _ (List.mem_cons_of_mem _ he)
    apply forward_of_actions hworks
    rw [hrest]
    refine List.mem_cons_of_mem _ (List.mem_append_left _ (List.mem_append_left _ ?_))
    exact List.mem_map.mpr ⟨sub, hsub, rfl⟩
  · intro clientId packet h
    have hworks : ∀ e ∈ replays, e ∈ System.traceOf Party.subscriber evs := by
      intro e he
      rw [hsubscriber]
      exact List.mem_cons_of_mem _ (List.mem_cons_of_mem _ (List.mem_cons_of_mem _ he))
    exact forward_of_actions hworks (hreplays ▸ h)

end

/-- The steps of the race that change something for it, and those that do not. -/
def Race.May (race : Race) : Action → Prop
  | .subscribe clientId filter qos => clientId = race.clientId ∧ filter = race.filter ∧ qos = race.qos
  | .retainedInsert topic message => topic = race.message.topic ∧ message = race.message
  | .forward _ packet => ∃ topic payload retain, packet = publishPacket topic payload retain
  | .recvRouter | .lookup _ | .retainedIter | .forwardWeb _ _ | .metrics _ | .sendRouter _ | .sendEvent _ => True
  | _ => False

structure Race.Reached (race : Race) (s : Shared) (evs : List RaceEvent) (s' : Shared) : Prop where
  receiver : s'.receiver = s.receiver
  held : s'.broker.subscriptions.Held
  unsubscribed : evs.any (does Action.subscribes) = false → s'.broker.subscriptions = s.broker.subscriptions
  subscribed : evs.any (does Action.subscribes) = true → s'.broker.subscriptions.Has race.clientId race.filter
  unretained : evs.any (does Action.inserts) = false → s'.broker.retained = s.broker.retained
  retained : evs.any (does Action.inserts) = true → s'.broker.retained.lookup race.message.topic = some race.message
  channel : ∀ k, s'.channels k = s.channels k ++ (enqueued s k evs).map sentBytes

section
variable {race : Race} {s s' : Shared} {evs : List RaceEvent} {cfg : RaceConfig} {items : List RetainedMessage}
  {subscribers : List Subscription}

theorem Race.Played.may (h : race.Played evs items subscribers) {party : Party} {a : Action} {r : Reply a}
    (hmem : .act party a r ∈ evs) : race.May a := by
  cases party with
  | publisher =>
    have ha := h.publisher a r hmem
    simp only [List.mem_cons, List.not_mem_nil, or_false] at ha
    obtain rfl | rfl | rfl := ha
    · trivial
    · exact ⟨rfl, rfl⟩
    · trivial
  | router =>
    obtain rfl | heq | ha := h.router a r hmem
    · trivial
    · cases heq
      trivial
    · simp only [List.mem_cons, List.mem_append, forwardAll, List.mem_map, List.not_mem_nil, or_false] at ha
      obtain rfl | (⟨sub, _, rfl⟩ | ⟨sub, _, rfl⟩) | rfl := ha
      · trivial
      · exact ⟨_, _, _, rfl⟩
      · trivial
      · exact ⟨rfl, rfl⟩
  | subscriber =>
    obtain rfl | rfl | heq | ha := h.subscriber a r hmem
    · exact ⟨rfl, rfl, rfl⟩
    · trivial
    · cases heq
      trivial
    · obtain ⟨item, _, rfl⟩ := List.mem_map.mp ha
      exact ⟨_, _, _, rfl⟩

theorem perform_channels {party : Party} {i : ThreadId} {a : Action} {input : Input} {r : Reply a} (hmay : race.May a)
    (hperform : s.perform i a input = some (s', r)) (k : ConnId) : s'.channels k = s.channels k ++
      (enqueued s k [.act party a r]).map sentBytes := by
  have hchannels := channels_of_perform hperform k
  have hnone : a.dequeues i k r = [] := by
    cases a <;> first | rfl | exact hmay.elim
  have hsome : a.enqueues s.receiver k = (enqueued s k [.act party a r]).map sentBytes := by
    cases a with
    | forward clientId packet =>
      rw [Action.enqueues]
      split_ifs with hlookup <;> simp [enqueued, hlookup]
    | _ => rfl
  rw [hnone, hsome] at hchannels
  exact hchannels.symm

theorem any_snoc (p : Action → Bool) (evs : List RaceEvent) (party : Party) (a : Action) (r : Reply a) :
    (evs ++ [Event.act party a r]).any (does p) = (evs.any (does p) || p a) := by
  simp [does]

theorem Race.Reached.act (h : race.Reached s evs s') {s'' : Shared} {party : Party} {i : ThreadId} {a : Action}
    {input : Input} {r : Reply a} (hmay : race.May a) (hperform : s'.perform i a input = some (s'', r)) :
    race.Reached s (evs ++ [.act party a r]) s'' := by
  obtain ⟨hreceiver, hheld, hunsubscribed, hsubscribed, hunretained, hretained, hchannel⟩ := h
  have hbroker := (performed_of_perform hperform).broker
  have hdropped := perform_dropped hperform
  constructor
  · rw [← hreceiver]
    unfold Shared.receiver
    rw [hbroker, hdropped]
    cases a <;> first | exact hmay.elim | rfl
  · rw [hbroker]
    cases a with
    | subscribe clientId filter qos => exact hheld.step (.subscribe clientId filter qos)
    | _ => first | exact hmay.elim | exact hheld
  · rw [any_snoc, hbroker]
    intro h
    rw [Bool.or_eq_false_iff] at h
    cases a with
    | subscribe clientId filter qos => cases h.2
    | _ => first | exact hmay.elim | exact hunsubscribed h.1
  · rw [any_snoc, hbroker]
    intro h
    cases a with
    | subscribe clientId filter qos =>
      obtain ⟨rfl, rfl, rfl⟩ := hmay
      exact has_subscribe hheld _ _ _
    | _ => first | exact hmay.elim | exact hsubscribed (by simpa [Action.subscribes] using h)
  · rw [any_snoc, hbroker]
    intro h
    rw [Bool.or_eq_false_iff] at h
    cases a with
    | retainedInsert topic message => cases h.2
    | _ => first | exact hmay.elim | exact hunretained h.1
  · rw [any_snoc, hbroker]
    intro h
    cases a with
    | retainedInsert topic message =>
      obtain ⟨rfl, rfl⟩ := hmay
      exact AList.lookup_insert _
    | _ => first | exact hmay.elim | exact hretained (by simpa [Action.inserts] using h)
  · intro k
    have hnew : s''.channels k = s'.channels k ++ (enqueued s' k [.act party a r]).map sentBytes :=
      perform_channels hmay hperform k
    have henqueued : enqueued s k (evs ++ [.act party a r]) =
        enqueued s k evs ++ enqueued s' k [.act party a r] := by
      simp only [enqueued, List.filterMap_append, hreceiver]
    rw [hnew, hchannel, henqueued, List.map_append, List.append_assoc]

theorem reached_of_run (hstarts : race.Starts s) (hrun : race.system.Run (race.start s) evs cfg)
    (hmay : ∀ party a r, .act party a r ∈ evs → race.May a) : race.Reached s evs cfg.shared := by
  induction hrun with
  | nil =>
    refine ⟨rfl, hstarts.subscriptions, fun _ => rfl, nofun, fun _ => rfl, nofun, ?_⟩
    exact fun _ => (List.append_nil _).symm
  | snoc run step ok ih =>
    cases step with
    | spawn _ hstart => cases hstart
    | world hworld => cases hworld
    | act hrunning hnext hperform =>
      have hreached := ih fun party a r h => hmay party a r (List.mem_append_left _ h)
      exact hreached.act (hmay _ _ _ (List.mem_append_right _ List.mem_cons_self)) hperform

end

section
variable {race : Race} {s : Shared} {evs : List RaceEvent} {cfg : RaceConfig} {items : List RetainedMessage}
  {subscribers : List Subscription}

/-- The filter is one that matches the topic: no `#` but at its end, and segment for segment. -/
structure Race.Matches (race : Race) : Prop where
  hashLast : HashLast race.filter
  segments : segmentsMatch (splitSlash race.filter) (splitSlash race.message.topic) = true

theorem lookup_of_has {tree : SubscriptionTree} (hheld : tree.Held) (hhas : tree.Has race.clientId race.filter)
    (hmatches : race.Matches) : ∃ sub ∈ tree.lookup race.message.topic, sub.clientId = race.clientId := by
  obtain ⟨M, hM⟩ := hheld
  obtain ⟨qos, hentry⟩ := hM.has_iff.mp hhas
  refine ⟨{ clientId := race.clientId, filter := race.filter, qos }, ?_, rfl⟩
  rw [hM.mem_lookup]
  exact ⟨hentry, (mem_matchPaths_iff _ _ hmatches.hashLast).mpr hmatches.segments⟩

theorem Race.Played.reads (hplayed : race.Played evs items subscribers) {party : Party} {a : Action} {r : Reply a}
    (hmem : .act party a r ∈ evs) (hreads : a.looksUp = true ∨ a.scans = true) :
    (⟨a, r⟩ : (a : Action) × Reply a) = ⟨.lookup race.message.topic, subscribers⟩ ∨
      (⟨a, r⟩ : (a : Action) × Reply a) = ⟨.retainedIter, items⟩ := by
  have hneither : ∀ b : Action, b = a → b.looksUp = false → b.scans = false → False := by
    rintro b rfl hlooks hscans
    simp [hlooks, hscans] at hreads
  cases party with
  | publisher =>
    have h := hplayed.publisher a r hmem
    simp only [List.mem_cons, List.not_mem_nil, or_false] at h
    obtain rfl | rfl | rfl := h <;> exact (hneither _ rfl rfl rfl).elim
  | router =>
    obtain rfl | heq | h := hplayed.router a r hmem
    · exact (hneither _ rfl rfl rfl).elim
    · exact .inl heq
    · simp only [List.mem_cons, List.mem_append, forwardAll, List.mem_map, List.not_mem_nil, or_false] at h
      obtain rfl | (⟨sub, _, rfl⟩ | ⟨sub, _, rfl⟩) | rfl := h <;> exact (hneither _ rfl rfl rfl).elim
  | subscriber =>
    obtain rfl | rfl | heq | h := hplayed.subscriber a r hmem
    · exact (hneither _ rfl rfl rfl).elim
    · exact (hneither _ rfl rfl rfl).elim
    · exact .inr heq
    · obtain ⟨item, _, rfl⟩ := List.mem_map.mp h
      exact (hneither _ rfl rfl rfl).elim

theorem Race.Played.reached (hplayed : race.Played evs items subscribers) (hstarts : race.Starts s)
    (hrun : race.system.Run (race.start s) evs cfg) {before after : List RaceEvent} {party : Party} {a : Action}
    {r : Reply a} (hsplit : evs = before ++ .act party a r :: after) :
    ∃ cfg₁ cfg₂, race.Reached s before cfg₁.shared ∧ race.system.Step cfg₁ (.act party a r) cfg₂ := by
  subst hsplit
  obtain ⟨cfg₁, cfg₂, hrun₁, hstep⟩ := System.RunWhere.split _ hrun
  exact ⟨cfg₁, cfg₂, reached_of_run hstarts hrun₁ fun party a r h => hplayed.may (List.mem_append_left _ h), hstep⟩

theorem subscribers_found (hstarts : race.Starts s) (hmatches : race.Matches)
    (hrun : race.system.Run (race.start s) evs cfg) (hplayed : race.Played evs items subscribers) :
    if precedes Action.subscribes Action.looksUp evs then ∃ sub ∈ subscribers, sub.clientId = race.clientId
    else subscribers = s.broker.subscriptions.lookup race.message.topic := by
  obtain ⟨before, party, a, r, after, hsplit, ha, hprecedes⟩ :=
    precedes_split (p := Action.subscribes) (q := Action.looksUp) ⟨_, hplayed.looked, rfl⟩
  have hmem : .act party a r ∈ evs := hsplit ▸ List.mem_append_right _ List.mem_cons_self
  obtain ⟨cfg₁, cfg₂, hreached, hstep⟩ := hplayed.reached hstarts hrun hsplit
  have hfound : subscribers = cfg₁.shared.broker.subscriptions.lookup race.message.topic := by
    obtain heq | heq := hplayed.reads hmem (.inl ha)
    · cases heq
      cases hstep with
      | act _ _ hperform =>
        cases hperform
        rfl
    · cases heq
      cases ha
  rw [hprecedes]
  split_ifs with hsubscribed
  · rw [hfound]
    exact lookup_of_has hreached.held (hreached.subscribed hsubscribed) hmatches
  · rw [hfound, hreached.unsubscribed (Bool.eq_false_iff.mpr hsubscribed)]

theorem items_found (hstarts : race.Starts s) (hrun : race.system.Run (race.start s) evs cfg)
    (hplayed : race.Played evs items subscribers) :
    if precedes Action.inserts Action.scans evs then race.message ∈ items else items = s.broker.retained.values := by
  obtain ⟨before, party, a, r, after, hsplit, ha, hprecedes⟩ :=
    precedes_split (p := Action.inserts) (q := Action.scans) ⟨_, hplayed.scanned, rfl⟩
  have hmem : .act party a r ∈ evs := hsplit ▸ List.mem_append_right _ List.mem_cons_self
  obtain ⟨cfg₁, cfg₂, hreached, hstep⟩ := hplayed.reached hstarts hrun hsplit
  have hfound : items = cfg₁.shared.broker.retained.values := by
    obtain heq | heq := hplayed.reads hmem (.inr ha)
    · cases heq
      cases ha
    · cases heq
      cases hstep with
      | act _ _ hperform =>
        cases hperform
        rfl
  rw [hprecedes]
  split_ifs with hretained
  · rw [hfound]
    exact List.mem_map.mpr ⟨⟨_, _⟩, AList.mem_lookup_iff.mp (hreached.retained hretained), rfl⟩
  · rw [hfound, hreached.unretained (Bool.eq_false_iff.mpr hretained)]

theorem mem_enqueued {k : ConnId} {packet : MqttPacket} : packet ∈ enqueued s k evs ↔
    ∃ party clientId, .act party (.forward clientId packet) () ∈ evs ∧
      s.receiver clientId = some k := by
  rw [enqueued, List.mem_filterMap]
  constructor
  · rintro ⟨e, he, heq⟩
    cases e with
    | act party a r =>
      cases a with
      | forward clientId packet' =>
        simp only [Option.ite_none_right_eq_some, Option.some.injEq] at heq
        obtain ⟨hlookup, rfl⟩ := heq
        exact ⟨party, clientId, he, hlookup⟩
      | _ => cases heq
    | spawn _ _ => cases heq
    | world _ => cases heq
  · rintro ⟨party, clientId, he, hlookup⟩
    exact ⟨_, he, if_pos hlookup⟩

theorem enqueued_of_inTime (hstarts : race.Starts s) (hmatches : race.Matches) (hpayload : race.message.payload.isEmpty = false)
    (hrun : race.system.Run (race.start s) evs cfg) (hplayed : race.Played evs items subscribers)
    (hin : race.inTime s evs = true) : ∃ retain,
      publishPacket race.message.topic race.message.payload retain ∈ enqueued s race.subscriber evs := by
  have hforwarded : ∀ sub ∈ subscribers, s.receiver sub.clientId = some race.subscriber → ∃ retain,
      publishPacket race.message.topic race.message.payload retain ∈ enqueued s race.subscriber evs := by
    intro sub hsub hlookup
    exact ⟨false, mem_enqueued.mpr ⟨.router, sub.clientId, hplayed.forwarded sub hsub, hlookup⟩⟩
  have hsubscribers := subscribers_found hstarts hmatches hrun hplayed
  have hitems := items_found hstarts hrun hplayed
  have hfound : precedes Action.subscribes Action.looksUp evs = true → ∃ retain,
      publishPacket race.message.topic race.message.payload retain ∈ enqueued s race.subscriber evs := by
    intro hprecedes
    rw [if_pos hprecedes] at hsubscribers
    obtain ⟨sub, hsub, hclient⟩ := hsubscribers
    exact hforwarded sub hsub (hclient ▸ hstarts.connected)
  have hreplayed : ∀ item ∈ items, item.topic = race.message.topic → item.payload = race.message.payload →
      (TopicFilter.new race.filter).matches race.message.topic = true → ∃ retain,
        publishPacket race.message.topic race.message.payload retain ∈ enqueued s race.subscriber evs := by
    intro item hitem htopic hsame hfilter
    refine ⟨true, mem_enqueued.mpr ⟨.subscriber, race.clientId, hplayed.replayed _ _ ?_, hstarts.connected⟩⟩
    refine List.mem_map.mpr ⟨item, List.mem_filter.mpr ⟨hitem, ?_⟩, ?_⟩
    · rw [htopic, hsame, hfilter, hpayload]
      rfl
    · rw [htopic, hsame]
  simp only [Race.inTime, Bool.or_eq_true, Bool.and_eq_true, List.any_eq_true, beq_iff_eq] at hin
  obtain (⟨sub, hsub, hlookup⟩ | hprecedes) | ⟨hfilter, ⟨item, hitem, htopic, hsame⟩ | hprecedes⟩ := hin
  · by_cases hbefore : precedes Action.subscribes Action.looksUp evs = true
    · exact hfound hbefore
    · rw [if_neg hbefore] at hsubscribers
      exact hforwarded sub (hsubscribers ▸ hsub) hlookup
  · exact hfound hprecedes
  · by_cases hbefore : precedes Action.inserts Action.scans evs = true
    · rw [if_pos hbefore] at hitems
      exact hreplayed _ hitems rfl rfl hfilter
    · rw [if_neg hbefore] at hitems
      exact hreplayed item (hitems ▸ hitem) htopic hsame hfilter
  · rw [if_pos hprecedes] at hitems
    exact hreplayed _ hitems rfl rfl hfilter

theorem inTime_of_enqueued (hstarts : race.Starts s) (hmatches : race.Matches)
    (hrun : race.system.Run (race.start s) evs cfg) (hplayed : race.Played evs items subscribers) {retain : Bool}
    (hmem : publishPacket race.message.topic race.message.payload retain ∈ enqueued s race.subscriber evs) :
    race.inTime s evs = true := by
  have hsubscribers := subscribers_found hstarts hmatches hrun hplayed
  have hitems := items_found hstarts hrun hplayed
  simp only [Race.inTime, Bool.or_eq_true, Bool.and_eq_true, List.any_eq_true, beq_iff_eq]
  obtain ⟨party, clientId, hevent, hlookup⟩ := mem_enqueued.mp hmem
  cases party with
  | publisher =>
    have h := hplayed.publisher _ _ hevent
    simp at h
  | router =>
    have hsub : ∃ sub ∈ subscribers, sub.clientId = clientId := by
      obtain h | h | h := hplayed.router _ _ hevent
      · cases h
      · cases h
      · simp only [List.mem_cons, reduceCtorEq, List.mem_append, forwardAll, List.mem_map, Action.forward.injEq,
          List.not_mem_nil, or_false, false_or, and_false, exists_false] at h
        obtain ⟨sub, hsub, hclient, -⟩ := h
        exact ⟨sub, hsub, hclient⟩
    obtain ⟨sub, hsub, rfl⟩ := hsub
    left
    by_cases hbefore : precedes Action.subscribes Action.looksUp evs = true
    · exact .inr hbefore
    · rw [if_neg hbefore] at hsubscribers
      exact .inl ⟨sub, hsubscribers ▸ hsub, hlookup⟩
  | subscriber =>
    have hitem : ∃ item ∈ items, (TopicFilter.new race.filter).matches item.topic = true ∧
        item.topic = race.message.topic ∧ item.payload = race.message.payload := by
      obtain h | h | h | h := hplayed.subscriber _ _ hevent
      · cases h
      · cases h
      · cases h
      · obtain ⟨item, hkept, heq⟩ := List.mem_map.mp h
        obtain ⟨hmem, hkeeps⟩ := List.mem_filter.mp hkept
        simp only [publishPacket, Action.forward.injEq, MqttPacket.V311.injEq, V3.MqttPacketV3.Publish.injEq,
          V3.PublishPacket.mk.injEq] at heq
        exact ⟨item, hmem, (Bool.and_eq_true_iff.mp hkeeps).1, heq.2.1, heq.2.2.1⟩
    obtain ⟨item, hitem, hfilter, htopic, hsame⟩ := hitem
    right
    refine ⟨htopic ▸ hfilter, ?_⟩
    by_cases hbefore : precedes Action.inserts Action.scans evs = true
    · exact .inr hbefore
    · rw [if_neg hbefore] at hitems
      exact .inl ⟨item, hitems ▸ hitem, htopic, hsame⟩

end

/-- In every order of the steps, the subscriber's channel has the message in the end if and only if the
    subscription is made before the lookup, or the message is in the map before the scan. -/
theorem retained_enqueued_iff {race : Race} {s : Shared} {evs : List RaceEvent} {cfg : RaceConfig} (hstarts : race.Starts s)
    (hmatches : race.Matches) (hpayload : race.message.payload.isEmpty = false)
    (hrun : race.system.Run (race.start s) evs cfg) (hdone : finished cfg) :
    cfg.shared.channels race.subscriber =
        s.channels race.subscriber ++ (enqueued s race.subscriber evs).map sentBytes ∧
      ((∃ retain, publishPacket race.message.topic race.message.payload retain ∈ enqueued s race.subscriber evs) ↔
        race.inTime s evs = true) := by
  obtain ⟨items, subscribers, hplayed⟩ := played_of_run hstarts hpayload hrun hdone
  refine ⟨(reached_of_run hstarts hrun fun _ _ _ h => hplayed.may h).channel _, ?_, ?_⟩
  · rintro ⟨retain, hmem⟩
    exact inTime_of_enqueued hstarts hmatches hrun hplayed hmem
  · exact enqueued_of_inTime hstarts hmatches hpayload hrun hplayed

def plainRace : Race where
  publisher := 0
  sourceClient := "p"
  message := { topic := "a", payload := [0x78], qos := .AtMostOnce }
  subscriber := 1
  clientId := "c"
  filter := "a"
  qos := .AtMostOnce
  life := 0

def connectedState : Shared :=
  Shared.start { BrokerState.new with connections := BrokerState.new.connections.insert "c" 1 } []

theorem plainRace_starts : plainRace.Starts connectedState := ⟨rfl, .new, rfl⟩

theorem plainRace_matches : plainRace.Matches := ⟨by decide +kernel, by decide +kernel⟩

def raceMoves (order : List Party) : List (Move Party Unit Input Empty) := order.map fun party => .act party (.written true)

def atEnd : Thread Action Reply Unit → Bool
  | .running (.ret _) => true
  | _ => false

theorem finished_of_atEnd {cfg : RaceConfig}
    (h : [.publisher, .router, .subscriber].all (fun party => atEnd (cfg.thread party)) = true) : finished cfg := by
  intro party
  have hparty : atEnd (cfg.thread party) = true := by
    rw [List.all_eq_true] at h
    apply h
    cases party <;> decide
  unfold atEnd at hparty
  split at hparty
  · rename_i heq
    exact heq
  · cases hparty

theorem retained_enqueued_replayed : ∃ evs cfg retain, plainRace.system.Run (plainRace.start connectedState) evs cfg ∧
    finished cfg ∧ publishPacket "a" [0x78] retain ∈ enqueued connectedState 1 evs := by
  have hrun : (plainRace.system.execWhere (fun _ _ _ _ => true) [] (plainRace.start connectedState) (raceMoves
      [.publisher, .router, .router, .router, .subscriber, .subscriber, .publisher, .subscriber, .subscriber, .router,
        .publisher])).map (fun r => (plainRace.inTime connectedState r.1,
          [.publisher, .router, .subscriber].all fun party => atEnd (r.2.thread party))) = some (true, true) := by
    decide +kernel
  obtain ⟨⟨evs, cfg⟩, hexec, heq⟩ := Option.map_eq_some_iff.mp hrun
  simp only [Prod.mk.injEq] at heq
  have hsteps : plainRace.system.Run (plainRace.start connectedState) evs cfg :=
    System.execWhere_run _ (fun _ _ _ _ _ => trivial) .nil hexec
  have hdone : finished cfg := finished_of_atEnd heq.2
  have henqueued := retained_enqueued_iff plainRace_starts plainRace_matches rfl hsteps hdone
  obtain ⟨retain, hmem⟩ := henqueued.2.mpr heq.1
  exact ⟨evs, cfg, retain, hsteps, hdone, hmem⟩

/-- The router looks up before the subscription is made, and nobody writes before the scan. -/
theorem retained_missed : ¬ ∀ (race : Race) s evs cfg, race.Starts s → race.Matches →
    race.message.payload.isEmpty = false → race.system.Run (race.start s) evs cfg → finished cfg →
    ∃ retain, publishPacket race.message.topic race.message.payload retain ∈ enqueued s race.subscriber evs := by
  have hrun : (plainRace.system.execWhere (fun _ _ _ _ => true) [] (plainRace.start connectedState) (raceMoves
      [.publisher, .router, .router, .router, .subscriber, .subscriber, .subscriber, .router, .publisher,
        .publisher])).map (fun r => (enqueued connectedState 1 r.1,
          [.publisher, .router, .subscriber].all fun party => atEnd (r.2.thread party))) = some ([], true) := by
    decide +kernel
  obtain ⟨⟨evs, cfg⟩, hexec, heq⟩ := Option.map_eq_some_iff.mp hrun
  simp only [Prod.mk.injEq] at heq
  intro hall
  obtain ⟨retain, hmem⟩ := hall plainRace connectedState evs cfg plainRace_starts plainRace_matches rfl
    (System.execWhere_run _ (fun _ _ _ _ _ => trivial) .nil hexec) (finished_of_atEnd heq.2)
  have hnone : enqueued connectedState plainRace.subscriber evs = [] := heq.1
  rw [hnone] at hmem
  cases hmem

end AtomMqtt
