import AtomMqtt.Effects

set_option autoImplicit false

/-! The metric of active subscriptions. A task that changes the tree counts it anew before its turn ends, all
but the web sessions. -/
namespace AtomMqtt
open Programs

/-- The action finds the tree as it would leave it: a subscription that is there, or one to remove that is not. -/
def KeepsKeys (tree : SubscriptionTree) : Action → Prop
  | .subscribe clientId filter _ => tree.Has clientId filter
  | .unsubscribe clientId filter => ¬ tree.Has clientId filter
  | .unsubscribeAll clientId => ∀ filter, ¬ tree.Has clientId filter
  | _ => True

section
variable {tree tree' : SubscriptionTree}

theorem count_eq_iff (h : tree.Held) (h' : tree'.Held) (hsub : tree.entries.support ⊆ tree'.entries.support) :
    tree'.count = tree.count ↔ tree'.entries.support ⊆ tree.entries.support := by
  rw [count_eq_ncard h, count_eq_ncard h']
  constructor
  · intro heq
    exact (Set.eq_of_subset_of_ncard_le hsub heq.le h'.support_finite).symm.subset
  · intro hsub'
    rw [hsub'.antisymm hsub]

theorem count_of_act_iff (h : tree.Held) (a : Action) :
    (a.onSubscriptions tree).count = tree.count ↔ KeepsKeys tree a := by
  cases a with
  | subscribe clientId filter qos =>
    change (tree.subscribe clientId filter qos).count = tree.count ↔ tree.Has clientId filter
    have hafter : (tree.subscribe clientId filter qos).Held := h.step (.subscribe clientId filter qos)
    have hsupport := support_subscribe h clientId filter qos
    rw [count_eq_iff h hafter (hsupport ▸ Set.subset_insert _ _), hsupport, Set.insert_subset_iff, h.mem_support]
    exact and_iff_left Set.Subset.rfl
  | unsubscribe clientId filter =>
    change (tree.unsubscribe clientId filter).count = tree.count ↔ ¬ tree.Has clientId filter
    have hafter : (tree.unsubscribe clientId filter).Held := h.step (.unsubscribe clientId filter)
    have hsupport := support_unsubscribe h clientId filter
    rw [eq_comm, count_eq_iff hafter h (hsupport ▸ Set.sdiff_subset), hsupport, Set.subset_sdiff,
      Set.disjoint_singleton_right, h.mem_support]
    exact and_iff_right Set.Subset.rfl
  | unsubscribeAll clientId =>
    change (tree.unsubscribeAll clientId).count = tree.count ↔ ∀ filter, ¬ tree.Has clientId filter
    have hafter : (tree.unsubscribeAll clientId).Held := h.step (.unsubscribeAll clientId)
    have hsupport := support_unsubscribeAll h clientId
    rw [eq_comm, count_eq_iff hafter h (hsupport ▸ Set.sdiff_subset), hsupport, Set.subset_sdiff,
      and_iff_right Set.Subset.rfl, Set.disjoint_left]
    constructor
    · intro hnone filter hhas
      exact hnone (h.mem_support.mpr hhas) rfl
    · rintro hnone ⟨clientId', filter⟩ hmem hclient
      obtain rfl : clientId' = clientId := hclient
      exact hnone filter (h.mem_support.mp hmem)
  | _ => exact iff_of_true rfl trivial

end

/-- Whether the tree is to be counted after the action, if `owes` says whether it was before. -/
def Action.owesCount (owes : Bool) : Action → Bool
  | .subscribe _ _ _ | .unsubscribe _ _ | .unsubscribeAll _ => true
  | .syncSubscriptionsActive => false
  | _ => owes

def Uncounted (a : Action) : Prop := ∀ owes, a.owesCount owes = owes

def countMonitor : Monitor Action Reply Bool where
  allows := fun _ _ => True
  next := fun owes a _ => a.owesCount owes

/-- A turn that ends here has counted what it changed. -/
def Counted (owes : Bool) : Control → Prop
  | .webSession _ _ => False
  | _ => owes = false

section
variable {α : Type} {Q : Bool → α → Prop} {owes : Bool}

theorem uncounted_run {a : Action} {f : Unit → Broker α} (hquiet : Uncounted a) (h : Meets countMonitor Q owes (f ())) :
    Meets countMonitor Q owes (run a >>= f) := by
  apply Meets.act trivial
  intro r
  change Meets countMonitor Q (a.owesCount owes) (f ())
  rw [hquiet]
  exact h

theorem uncounted_ask {a : Action} {f : Reply a → Broker α} (hquiet : Uncounted a)
    (h : ∀ r, Meets countMonitor Q owes (f r)) : Meets countMonitor Q owes (ask a >>= f) := by
  apply Meets.act trivial
  intro r
  change Meets countMonitor Q (a.owesCount owes) (f r)
  rw [hquiet]
  exact h r

theorem counted_any (p : Broker α) : Meets countMonitor (fun _ _ => True) owes p := .any (fun _ _ => trivial) owes p

theorem counted_only {p : Broker α} (h : Only Uncounted p) : Meets countMonitor (fun owes' _ => owes' = owes) owes p :=
  .of_only h (fun _ _ => trivial) fun _ hquiet _ => hquiet owes

theorem uncounted_bind {β : Type} {p : Broker β} {f : β → Broker α} (h : Only Uncounted p)
    (hf : ∀ x, Meets countMonitor Q owes (f x)) : Meets countMonitor Q owes (p >>= f) := by
  apply (counted_only h).seq
  intro owes' x howes
  subst howes
  exact hf x

theorem counted_sync {p : Broker α} : Meets countMonitor (fun owes' _ => owes' = false) owes (do
    let _ ← p
    run .syncSubscriptionsActive) :=
  (counted_any p).seq fun _ _ _ => .act trivial fun _ => .ret rfl

end

theorem writePacket_uncounted {what : Outgoing} {packet : MqttPacket} : Only Uncounted (writePacket what packet) :=
  writePacket_only (fun _ _ => rfl) (fun _ _ => rfl) packet

theorem uncounted_of_accepting {a : Action} (h : Accepting a) : Uncounted a := by
  intro owes
  cases a <;> first | rfl | cases h

theorem routePublish_uncounted {topic : String} {payload : Bytes} {qos : QoS} {retain : Bool} {sourceClient : String} :
    Only Uncounted (routePublish topic payload qos retain sourceClient) :=
  routePublish_only (fun _ => rfl) (fun _ _ => rfl) (fun _ _ _ => rfl) (fun _ _ _ => rfl) fun _ _ => rfl

theorem deliverWill_uncounted {clientId : String} {will : WillMessage} : Only Uncounted (deliverWill clientId will) :=
  deliverWill_only (fun _ => rfl) (fun _ _ _ => rfl) (fun _ _ _ => rfl) (fun _ _ => rfl) fun _ => rfl

theorem routeDisconnected_counted {clientId : String} {cleanSession : Bool} :
    Meets countMonitor (fun owes _ => owes = false) false (routeDisconnected clientId cleanSession) := by
  have hend : Meets countMonitor (fun owes _ => owes = false) false (if cleanSession = true then do
      run (.unsubscribeAll clientId)
      sendEvent (.RemoveClientSubscriptions clientId)
      run (.sessionsRemove clientId)
      sendEvent (.RemoveSession clientId)
      run .syncSubscriptionsActive
    else run (.sessionsSetDisconnected clientId)) := by
    cases cleanSession with
    | true =>
      apply (counted_any _).seq
      intro _ _ _
      apply (counted_any _).seq
      intro _ _ _
      apply (counted_any _).seq
      intro _ _ _
      exact counted_sync
    | false => exact counted_only (only_run_last fun _ => rfl)
  unfold routeDisconnected
  apply uncounted_ask
  · exact fun _ => rfl
  intro will
  cases will with
  | none => exact hend
  | some sent => exact uncounted_bind deliverWill_uncounted fun _ => hend

theorem routerLoop_counted : Meets countMonitor Counted false routerLoop := by
  unfold routerLoop
  apply uncounted_ask
  · exact fun _ => rfl
  rintro ⟨source, message⟩
  apply Meets.seq (Q := fun owes _ => owes = false)
  · cases message with
    | Publish topic payload qos retain sourceClient => exact counted_only routePublish_uncounted
    | ClientDisconnected clientId cleanSession => exact routeDisconnected_counted
  · intro owes _ howes
    exact .ret howes

section
variable {settings : Settings} {clientId username : String}

theorem acceptPublish_uncounted {topic : String} {payload : Bytes} {qos : QoS} {retain : Bool} :
    Only Uncounted (acceptPublish clientId topic payload qos retain) := by
  unfold acceptPublish
  apply only_run
  · exact fun _ => rfl
  cases retain with
  | false => exact .ret _
  | true =>
    cases payload.isEmpty with
    | true => exact only_run (fun _ => rfl) (only_run_last fun _ => rfl)
    | false => exact only_run (fun _ => rfl) (only_run_last fun _ => rfl)

theorem processPacket_counted {packet : MqttPacket} :
    Meets countMonitor (fun owes _ => owes = false) false (processPacket settings packet clientId username) := by
  cases hpublish : packet.publish with
  | some p => exact counted_only (publish_only hpublish (fun _ _ => rfl) fun _ => acceptPublish_uncounted)
  | none =>
    cases packet with
    | V311 p =>
      cases p with
      | Publish p => cases hpublish
      | Subscribe p =>
        apply (counted_any _).seq
        intro _ _ _
        exact .act trivial fun _ => .ret rfl
      | Unsubscribe p => exact counted_sync.seq fun _ _ howes => .ret howes
      | Disconnect =>
        exact counted_only (only_run (fun _ => rfl) (only_run (fun _ => rfl) (only_run (fun _ => rfl) (.ret _))))
      | _ => exact .ret rfl
    | V5 p =>
      cases p with
      | Publish p => cases hpublish
      | Subscribe p =>
        apply (counted_any _).seq
        intro _ _ _
        exact .act trivial fun _ => .ret rfl
      | Unsubscribe p => exact counted_sync.seq fun _ _ howes => .ret howes
      | Disconnect p =>
        apply uncounted_run
        · exact fun _ => rfl
        cases p.reasonCode != .DisconnectWithWillMessage with
        | false => exact .ret rfl
        | true => exact counted_only (only_run (fun _ => rfl) (only_run (fun _ => rfl) (.ret _)))
      | _ => exact .ret rfl

end

section
variable {settings : Settings}

theorem cleanup_counted {l : ConnLoop} : Meets countMonitor Counted false (cleanup l) := by
  unfold cleanup
  apply uncounted_run
  · exact fun _ => rfl
  apply uncounted_run
  · exact fun _ => rfl
  apply uncounted_run
  · exact fun _ => rfl
  apply uncounted_run
  · exact fun _ => rfl
  exact .ret rfl

theorem handlePacket_counted {l : ConnLoop} {packet : MqttPacket} {size : ℕ} {again : ConnLoop → Control}
    (hagain : ∀ l, Counted false (again l)) :
    Meets countMonitor Counted false (handlePacket settings l packet size again) := by
  unfold handlePacket
  apply uncounted_run
  · exact fun _ => rfl
  apply processPacket_counted.seq
  intro owes result howes
  subst howes
  match result with
  | .error _ => exact .ret rfl
  | .ok none => exact .ret (hagain _)
  | .ok (some response) =>
    apply uncounted_bind writePacket_uncounted
    intro written
    cases written with
    | false => exact .ret rfl
    | true => exact .ret (hagain _)

theorem tcpLoop_counted {l : ConnLoop} : Meets countMonitor Counted false (tcpLoop settings l) := by
  unfold tcpLoop
  match decodePacketByVersion l.buf l.version with
  | .error _ => exact cleanup_counted
  | .ok (some (packet, size)) => exact handlePacket_counted fun _ => rfl
  | .ok none =>
    apply uncounted_ask
    · exact fun _ => rfl
    intro event
    match event with
    | .received (.data bytes) => exact .ret rfl
    | .received .closed => exact cleanup_counted
    | .received .failed => exact .ret rfl
    | .forwarded data =>
      apply uncounted_ask
      · exact fun _ => rfl
      intro written
      cases written with
      | false => exact cleanup_counted
      | true =>
        apply uncounted_run
        · exact fun _ => rfl
        apply uncounted_run
        · exact fun _ => rfl
        exact .ret rfl

theorem forwardWs_counted {l : ConnLoop} {data : Bytes} : Meets countMonitor Counted false (forwardWs l data) := by
  unfold forwardWs
  apply uncounted_ask
  · exact fun _ => rfl
  intro written
  cases written with
  | false => exact cleanup_counted
  | true =>
    apply uncounted_run
    · exact fun _ => rfl
    exact .ret rfl

theorem wsLoop_counted {l : ConnLoop} : Meets countMonitor Counted false (wsLoop settings l) := by
  unfold wsLoop
  match decodePacketByVersion l.buf l.version with
  | .error _ => exact cleanup_counted
  | .ok (some (packet, size)) => exact handlePacket_counted fun _ => rfl
  | .ok none =>
    apply uncounted_ask
    · exact fun _ => rfl
    intro event
    match event with
    | .frame (.binary data) => exact .ret rfl
    | .frame .close => exact cleanup_counted
    | .frame (.ping bytes) =>
      apply uncounted_run
      · exact fun _ => rfl
      exact .ret rfl
    | .frame .pong => exact .ret rfl
    | .frame .other => exact .ret rfl
    | .lost => exact .ret rfl
    | .forwarded data => exact forwardWs_counted

theorem wsLost_counted {l : ConnLoop} : Meets countMonitor Counted false (wsLost l) := by
  unfold wsLost
  apply uncounted_ask
  · exact fun _ => rfl
  intro item
  match item with
  | some data => exact forwardWs_counted
  | none => exact cleanup_counted

theorem registerSession_uncounted {c : ConnectFields} {username : String} : Only Uncounted (registerSession c username) :=
  registerSession_accepting.mono fun _ => uncounted_of_accepting

theorem enterTcpLoop_counted {readBuf : Bytes} {c : ConnectFields} {clientId username : String} :
    Meets countMonitor Counted false (enterTcpLoop readBuf c clientId username) := by
  unfold enterTcpLoop
  apply uncounted_run
  · exact fun _ => rfl
  apply uncounted_bind writePacket_uncounted
  intro written
  cases written with
  | false => exact .ret rfl
  | true =>
    apply uncounted_run
    · exact fun _ => rfl
    match V3.decodePacket readBuf with
    | .ok (some (_, consumed)) => exact .ret rfl
    | .ok none => exact .ret rfl
    | .error _ => exact .ret rfl

theorem acceptTcp_counted {readBuf : Bytes} {c : ConnectFields} :
    Meets countMonitor Counted false (acceptTcp settings readBuf c) := by
  unfold acceptTcp
  cases settings.authenticator.authenticate settings.config.allowAnonymous c.username c.password with
  | Denied reason => exact uncounted_bind writePacket_uncounted fun _ => .ret rfl
  | Success username =>
    apply uncounted_bind registerSession_uncounted
    intro clientId
    cases c.will with
    | none => exact enterTcpLoop_counted
    | some will =>
      have hstore : Only Uncounted (storeWill clientId will) := only_run (fun _ => rfl) (only_run_last fun _ => rfl)
      exact uncounted_bind hstore fun _ => enterTcpLoop_counted

theorem handleConnection_counted : Meets countMonitor Counted false (handleConnection settings) := by
  unfold handleConnection
  apply uncounted_ask
  · exact fun _ => rfl
  intro received
  match received with
  | .failed => exact .ret rfl
  | .closed => exact .ret rfl
  | .data readBuf =>
    match hfirst : decodeFirstPacket readBuf with
    | .error _ =>
      simp only [hfirst]
      exact .ret rfl
    | .ok none =>
      simp only [hfirst]
      exact .ret rfl
    | .ok (some packet) =>
      simp only [hfirst]
      cases connectFields packet with
      | none => exact .ret rfl
      | some c => exact acceptTcp_counted

theorem acceptWs_counted {buf : Bytes} {c : ConnectFields} :
    Meets countMonitor Counted false (acceptWs settings buf c) := by
  unfold acceptWs
  cases settings.authenticator.authenticate settings.config.allowAnonymous c.username c.password with
  | Denied reason => exact uncounted_bind writePacket_uncounted fun _ => .ret rfl
  | Success username =>
    apply uncounted_bind registerSession_uncounted
    intro clientId
    apply uncounted_run
    · exact fun _ => rfl
    apply uncounted_bind writePacket_uncounted
    intro written
    cases written with
    | false => exact .ret rfl
    | true =>
      simp only [if_true]
      split
      · apply uncounted_run
        · exact fun _ => rfl
        exact .ret rfl
      · exact .ret rfl

theorem handleWsMqttSession_counted {buf : Bytes} :
    Meets countMonitor Counted false (handleWsMqttSession settings buf) := by
  unfold handleWsMqttSession
  apply uncounted_ask
  · exact fun _ => rfl
  intro item
  match item with
  | .failed => exact .ret rfl
  | .ended => exact .ret rfl
  | .frame .close => exact .ret rfl
  | .frame (.ping bytes) =>
    apply uncounted_run
    · exact fun _ => rfl
    exact .ret rfl
  | .frame .pong => exact .ret rfl
  | .frame .other => exact .ret rfl
  | .frame (.binary data) =>
    match hfirst : decodeFirstPacket (buf ++ data) with
    | .error _ =>
      simp only [hfirst]
      exact .ret rfl
    | .ok none =>
      simp only [hfirst]
      exact .ret rfl
    | .ok (some packet) =>
      simp only [hfirst]
      unfold handleConnectAfterDecode
      cases connectFields packet with
      | none => exact .ret rfl
      | some c => exact acceptWs_counted

end

theorem publishMessage_counted {topic payload : String} {qos : UInt8} {retain : Bool} :
    Meets countMonitor Counted false (publishMessage topic payload qos retain) := by
  have hend : Meets countMonitor Counted false (do
      metrics .incrementMessagesPublished
      run (.lookup topic)
      return .exited true) := by
    apply uncounted_run
    · exact fun _ => rfl
    apply uncounted_run
    · exact fun _ => rfl
    exact .ret rfl
  unfold publishMessage
  apply uncounted_run
  · exact fun _ => rfl
  cases retain && !payload.isEmpty with
  | false => exact hend
  | true =>
    apply uncounted_run
    · exact fun _ => rfl
    exact hend

theorem deleteRetainedMessage_counted {topic : String} :
    Meets countMonitor Counted false (deleteRetainedMessage topic) := by
  unfold deleteRetainedMessage
  apply uncounted_ask
  · exact fun _ => rfl
  intro contained
  cases contained with
  | false => exact .ret rfl
  | true =>
    apply uncounted_run
    · exact fun _ => rfl
    apply uncounted_run
    · exact fun _ => rfl
    exact .ret rfl

theorem disconnectClient_counted {clientId : String} :
    Meets countMonitor Counted false (disconnectClient clientId) := by
  unfold disconnectClient
  apply uncounted_ask
  · exact fun _ => rfl
  intro _
  exact .ret rfl

def countObserver : Observer ThreadId Action Reply Control Bool where
  monitor := fun _ => countMonitor
  begin := fun _ _ => false

/-- Every task but a web session counts what it changes before its turn ends. -/
theorem counts_cover (settings : Settings) : countObserver.Covers (brokerSystem settings)
    fun i owes c => (∃ k, i = .web k) ∨ Counted owes c where
  start := by
    intro node i c h
    cases i <;> cases c <;> first | exact .inr rfl | exact .inl ⟨_, rfl⟩ | cases h
  body := by
    intro i owes c h
    obtain hweb | hcounted := h
    · exact (counted_any _).mono fun _ _ _ => .inl hweb
    · have hbody : Meets countMonitor Counted owes (body settings c) := by
        cases c with
        | webSession subscriberId activeSubscriptions => exact hcounted.elim
        | router => exact hcounted ▸ routerLoop_counted
        | tcp => exact hcounted ▸ handleConnection_counted
        | tcpLoop l => exact hcounted ▸ tcpLoop_counted
        | ws buf => exact hcounted ▸ handleWsMqttSession_counted
        | wsLoop l => exact hcounted ▸ wsLoop_counted
        | wsLost l => exact hcounted ▸ wsLost_counted
        | publishRequest topic payload qos retain => exact hcounted ▸ publishMessage_counted
        | deleteRetainedRequest topic => exact hcounted ▸ deleteRetainedMessage_counted
        | disconnectRequest clientId => exact hcounted ▸ disconnectClient_counted
        | exited ok => exact uncounted_run (fun _ => rfl) (.ret hcounted)
      exact hbody.mono fun _ _ => .inr

/-- No task is in the middle of a turn. -/
def AtRest (cfg : BrokerConfigState) : Prop := ∀ i p, cfg.thread i = .running p → ∃ c, p = .ret c

/-- The metric is the number of subscriptions in the tree. -/
def BrokerState.MetricExact (broker : BrokerState) : Prop :=
  broker.metrics.subscriptionsActive = broker.subscriptions.count

/-- A web session subscribes to nothing new, and unsubscribes from nothing that is there. -/
def WebKeepsKeys (cfg : BrokerConfigState) (e : BrokerEvent) : Prop :=
  ∀ k a r, e = .act (.web k) a r → KeepsKeys cfg.shared.shared.broker.subscriptions a

section
variable {i : ThreadId} {a : Action} {b : BrokerState}

theorem onBroker_subscriptions (i : ThreadId) (a : Action) (b : BrokerState) :
    (a.onBroker i b).subscriptions = a.onSubscriptions b.subscriptions := by
  cases a <;> cases i <;> rfl

theorem onBroker_active (i : ThreadId) (hsync : a ≠ .syncSubscriptionsActive) :
    (a.onBroker i b).metrics.subscriptionsActive = b.metrics.subscriptionsActive := by
  cases a with
  | syncSubscriptionsActive => exact absurd rfl hsync
  | metrics op => cases op <;> rfl
  | _ => cases i <;> rfl

theorem uncounted_of_owesCount {owes : Bool} (howes : a.owesCount owes = false) (hsync : a ≠ .syncSubscriptionsActive) :
    owes = false ∧ ∀ tree, a.onSubscriptions tree = tree := by
  cases a with
  | subscribe clientId filter qos => cases howes
  | unsubscribe clientId filter => cases howes
  | unsubscribeAll clientId => cases howes
  | syncSubscriptionsActive => exact absurd rfl hsync
  | _ => exact ⟨howes, fun _ => rfl⟩

theorem metricExact_act_iff (hheld : b.subscriptions.Held) (hexact : b.MetricExact)
    (hsync : a ≠ .syncSubscriptionsActive) : (a.onBroker i b).MetricExact ↔ KeepsKeys b.subscriptions a := by
  rw [BrokerState.MetricExact, onBroker_active i hsync, onBroker_subscriptions, hexact, eq_comm]
  exact count_of_act_iff hheld a

end

/-- The metric is exact, or a task that is no web session owes a count. -/
def Metered (evs : List BrokerEvent) (cfg : BrokerConfigState) : Prop :=
  cfg.shared.shared.broker.MetricExact ∨
    ∃ i p, cfg.thread i = .running p ∧ (∀ k, i ≠ .web k) ∧ countObserver.ghosts (fun _ => false) evs i = true

section
variable {settings : Settings} {db : Database} {evs : List BrokerEvent} {cfg : BrokerConfigState}

theorem Metered.spawn {i : ThreadId} {c : Control} (h : Metered evs cfg) (hfresh : cfg.thread i = .fresh) :
    Metered (evs ++ [.spawn i c]) { cfg with thread := Function.update cfg.thread i (.running (.ret c)) } := by
  obtain hexact | ⟨j, p, hp, hweb, howes⟩ := h
  · exact .inl hexact
  · have hj : j ≠ i := by
      rintro rfl
      cases hp.symm.trans hfresh
    refine .inr ⟨j, p, (Function.update_of_ne hj _ _).trans hp, hweb, ?_⟩
    rw [Observer.ghosts_snoc]
    exact (Function.update_of_ne hj _ _).trans howes

theorem Metered.act {i : ThreadId} {a : Action} {r : Reply a} {node : Node} {q : Broker Control} (h : Metered evs cfg)
    (hheld : cfg.shared.shared.broker.subscriptions.Held)
    (hbroker : node.shared.broker = a.onBroker i cfg.shared.shared.broker) (hkeeps : WebKeepsKeys cfg (.act i a r)) :
    Metered (evs ++ [.act i a r]) { shared := node, thread := Function.update cfg.thread i (.running q) } := by
  by_cases hsync : a = .syncSubscriptionsActive
  · subst hsync
    left
    rw [hbroker]
    rfl
  -- what another task owes it still owes
  have hother : ∀ j p, j ≠ i → cfg.thread j = .running p → (∀ k, j ≠ .web k) →
      countObserver.ghosts (fun _ => false) evs j = true →
      Metered (evs ++ [.act i a r]) { shared := node, thread := Function.update cfg.thread i (.running q) } := by
    intro j p hj hp hweb howes
    refine .inr ⟨j, p, (Function.update_of_ne hj _ _).trans hp, hweb, ?_⟩
    rw [Observer.ghosts_act]
    exact (Function.update_of_ne hj _ _).trans howes
  by_cases hi : ∃ k, i = .web k
  · obtain ⟨k, rfl⟩ := hi
    obtain hexact | ⟨j, p, hp, hweb, howes⟩ := h
    · left
      rw [hbroker]
      exact (metricExact_act_iff hheld hexact hsync).mpr (hkeeps k a r rfl)
    · exact hother j p (hweb k) hp hweb howes
  · cases howes : a.owesCount (countObserver.ghosts (fun _ => false) evs i) with
    | true =>
      refine .inr ⟨i, q, Function.update_self .., fun k hk => hi ⟨k, hk⟩, ?_⟩
      rw [Observer.ghosts_act, Function.update_self]
      exact howes
    | false =>
      obtain ⟨hnone, hsame⟩ := uncounted_of_owesCount howes hsync
      obtain hexact | ⟨j, p, hp, hweb, howed⟩ := h
      · left
        rw [hbroker, BrokerState.MetricExact, onBroker_active i hsync, onBroker_subscriptions, hsame]
        exact hexact
      · have hj : j ≠ i := by
          rintro rfl
          cases hnone.symm.trans howed
        exact hother j p hj hp hweb howed

theorem metered_of_run
    (hrun : (brokerSystem settings).RunWhere (fun _ cfg e _ => WebKeepsKeys cfg e) (started db) evs cfg) : Metered evs cfg := by
  induction hrun with
  | nil => exact .inl rfl
  | snoc run step ok hmetered =>
    cases step with
    | spawn hfresh _ => exact hmetered.spawn hfresh
    | act hrunning hnext hperform =>
      exact hmetered.act (held_of_run (held_of_started db) run) (node_performed hperform).1.broker ok
    | @world w node ends hworld =>
      cases w with
      | commit n =>
        cases hworld
        rw [Metered, Observer.ghosts_world]
        exact hmetered
      | restart =>
        obtain ⟨rfl, rfl⟩ := restart_of_world hworld
        exact .inl rfl

/-- As long as no web session changes which subscriptions there are, the metric is exact in every state of a run in
    which no operation is in progress. -/
theorem metric_exact
    (hrun : (brokerSystem settings).RunWhere (fun _ cfg e _ => WebKeepsKeys cfg e) (started db) evs cfg)
    (hrest : AtRest cfg) : cfg.shared.shared.broker.MetricExact := by
  obtain hexact | ⟨i, p, hp, hweb, howes⟩ := metered_of_run hrun
  · exact hexact
  · obtain ⟨c, rfl⟩ := hrest i p hp
    have hmeets : Meets countMonitor (fun owes c => (∃ k, i = .web k) ∨ Counted owes c)
        (countObserver.ghosts (fun _ => false) evs i) (.ret c) := (counts_cover settings).meets (fun _ => rfl) hrun hp
    obtain ⟨k, hk⟩ | hcounted := hmeets.of_ret
    · exact absurd hk (hweb k)
    · cases c with
      | webSession subscriberId activeSubscriptions => exact hcounted.elim
      | _ => cases hcounted.symm.trans howes

end

def restsAfter (evs : List BrokerEvent) (cfg : BrokerConfigState) : Bool :=
  evs.all fun
    | .spawn i _ =>
      match cfg.thread i with
      | .running (.act _ _) => false
      | _ => true
    | _ => true

theorem atRest_of_restsAfter {settings : Settings} {db : Database} {evs : List BrokerEvent} {cfg : BrokerConfigState}
    {P : List BrokerEvent → BrokerConfigState → BrokerEvent → BrokerConfigState → Prop}
    (hrun : (brokerSystem settings).RunWhere P (started db) evs cfg) (h : restsAfter evs cfg = true) : AtRest cfg := by
  intro i p hp
  cases p with
  | ret c => exact ⟨c, rfl⟩
  | act a k =>
    by_cases hspawn : ∃ c, .spawn i c ∈ evs
    · obtain ⟨c, hc⟩ := hspawn
      have hends := List.all_eq_true.mp h _ hc
      simp [hp] at hends
    · have hfresh := hrun.fresh _ rfl fun c hc => hspawn ⟨c, hc⟩
      cases hp.symm.trans hfresh

def webSubscribeMoves : List BrokerMove :=
  [.spawn (.web 0) (.webSession "webui-sub-1" []), .act (.web 0) (.webFrame (.text (.subscribe "t" 0)))] ++
  turns (.web 0) 4

def clientSubscribeMoves : List BrokerMove :=
  [.spawn (.web 0) (.webSession "webui-sub-1" []), .act (.web 0) (.webFrame (.text .ping))] ++ turns (.web 0) 1 ++
  joinMoves 0 "c" true ++
  [.act (.connection 0) (.received (.data (sentBytes (.V311 (.Subscribe
    { packetId := 1, filters := [{ path := "t", qos := .AtMostOnce }] })))))] ++ turns (.connection 0) 8

def webLeavesTree : BrokerEvent → Bool
  | .act (.web _) (.subscribe _ _ _) _ | .act (.web _) (.unsubscribe _ _) _ | .act (.web _) (.unsubscribeAll _) _ =>
    false
  | _ => true

theorem webKeepsKeys_of_leavesTree {cfg : BrokerConfigState} {e : BrokerEvent} (h : webLeavesTree e = true) :
    WebKeepsKeys cfg e := by
  rintro k a r rfl
  cases a <;> trivial

theorem metric_exact_subscribed : ∃ evs cfg,
    (brokerSystem openSettings).RunWhere (fun _ cfg e _ => WebKeepsKeys cfg e) (started Database.empty) evs cfg ∧
    AtRest cfg ∧ cfg.shared.shared.broker.subscriptions.count = 1 ∧ cfg.shared.shared.broker.MetricExact := by
  have hrun : ((brokerSystem openSettings).execWhere (fun _ _ e _ => webLeavesTree e) [] (started Database.empty)
      clientSubscribeMoves).map (fun r => (restsAfter r.1 r.2, r.2.shared.shared.broker.subscriptions.count)) =
      some (true, 1) := by decide +kernel
  obtain ⟨⟨evs, cfg⟩, hexec, heq⟩ := Option.map_eq_some_iff.mp hrun
  obtain ⟨hrests, hcount⟩ := Prod.mk.inj heq
  have hwhere : (brokerSystem openSettings).RunWhere (fun _ cfg e _ => WebKeepsKeys cfg e) (started Database.empty)
      evs cfg := System.execWhere_run _ (fun _ _ _ _ => webKeepsKeys_of_leavesTree) .nil hexec
  have hrest := atRest_of_restsAfter hwhere hrests
  exact ⟨evs, cfg, hwhere, hrest, hcount, metric_exact hwhere hrest⟩

/-- The metric says nothing of the subscription of a web session. -/
theorem metric_behind : ¬ ∀ settings db evs cfg, (brokerSystem settings).Run (started db) evs cfg → AtRest cfg →
    cfg.shared.shared.broker.MetricExact := by
  intro hall
  have hrun : ((brokerSystem openSettings).execWhere (fun _ _ _ _ => true) [] (started Database.empty)
      webSubscribeMoves).map (fun r => (restsAfter r.1 r.2, r.2.shared.shared.broker.subscriptions.count,
        r.2.shared.shared.broker.metrics.subscriptionsActive)) = some (true, 1, 0) := by decide +kernel
  obtain ⟨⟨evs, cfg⟩, hexec, heq⟩ := Option.map_eq_some_iff.mp hrun
  simp only [Prod.mk.injEq] at heq
  obtain ⟨hrests, hcount, hactive⟩ := heq
  have hwhere : (brokerSystem openSettings).Run (started Database.empty) evs cfg :=
    System.execWhere_run _ (fun _ _ _ _ _ => trivial) .nil hexec
  have hexact := hall _ _ _ _ hwhere (atRest_of_restsAfter hwhere hrests)
  rw [BrokerState.MetricExact, hcount, hactive] at hexact
  cases hexact

end AtomMqtt
