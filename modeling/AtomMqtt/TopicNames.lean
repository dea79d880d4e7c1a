import AtomMqtt.PacketTraces
import AtomMqtt.PublishAuthorisation

set_option autoImplicit false

/-! The names under which messages circulate. `TopicName::is_valid` is never asked. A topic comes in with a
PUBLISH, with the will of a CONNECT over TCP or with a request; from there on it goes through the broker as it
is. -/
namespace AtomMqtt
open Programs

/-- The topic of the PUBLISH that the loop is about to process, if the rules allow it. -/
def publishedTopic (settings : Settings) (l : ConnLoop) : Option String :=
  match decodePacketByVersion l.buf l.version with
  | .ok (some (packet, _)) =>
    (packet.publish.map (·.topic)).filter fun topic =>
      settings.acl.authorizePublish (l.username.getD "anonymous") topic
  | _ => none

/-- The topic of the will of the CONNECT that has been read, if it is accepted. -/
def willTopic (settings : Settings) (readBuf : Bytes) : Option String :=
  match decodeFirstPacket readBuf with
  | .ok (some packet) => do
    let c ← connectFields packet
    match settings.authenticator.authenticate settings.config.allowAnonymous c.username c.password with
    | .Success _ => c.will.map (·.topic)
    | .Denied _ => none
  | _ => none

/-- The topic that comes in with the first action of a turn. The WebSocket handler stores no will. -/
def incomingTopic (settings : Settings) : Control → (a : Action) → Reply a → Option String
  | .tcp, .read, .data readBuf => willTopic settings readBuf
  | .tcpLoop l, _, _ => publishedTopic settings l
  | .wsLoop l, _, _ => publishedTopic settings l
  | .publishRequest topic _ _ _, _, _ => some topic
  | _, _, _ => none

/-- What comes in with the step has a valid topic. -/
def IncomingValid (settings : Settings) (cfg : BrokerConfigState) : BrokerEvent → Prop
  | .act i a r => ∀ c topic, cfg.thread i = .running (.ret c) → incomingTopic settings c a r = some topic →
      TopicName.isValid topic = true
  | _ => True

def Action.handedTopic : Action → Option String
  | .willsInsert _ will => some will.topic
  | .sendRouter (.Publish topic _ _ _ _) | .retainedInsert topic _ | .sendEvent (.SaveRetained topic _ _) => some topic
  | _ => none

def HandsValid (a : Action) : Prop := ∀ topic, a.handedTopic = some topic → TopicName.isValid topic = true

theorem handsValid_of_none {a : Action} (h : a.handedTopic = none) : HandsValid a := by
  intro topic htopic
  rw [h] at htopic
  cases htopic

theorem handsValid_of_topic {a : Action} {topic : String} (h : a.handedTopic = some topic)
    (hvalid : TopicName.isValid topic = true) : HandsValid a := by
  intro topic' htopic
  rw [h] at htopic
  cases htopic
  exact hvalid

section
variable {settings : Settings} {clientId username topic : String}

theorem acceptPublish_valid {payload : Bytes} {qos : QoS} {retain : Bool} (hvalid : TopicName.isValid topic = true) :
    Only HandsValid (acceptPublish clientId topic payload qos retain) := by
  unfold acceptPublish
  apply only_run (handsValid_of_topic rfl hvalid)
  cases retain with
  | false => exact .ret _
  | true =>
    cases payload.isEmpty with
    | true => exact only_run (handsValid_of_none rfl) (only_run_last (handsValid_of_none rfl))
    | false => exact only_run (handsValid_of_topic rfl hvalid) (only_run_last (handsValid_of_topic rfl hvalid))

theorem handsValid_of_local {a : Action} (h : LocalAction clientId a) : HandsValid a := by
  apply handsValid_of_none
  cases a with
  | sendEvent event => cases event <;> first | rfl | exact h.elim
  | sendRouter message => exact h.elim
  | willsInsert _ _ => exact h.elim
  | retainedInsert _ _ => exact h.elim
  | _ => rfl

theorem processPacket_valid {packet : MqttPacket} (hvalid : ∀ p, packet.publish = some p →
    settings.acl.authorizePublish username p.topic = true → TopicName.isValid p.topic = true) :
    Only HandsValid (processPacket settings packet clientId username) := by
  cases hpublish : packet.publish with
  | none => exact (processPacket_only hpublish).mono fun _ => handsValid_of_local
  | some p =>
    have htopic := hvalid p hpublish
    exact publish_only hpublish (fun _ => handsValid_of_none rfl) fun hacl => acceptPublish_valid (htopic hacl)

theorem writePacket_valid (what : Outgoing) (packet : MqttPacket) : Only HandsValid (writePacket what packet) :=
  writePacket_only (fun _ => handsValid_of_none rfl) (fun _ => handsValid_of_none rfl) packet

theorem cleanup_valid (l : ConnLoop) : Only HandsValid (cleanup l) :=
  only_run (handsValid_of_none rfl) <| only_run (handsValid_of_none rfl) <| only_run (handsValid_of_none rfl) <|
    only_run (handsValid_of_none rfl) (.ret _)

theorem handlePacket_valid {l : ConnLoop} {packet : MqttPacket} {size : ℕ} {again : ConnLoop → Control}
    (hdecode : decodePacketByVersion l.buf l.version = .ok (some (packet, size)))
    (hvalid : ∀ topic, publishedTopic settings l = some topic → TopicName.isValid topic = true) :
    Only HandsValid (handlePacket settings l packet size again) := by
  unfold handlePacket
  apply only_run (handsValid_of_none rfl)
  refine Only.bind (processPacket_valid ?_) ?_
  · intro p hpublish hacl
    apply hvalid
    rw [publishedTopic, hdecode]
    simp only [hpublish, Option.map_some, Option.filter_some, hacl, if_true]
  · intro result
    match result with
    | .error _ => exact .ret _
    | .ok none => exact .ret _
    | .ok (some response) =>
      refine (writePacket_valid .response response).bind fun written => ?_
      cases written <;> exact .ret _

theorem tcpLoop_valid {l : ConnLoop}
    (hvalid : ∀ topic, publishedTopic settings l = some topic → TopicName.isValid topic = true) :
    Only HandsValid (tcpLoop settings l) := by
  unfold tcpLoop
  match hdecode : decodePacketByVersion l.buf l.version with
  | .ok (some (packet, size)) => exact handlePacket_valid hdecode hvalid
  | .error _ => exact cleanup_valid l
  | .ok none =>
    apply only_ask (handsValid_of_none rfl)
    intro event
    match event with
    | .received (.data _) => exact .ret _
    | .received .closed => exact cleanup_valid l
    | .received .failed => exact .ret _
    | .forwarded data =>
      apply only_ask (handsValid_of_none rfl)
      intro written
      cases written with
      | false => exact cleanup_valid l
      | true => exact only_run (handsValid_of_none rfl) (only_run (handsValid_of_none rfl) (.ret _))

theorem forwardWs_valid (l : ConnLoop) (data : Bytes) : Only HandsValid (forwardWs l data) := by
  unfold forwardWs
  apply only_ask (handsValid_of_none rfl)
  intro written
  cases written with
  | false => exact cleanup_valid l
  | true => exact only_run (handsValid_of_none rfl) (.ret _)

theorem wsLoop_valid {l : ConnLoop}
    (hvalid : ∀ topic, publishedTopic settings l = some topic → TopicName.isValid topic = true) :
    Only HandsValid (wsLoop settings l) := by
  unfold wsLoop
  match hdecode : decodePacketByVersion l.buf l.version with
  | .ok (some (packet, size)) => exact handlePacket_valid hdecode hvalid
  | .error _ => exact cleanup_valid l
  | .ok none =>
    apply only_ask (handsValid_of_none rfl)
    intro event
    match event with
    | .frame (.binary _) => exact .ret _
    | .frame .close => exact cleanup_valid l
    | .frame (.ping _) => exact only_run (handsValid_of_none rfl) (.ret _)
    | .frame .pong => exact .ret _
    | .frame .other => exact .ret _
    | .lost => exact .ret _
    | .forwarded data => exact forwardWs_valid l data

theorem wsLost_valid (l : ConnLoop) : Only HandsValid (wsLost l) := by
  unfold wsLost
  apply only_ask (handsValid_of_none rfl)
  intro item
  match item with
  | some data => exact forwardWs_valid l data
  | none => exact cleanup_valid l

theorem handsValid_of_accepting {a : Action} (h : Accepting a) : HandsValid a := by
  apply handsValid_of_none
  cases a with
  | sendEvent event => cases event <;> first | rfl | exact h.elim
  | sendRouter message => exact h.elim
  | willsInsert _ _ => exact h.elim
  | retainedInsert _ _ => exact h.elim
  | _ => rfl

theorem acceptTcp_valid {readBuf : Bytes} {c : ConnectFields}
    (hvalid : ∀ username, settings.authenticator.authenticate settings.config.allowAnonymous c.username c.password =
      .Success username → ∀ will, c.will = some will → TopicName.isValid will.topic = true) :
    Only HandsValid (acceptTcp settings readBuf c) := by
  apply acceptTcp_only
  · exact fun _ => handsValid_of_accepting
  · intro username hauth will hwill clientId
    have hinsert : HandsValid (.willsInsert clientId { will with clientId }) :=
      handsValid_of_topic rfl (hvalid username hauth will hwill)
    exact only_run hinsert (only_run_last (handsValid_of_none rfl))

theorem handleWsMqttSession_valid (buf : Bytes) : Only HandsValid (handleWsMqttSession settings buf) := by
  unfold handleWsMqttSession
  apply only_ask (handsValid_of_none rfl)
  intro item
  match item with
  | .frame (.binary data) =>
    dsimp only
    split
    · unfold handleConnectAfterDecode
      split
      · exact .ret _
      · exact (acceptWs_accepting _).mono fun _ => handsValid_of_accepting
    · exact .ret _
    · exact .ret _
  | .frame .close => exact .ret _
  | .frame (.ping _) => exact only_run (handsValid_of_none rfl) (.ret _)
  | .frame .pong => exact .ret _
  | .frame .other => exact .ret _
  | .failed => exact .ret _
  | .ended => exact .ret _

theorem publishMessage_valid {payload : String} {qos : UInt8} {retain : Bool} (hvalid : TopicName.isValid topic = true) :
    Only HandsValid (publishMessage topic payload qos retain) := by
  have hrest : Only HandsValid (do
      metrics .incrementMessagesPublished
      run (.lookup topic)
      return .exited true : Broker Control) := only_run (handsValid_of_none rfl) (only_run (handsValid_of_none rfl) (.ret _))
  unfold publishMessage
  apply only_run (handsValid_of_topic rfl hvalid)
  cases retain && !payload.isEmpty with
  | true => exact only_run (handsValid_of_topic rfl hvalid) hrest
  | false => exact hrest

theorem deleteRetainedMessage_valid : Only HandsValid (deleteRetainedMessage topic) := by
  unfold deleteRetainedMessage
  apply only_ask (handsValid_of_none rfl)
  intro found
  cases found with
  | false => exact .ret _
  | true => exact only_run (handsValid_of_none rfl) (only_run (handsValid_of_none rfl) (.ret _))

theorem disconnectClient_valid : Only HandsValid (disconnectClient clientId) :=
  only_ask (handsValid_of_none rfl) fun _ => .ret _

theorem received_valid {k : Received → Broker Control} (hnext : handleConnection settings = .act .read k) (r : Received)
    (hvalid : ∀ topic, incomingTopic settings .tcp .read r = some topic → TopicName.isValid topic = true) :
    Only HandsValid (k r) := by
  cases hnext
  cases r with
  | failed => exact .ret _
  | closed => exact .ret _
  | data readBuf =>
    cases hfirst : decodeFirstPacket readBuf with
    | error e =>
      simp only [Program.bind, hfirst]
      exact .ret _
    | ok decoded =>
      cases decoded with
      | none =>
        simp only [Program.bind, hfirst]
        exact .ret _
      | some packet =>
        simp only [Program.bind, hfirst]
        cases hfields : connectFields packet with
        | none => exact .ret _
        | some c =>
          apply acceptTcp_valid
          intro username hauth will hwill
          apply hvalid
          change willTopic settings readBuf = _
          simp only [willTopic, hfirst, hfields, hauth, hwill, Option.bind_eq_bind, Option.bind_some, Option.map_some]

theorem body_valid {i : ThreadId} {g : Phase} {c : Control} {a : Action} {k : Reply a → Broker Control} {r : Reply a}
    (hready : ready i g c) (hrouter : i.isRouter = false) (hweb : ∀ w, i ≠ .web w)
    (hnext : body settings c = .act a k)
    (hvalid : ∀ topic, incomingTopic settings c a r = some topic → TopicName.isValid topic = true) :
    HandsValid a ∧ Only HandsValid (k r) := by
  have hall : Only HandsValid (body settings c) → HandsValid a ∧ Only HandsValid (k r) := by
    intro h
    rw [hnext] at h
    exact ⟨h.of_act.1, h.of_act.2 r⟩
  cases c with
  | router => cases i <;> first | exact hready.elim | cases hrouter
  | webSession subscriberId activeSubscriptions =>
    cases i with
    | web w => exact absurd rfl (hweb w)
    | _ => exact hready.elim
  | tcp =>
    cases hnext
    refine ⟨handsValid_of_none rfl, ?_⟩
    exact received_valid rfl r hvalid
  | tcpLoop l => exact hall (tcpLoop_valid hvalid)
  | wsLoop l => exact hall (wsLoop_valid hvalid)
  | wsLost l => exact hall (wsLost_valid l)
  | ws buf => exact hall (handleWsMqttSession_valid buf)
  | publishRequest topic payload qos retain => exact hall (publishMessage_valid (hvalid topic rfl))
  | deleteRetainedRequest topic => exact hall deleteRetainedMessage_valid
  | disconnectRequest clientId => exact hall disconnectClient_valid
  | exited ok => exact hall (only_run (handsValid_of_none rfl) (.ret _))

end

structure TopicsValid (settings : Settings) (evs : List BrokerEvent) (cfg : BrokerConfigState) : Prop where
  threads : ∀ i p, cfg.thread i = .running p → i.isRouter = false → (∀ w, i ≠ .web w) → Only HandsValid p
  held : ∀ sender topic, Holds cfg.shared (phases settings evs) sender topic → TopicName.isValid topic = true
  retained : ∀ topic message, cfg.shared.shared.broker.retained.lookup topic = some message →
    TopicName.isValid topic = true
  saving : ∀ sender topic payload qos, (sender, .SaveRetained topic payload qos) ∈ cfg.shared.shared.events →
    TopicName.isValid topic = true
  rows : ∀ topic row, cfg.shared.database.retainedMessages.lookup topic = some row → TopicName.isValid topic = true
  routed : ∀ life a r topic, .act (.router life) a r ∈ evs → Delivers topic (.router life) a →
    TopicName.isValid topic = true

section
variable {settings : Settings} {evs : List BrokerEvent} {cfg cfg' : BrokerConfigState} {i : ThreadId} {a : Action}
  {r : Reply a} {input : Input} {k : Reply a → Broker Control} {p : Broker Control}

theorem handedTopic_of_introduces {topic : String} (h : a.Introduces topic) : a.handedTopic = some topic := by
  cases a with
  | willsInsert clientId will => exact congrArg some h
  | sendRouter message =>
    cases message with
    | Publish topic' payload qos retain sourceClient => exact congrArg some h
    | ClientDisconnected clientId cleanSession => exact h.elim
  | _ => exact h.elim

theorem handsValid_of_allows (hallows : allows settings i (phases settings evs i) a) (h : TopicsValid settings evs cfg)
    (hother : i.isRouter = false → (∀ w, i ≠ .web w) → HandsValid a) : HandsValid a := by
  cases i with
  | connection k => exact hother rfl fun _ => nofun
  | request n => exact hother rfl fun _ => nofun
  | web w =>
    apply handsValid_of_none
    cases a with
    | sendEvent event => exact hallows.elim
    | sendRouter message => exact hallows.elim
    | willsInsert _ _ => exact hallows.elim
    | retainedInsert _ _ => exact hallows.elim
    | _ => rfl
  | router life =>
    cases a with
    | retainedInsert topic message =>
      obtain ⟨-, sender, hcarried⟩ := hallows
      exact handsValid_of_topic rfl (h.held sender topic (.carried hcarried))
    | sendEvent event =>
      apply handsValid_of_none
      cases event with
      | SaveRetained _ _ _ => exact hallows.elim
      | _ => rfl
    | sendRouter message => exact hallows.elim
    | willsInsert _ _ => exact hallows.elim
    | _ => exact handsValid_of_none rfl

theorem retained_of_act {broker : BrokerState} {topic : String} {message : RetainedMessage}
    (h : (a.onBroker i broker).retained.lookup topic = some message) :
    broker.retained.lookup topic = some message ∨ a.handedTopic = some topic := by
  cases a with
  | retainedInsert topic' message' =>
    cases DashMap.lookup_insert_eq_some.mp h with
    | inl hnew =>
      obtain ⟨rfl, -⟩ := hnew
      exact .inr rfl
    | inr hold => exact .inl hold.2
  | retainedRemove topic' => exact .inl (DashMap.lookup_erase_eq_some.mp h).2
  | connectionsInsert _ => cases i <;> exact .inl h
  | webSubscribersInsert _ => cases i <;> exact .inl h
  | _ => exact .inl h

theorem TopicsValid.act (hrunning : cfg.thread i = .running p) (hnext : (brokerSystem settings).unroll i p = .act a k)
    (hready : ∀ c, p = .ret c → ready i (phases settings evs i) c)
    (hallows : allows settings i (phases settings evs i) a) (hperform : cfg.shared.perform i a input = some (cfg'.shared, r))
    (hthread : cfg'.thread = Function.update cfg.thread i (.running (k r)))
    (hok : IncomingValid settings cfg (.act i a r)) (h : TopicsValid settings evs cfg) :
    TopicsValid settings (evs ++ [.act i a r]) cfg' := by
  have hturn : i.isRouter = false → (∀ w, i ≠ .web w) → HandsValid a ∧ Only HandsValid (k r) := by
    intro hrouter hweb
    cases p with
    | ret c => exact body_valid (hready c rfl) hrouter hweb hnext fun topic htopic => hok c topic hrunning htopic
    | act a' k' =>
      have hnext : Program.act a' k' = .act a k := hnext
      have hprogram := h.threads i _ hrunning hrouter hweb
      rw [hnext] at hprogram
      exact ⟨hprogram.of_act.1, hprogram.of_act.2 r⟩
  have hhands : HandsValid a := handsValid_of_allows hallows h fun hrouter hweb => (hturn hrouter hweb).1
  obtain ⟨hperformed, hdatabase, -⟩ := node_performed hperform
  constructor
  · intro j q hq hrouter hweb
    rw [hthread] at hq
    by_cases hj : j = i
    · subst hj
      rw [Function.update_self] at hq
      cases hq
      exact (hturn hrouter hweb).2
    · rw [Function.update_of_ne hj] at hq
      exact h.threads j q hq hrouter hweb
  · intro sender topic hholds
    rw [phases, Observer.ghosts_act] at hholds
    cases hholds.of_act hallows hperform with
    | inl hold => exact h.held sender topic hold
    | inr hnew => exact hhands topic (handedTopic_of_introduces hnew.2)
  · intro topic message hlookup
    rw [hperformed.broker] at hlookup
    cases retained_of_act hlookup with
    | inl hold => exact h.retained topic message hold
    | inr hnew => exact hhands topic hnew
  · intro sender topic payload qos hevent
    rw [hperformed.events] at hevent
    cases saving_of_act hevent with
    | inl hold => exact h.saving sender topic payload qos hold
    | inr hnew =>
      obtain ⟨rfl, -⟩ := hnew
      exact hhands topic rfl
  · rw [hdatabase]
    exact h.rows
  · intro life a' r' topic hevent hdelivers
    rcases List.mem_append.mp hevent with hold | hnew
    · exact h.routed life a' r' topic hold hdelivers
    · cases List.mem_singleton.mp hnew
      obtain ⟨sender, payload, hcarried⟩ := router_delivers hallows hdelivers
      exact h.held sender topic (.carried hcarried)

theorem row_of_execute {db : Database} {source : ThreadId} {event : PersistEvent} {topic : String} {row : RetainedRow}
    (h : (db.execute source event).retainedMessages.lookup topic = some row) :
    db.retainedMessages.lookup topic = some row ∨ ∃ payload qos, event = .SaveRetained topic payload qos := by
  cases event with
  | SaveRetained topic' payload qos =>
    cases DashMap.lookup_insert_eq_some.mp h with
    | inl hnew =>
      obtain ⟨rfl, -⟩ := hnew
      exact .inr ⟨payload, qos, rfl⟩
    | inr hold => exact .inl hold.2
  | RemoveRetained topic' => exact .inl (DashMap.lookup_erase_eq_some.mp h).2
  | _ => exact .inl h

theorem row_of_commit {events : List (ThreadId × PersistEvent)} {db : Database} {topic : String} {row : RetainedRow}
    (h : (events.foldl (fun db event => db.execute event.1 event.2) db).retainedMessages.lookup topic = some row) :
    db.retainedMessages.lookup topic = some row ∨ ∃ sender payload qos, (sender, .SaveRetained topic payload qos) ∈ events := by
  induction events generalizing db with
  | nil => exact .inl h
  | cons event events ih =>
    rcases ih h with hdb | ⟨sender, payload, qos, hmem⟩
    · rcases row_of_execute hdb with hold | ⟨payload, qos, hevent⟩
      · exact .inl hold
      · refine .inr ⟨event.1, payload, qos, ?_⟩
        rw [← hevent]
        exact List.mem_cons_self
    · exact .inr ⟨sender, payload, qos, List.mem_cons_of_mem _ hmem⟩

theorem TopicsValid.world {w : WorldStep} {ends : Bool} (hworld : cfg.shared.world w = some (cfg'.shared, ends))
    (hthread : ∀ j q, cfg'.thread j = .running q → cfg.thread j = .running q) (h : TopicsValid settings evs cfg) :
    TopicsValid settings (evs ++ [.world w]) cfg' := by
  constructor
  · exact fun j q hq hrouter hweb => h.threads j q (hthread j q hq) hrouter hweb
  · intro sender topic hholds
    rw [phases, Observer.ghosts_world] at hholds
    exact h.held sender topic (hholds.of_world hworld)
  · intro topic message hlookup
    cases w with
    | commit n =>
      obtain ⟨heq, -⟩ := Prod.mk.inj (Option.some.inj hworld)
      rw [← heq] at hlookup
      exact h.retained topic message hlookup
    | restart =>
      obtain ⟨heq, -⟩ := Prod.mk.inj (Option.some.inj hworld)
      have hretained : cfg'.shared.shared.broker.retained = cfg.shared.database.restore.retained := by
        rw [← heq]
        exact (startupCleanup_frame _).retained
      rw [hretained, restore_retained] at hlookup
      obtain ⟨row, hrow, -⟩ := Option.map_eq_some_iff.mp hlookup
      exact h.rows topic row hrow
  · intro sender topic payload qos hevent
    cases w with
    | commit n =>
      obtain ⟨heq, -⟩ := Prod.mk.inj (Option.some.inj hworld)
      rw [← heq] at hevent
      exact h.saving sender topic payload qos (List.mem_of_mem_drop hevent)
    | restart =>
      obtain ⟨heq, -⟩ := Prod.mk.inj (Option.some.inj hworld)
      rw [← heq] at hevent
      obtain ⟨event, hmem, hsame⟩ := List.mem_map.mp hevent
      obtain ⟨clientId, rfl | rfl⟩ := startupCleanup_events hmem <;> cases hsame
  · intro topic row hrow
    cases w with
    | commit n =>
      obtain ⟨heq, -⟩ := Prod.mk.inj (Option.some.inj hworld)
      rw [← heq] at hrow
      rcases row_of_commit hrow with hold | ⟨sender, payload, qos, hmem⟩
      · exact h.rows topic row hold
      · exact h.saving sender topic payload qos (List.mem_of_mem_take hmem)
    | restart =>
      obtain ⟨heq, -⟩ := Prod.mk.inj (Option.some.inj hworld)
      rw [← heq] at hrow
      exact h.rows topic row hrow
  · intro life a r topic hevent
    rcases List.mem_append.mp hevent with hold | hnew
    · exact h.routed life a r topic hold
    · cases List.mem_singleton.mp hnew

theorem topicsValid_initial : TopicsValid settings [] initial := by
  constructor
  · exact fun _ _ hq => by cases hq
  · exact fun _ _ hholds => (holds_initial hholds).elim
  · exact fun _ _ hlookup => by cases hlookup
  · exact fun _ _ _ _ hevent => absurd hevent List.not_mem_nil
  · exact fun _ _ hrow => by cases hrow
  · exact fun _ _ _ _ hevent => absurd hevent List.not_mem_nil

theorem topicsValid_of_run (hrun : (brokerSystem settings).RunWhere (fun _ cfg e _ => IncomingValid settings cfg e)
    initial evs cfg) : TopicsValid settings evs cfg := by
  induction hrun with
  | nil => exact topicsValid_initial
  | @snoc evs cfg cfg' e run step ok ih =>
    cases step with
    | @spawn i c hfresh hstart =>
      have hphases : phases settings (evs ++ [.spawn i c]) = phases settings evs :=
        Observer.ghosts_spawn (fun _ _ => rfl) run hfresh
      obtain ⟨hthreads, hheld, hretained, hsaving, hrows, hrouted⟩ := ih
      refine ⟨?_, by rwa [hphases], hretained, hsaving, hrows, ?_⟩
      · intro j q hq hrouter hweb
        by_cases hj : j = i
        · subst hj
          change Function.update cfg.thread j _ j = _ at hq
          rw [Function.update_self] at hq
          cases hq
          exact .ret c
        · change Function.update cfg.thread i _ j = _ at hq
          rw [Function.update_of_ne hj] at hq
          exact hthreads j q hq hrouter hweb
      · intro life a r topic hevent
        rcases List.mem_append.mp hevent with hold | hnew
        · exact hrouted life a r topic hold
        · cases List.mem_singleton.mp hnew
    | @act i p a k input s r hrunning hnext hperform =>
      have hallows : allows settings i (phases settings evs i) a := (covers settings).allows (fun _ => rfl) run hrunning hnext
      have hready : ∀ c, p = .ret c → ready i (phases settings evs i) c := by
        rintro c rfl
        have hmeets : Meets (monitor settings i) (ready i) (phases settings evs i) (.ret c) :=
          (covers settings).meets (fun _ => rfl) run hrunning
        exact hmeets.of_ret
      exact ih.act hrunning hnext hready hallows hperform rfl ok
    | @world w s ends hworld =>
      refine ih.world hworld ?_
      intro j q hq
      cases ends with
      | false => exact hq
      | true =>
        have hended : (cfg.thread j).ended = .running q := hq
        cases hj : cfg.thread j <;> simp [hj, Thread.ended] at hended

end

/-- What the router forwards or retains, and the keys of the retained messages: in the state that is reached, and in
    what has led to it. -/
structure OnlyValidTopics (evs : List BrokerEvent) (cfg : BrokerConfigState) : Prop where
  forwarded : ∀ life a r topic, .act (.router life) a r ∈ evs → Delivers topic (.router life) a →
    TopicName.isValid topic = true
  retained : ∀ topic message, cfg.shared.shared.broker.retained.lookup topic = some message →
    TopicName.isValid topic = true

/-- Only valid topics circulate, over any number of restarts, if every topic that comes in is valid: those of the
    published messages that the rules allow, of the wills of accepted CONNECTs over TCP, and of the requests. -/
theorem onlyValidTopics {settings : Settings} {evs : List BrokerEvent} {cfg : BrokerConfigState}
    (hrun : (brokerSystem settings).RunWhere (fun _ cfg e _ => IncomingValid settings cfg e) initial evs cfg) :
    OnlyValidTopics evs cfg :=
  ⟨(topicsValid_of_run hrun).routed, (topicsValid_of_run hrun).retained⟩

def incomingValid (settings : Settings) (cfg : BrokerConfigState) : BrokerEvent → Bool
  | .act i a r =>
    match cfg.thread i with
    | .running (.ret c) => (incomingTopic settings c a r).all TopicName.isValid
    | _ => true
  | _ => true

theorem incomingValid_sound {settings : Settings} {cfg : BrokerConfigState} {e : BrokerEvent}
    (h : incomingValid settings cfg e = true) : IncomingValid settings cfg e := by
  cases e with
  | act i a r =>
    intro c topic hthread htopic
    rw [incomingValid, hthread] at h
    simpa [htopic] using h
  | spawn i c => trivial
  | world w => trivial

def retainMoves (topic : String) : List BrokerMove :=
  [.spawn (.router 0) .router, .spawn (.connection 0) .tcp,
    .act (.connection 0) (.received (.data (sentBytes (.V311 (.Connect (plainConnectV3 "c" true none))))))] ++
  turns (.connection 0) 8 ++
  [.act (.connection 0) (.received (.data (sentBytes (.V311 (.Publish
    { topic, payload := [0x78], qos := .AtMostOnce, retain := true, packetId := none })))))] ++
  turns (.connection 0) 6 ++ turns (.router 0) 4

theorem onlyValidTopics_retained : ∃ evs cfg, (brokerSystem openSettings).Run initial evs cfg ∧
    (cfg.shared.shared.broker.retained.lookup "a/b").isSome ∧ OnlyValidTopics evs cfg := by
  have hrun : ((brokerSystem openSettings).execWhere (fun _ cfg e _ => incomingValid openSettings cfg e) [] initial
      (retainMoves "a/b")).map (fun r => (r.2.shared.shared.broker.retained.lookup "a/b").isSome) = some true := by
    decide +kernel
  obtain ⟨⟨evs, cfg⟩, hexec, heq⟩ := Option.map_eq_some_iff.mp hrun
  have hwhere : (brokerSystem openSettings).RunWhere (fun _ cfg e _ => IncomingValid openSettings cfg e) initial evs cfg :=
    System.execWhere_run _ (fun _ _ _ _ h => incomingValid_sound h) .nil hexec
  exact ⟨evs, cfg, System.execWhere_run _ (fun _ _ _ _ _ => trivial) .nil hexec, heq, onlyValidTopics hwhere⟩

/-- A PUBLISH under a filter is retained under it. -/
theorem onlyValidTopics_fails : ¬ ∀ evs cfg, (brokerSystem openSettings).Run initial evs cfg → OnlyValidTopics evs cfg := by
  intro hall
  have hrun : (execute openSettings (retainMoves "a/+")).map
      (fun r => (r.2.shared.shared.broker.retained.lookup "a/+").isSome) = some true := by decide +kernel
  obtain ⟨⟨evs, cfg⟩, hexec, heq⟩ := Option.map_eq_some_iff.mp hrun
  obtain ⟨message, hmessage⟩ := Option.isSome_iff_exists.mp heq
  have hvalid := (hall evs cfg (execute_run hexec)).retained "a/+" message hmessage
  exact absurd hvalid (by decide)

end AtomMqtt
