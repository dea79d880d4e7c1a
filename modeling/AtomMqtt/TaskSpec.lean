import AtomMqtt.BrokerSystem

set_option autoImplicit false

/-! What each task may do. A monitor follows each task: the session that a connection has registered, its will,
the retained messages it has read, and the message that the router works on. It says which actions on the shared
state are allowed then; the handlers and the router keep to it. -/
namespace AtomMqtt
open Programs

/-- What a task has done so far. -/
structure Phase where
  session : Option SessionState
  left : Bool
  will : Option WillMessage
  items : List RetainedMessage
  message : Option (ThreadId × BrokerMessage)
  taken : Option (ThreadId × WillMessage)
  settled : Bool

def Phase.start : Phase :=
  { session := none, left := false, will := none, items := [], message := none, taken := none, settled := true }

namespace Phase

def next (g : Phase) : (a : Action) → Reply a → Phase
  | .sessionsInsert _ session, _ => { g with session := some session }
  | .willsInsert _ will, _ => { g with will := some will }
  | .retainedIter, items => { g with items := items }
  | .sendRouter (.ClientDisconnected _ _), _ => { g with left := true }
  | .recvRouter, sent => { g with message := some sent, taken := none, settled := false }
  | .willsRemove _, will => { g with taken := will }
  | .sessionsRemove _, _ => { g with settled := true }
  | .sessionsSetDisconnected _, _ => { g with settled := true }
  | _, _ => g

/-- The application message that the router passes on, with the task that it comes from: the published
    message itself, or the will of the client that has left. -/
def carried (g : Phase) : Option (ThreadId × String × Bytes) :=
  match g.message with
  | some (sender, .Publish topic payload _ _ _) => some (sender, topic, payload)
  | some (_, .ClientDisconnected _ _) => g.taken.map fun (sender, will) => (sender, will.topic, will.payload)
  | none => none

def Dismisses (g : Phase) (clientId : String) : Prop :=
  ∃ sender cleanSession, g.message = some (sender, .ClientDisconnected clientId cleanSession)

/-- The session of the client whose disconnection was taken last is marked or removed. -/
def Idle (g : Phase) : Prop := ∀ clientId, g.Dismisses clientId → g.settled = true

/-- The task has registered this session and has not left. -/
def Owns (g : Phase) (session : SessionState) : Prop := g.session = some session ∧ g.left = false

end Phase

def SessionState.user (session : SessionState) : String := session.username.getD "anonymous"

def routerAllows (g : Phase) : Action → Prop
  | .recvRouter => g.Idle
  | .willsRemove clientId | .unsubscribeAll clientId | .sessionsRemove clientId
  | .sessionsSetDisconnected clientId => g.Dismisses clientId
  | .forward _ packet =>
    ∃ sender topic payload retain, g.carried = some (sender, topic, payload) ∧
      packet = publishPacket topic payload retain
  | .forwardWeb _ (.Publish topic payload _ _) | .forwardWeb _ (.Will topic payload _ _) =>
    ∃ sender, g.carried = some (sender, topic, payload)
  | .retainedInsert topic message => message.topic = topic ∧ ∃ sender, g.carried = some (sender, topic, message.payload)
  | .lookup _ | .metrics _ | .syncSubscriptionsActive => True
  | .sendEvent (.RemoveWill _) | .sendEvent (.RemoveClientSubscriptions _) | .sendEvent (.RemoveSession _) => True
  | _ => False

def connectionAllows (settings : Settings) (g : Phase) : Action → Prop
  | .sessionsInsert clientId session =>
    g.session = none ∧ session.clientId = clientId ∧ session.connected = true ∧ session.username.isSome = true
  | .willsInsert clientId _ | .willsRemove clientId | .connectionsInsert clientId | .connectionsRemove clientId
  | .unsubscribe clientId _ => ∃ session, g.Owns session ∧ session.clientId = clientId
  | .subscribe clientId filter _ =>
    ∃ session, g.Owns session ∧ session.clientId = clientId ∧
      settings.acl.authorizeSubscribe session.user filter = true
  | .retainedInsert topic message =>
    message.topic = topic ∧ ∃ session, g.Owns session ∧ settings.acl.authorizePublish session.user topic = true
  | .sendRouter (.Publish topic _ _ _ sourceClient) =>
    ∃ session, g.Owns session ∧ session.clientId = sourceClient ∧
      settings.acl.authorizePublish session.user topic = true
  | .sendRouter (.ClientDisconnected clientId cleanSession) =>
    ∃ session, g.Owns session ∧ session.clientId = clientId ∧ session.cleanSession = cleanSession
  | .forward clientId packet =>
    ∃ session, g.Owns session ∧ session.clientId = clientId ∧
      ∃ item ∈ g.items, packet = publishPacket item.topic item.payload true
  | .sendEvent (.SaveWill clientId topic _ _ _ _) => ∃ will, g.will = some will ∧ will.clientId = clientId ∧ will.topic = topic
  | .sessionsRemove _ | .unsubscribeAll _ | .recvRouter | .forwardWeb _ _ | .webSubscribersInsert _
  | .webSubscribersRemove _ => False
  | _ => True

def webAllows : Action → Prop
  | .subscribe _ _ _ | .unsubscribe _ _ | .webSubscribersContains _ | .webSubscribersInsert _
  | .webSubscribersRemove _ | .selectWeb | .pong _ | .text _ | .dropReceiver => True
  | _ => False

def requestAllows : Action → Prop
  | .sendRouter (.Publish _ _ _ _ sourceClient) => sourceClient = "web-ui"
  | .retainedInsert _ _ | .retainedContains _ | .retainedRemove _ | .sendEvent (.RemoveRetained _)
  | .sessionsSetDisconnected _ | .metrics _ | .lookup _ | .dropReceiver => True
  | _ => False

def allows (settings : Settings) : ThreadId → Phase → Action → Prop
  | .router _, g, a => routerAllows g a
  | .connection _, g, a => connectionAllows settings g a
  | .web _, _, a => webAllows a
  | .request _, _, a => requestAllows a

def monitor (settings : Settings) (i : ThreadId) : Monitor Action Reply Phase where
  allows := allows settings i
  next := Phase.next

def observer (settings : Settings) : Observer ThreadId Action Reply Control Phase where
  monitor := monitor settings
  begin := fun _ _ => Phase.start

def ConnLoop.Of (l : ConnLoop) (session : SessionState) : Prop :=
  session.clientId = l.clientId ∧ session.cleanSession = l.cleanSession ∧ session.username = l.username

def ready : ThreadId → Phase → Control → Prop
  | .router _, g, .router => g.Idle
  | .connection _, g, .tcp => g.session = none ∧ g.left = false
  | .connection _, g, .ws _ => g.session = none ∧ g.left = false
  | .connection _, g, .tcpLoop l => ∃ session, g.Owns session ∧ l.Of session
  | .connection _, g, .wsLoop l => ∃ session, g.Owns session ∧ l.Of session
  | .connection _, g, .wsLost l => ∃ session, g.Owns session ∧ l.Of session
  | .web _, _, .webSession _ _ => True
  | .request _, _, .publishRequest _ _ _ _ => True
  | .request _, _, .deleteRetainedRequest _ => True
  | .request _, _, .disconnectRequest _ => True
  | .router _, _, .exited _ => False
  | _, _, .exited _ => True
  | _, _, _ => False

section
variable {settings : Settings} {i : ThreadId} {α : Type} {Q : Phase → α → Prop} {g : Phase}

theorem meets_run {a : Action} {f : Unit → Broker α} (hallows : allows settings i g a)
    (h : ∀ r, Meets (monitor settings i) Q (g.next a r) (f ())) : Meets (monitor settings i) Q g (run a >>= f) :=
  .act hallows h

theorem meets_run_last {a : Action} {Q : Phase → Unit → Prop} (hallows : allows settings i g a)
    (h : ∀ r, Q (g.next a r) ()) : Meets (monitor settings i) Q g (run a) :=
  .act hallows fun r => .ret (h r)

theorem meets_ask {a : Action} {f : Reply a → Broker α} (hallows : allows settings i g a)
    (h : ∀ r, Meets (monitor settings i) Q (g.next a r) (f r)) : Meets (monitor settings i) Q g (ask a >>= f) :=
  .act hallows h

theorem meets_when {c : Bool} {a : Action} (hallows : allows settings i g a) {Q : Phase → Unit → Prop}
    (hdone : ∀ r, Q (g.next a r) ()) (hnot : Q g ()) :
    Meets (monitor settings i) Q g (if c then run a else pure ()) := by
  cases c with
  | true => exact meets_run_last hallows hdone
  | false => exact .ret hnot

theorem meets_forM_run {γ : Type} {xs : List γ} {a : γ → Action} {f : PUnit → Broker α}
    (hallows : ∀ x ∈ xs, allows settings i g (a x)) (hnext : ∀ x r, g.next (a x) r = g)
    (h : Meets (monitor settings i) Q g (f ⟨⟩)) :
    Meets (monitor settings i) Q g ((xs.forM fun x => run (a x)) >>= f) := by
  have hloop : Meets (monitor settings i) (fun g' _ => g' = g) g (xs.forM fun x => run (a x)) := by
    apply Meets.forM (I := fun g' => g' = g) rfl
    intro x hx g' hg'
    subst hg'
    exact meets_run_last (hallows x hx) (hnext x)
  apply Meets.seq hloop
  intro g' _ hg'
  subst hg'
  exact h

end

section
variable {settings : Settings} {life : ℕ} {g : Phase}

theorem routePublish_meets {topic : String} {payload : Bytes} {qos : QoS} {retain : Bool} {sourceClient : String}
    {sender : ThreadId} (hmessage : g.message = some (sender, .Publish topic payload qos retain sourceClient)) :
    Meets (monitor settings (.router life)) (fun g' _ => g'.Idle) g
      (routePublish topic payload qos retain sourceClient) := by
  have hcarried : g.carried = some (sender, topic, payload) := by
    rw [Phase.carried, hmessage]
  have hidle : g.Idle := by
    intro clientId hdismisses
    obtain ⟨_, _, h⟩ := hdismisses
    rw [hmessage] at h
    cases h
  unfold routePublish
  apply meets_ask
  · trivial
  intro subscribers
  apply meets_run
  · trivial
  intro _
  apply meets_forM_run
  · intro sub _
    exact ⟨sender, topic, payload, false, hcarried, rfl⟩
  · intro _ _
    rfl
  apply meets_forM_run
  · intro sub _
    exact ⟨sender, hcarried⟩
  · intro _ _
    rfl
  cases retain with
  | true => exact meets_run_last ⟨rfl, sender, hcarried⟩ fun _ => hidle
  | false => exact .ret hidle

theorem deliverWill_meets {clientId : String} {cleanSession : Bool} {sender source : ThreadId} {will : WillMessage}
    (hmessage : g.message = some (source, .ClientDisconnected clientId cleanSession))
    (htaken : g.taken = some (sender, will)) :
    Meets (monitor settings (.router life)) (fun g' _ => g' = g) g (deliverWill clientId will) := by
  have hcarried : g.carried = some (sender, will.topic, will.payload) := by
    rw [Phase.carried, hmessage, htaken]
    rfl
  unfold deliverWill
  apply meets_ask
  · trivial
  intro subscribers
  apply meets_forM_run
  · intro sub _
    exact ⟨sender, will.topic, will.payload, will.retain, hcarried, rfl⟩
  · intro _ _
    rfl
  apply meets_forM_run
  · intro sub _
    exact ⟨sender, hcarried⟩
  · intro _ _
    rfl
  cases will.retain with
  | true =>
    apply meets_run
    · exact ⟨rfl, sender, hcarried⟩
    intro _
    exact meets_run_last trivial fun _ => rfl
  | false => exact meets_run_last trivial fun _ => rfl

theorem routeDisconnected_meets {clientId : String} {cleanSession : Bool} {source : ThreadId}
    (hmessage : g.message = some (source, .ClientDisconnected clientId cleanSession)) :
    Meets (monitor settings (.router life)) (fun g' _ => g'.Idle) g (routeDisconnected clientId cleanSession) := by
  have hdismisses : g.Dismisses clientId := ⟨source, cleanSession, hmessage⟩
  have hafter : ∀ g' : Phase, g'.message = g.message → Meets (monitor settings (.router life))
      (fun g'' _ => g''.Idle) g' (if cleanSession = true then do
        run (.unsubscribeAll clientId)
        sendEvent (.RemoveClientSubscriptions clientId)
        run (.sessionsRemove clientId)
        sendEvent (.RemoveSession clientId)
        run .syncSubscriptionsActive
      else run (.sessionsSetDisconnected clientId)) := by
    intro g' hg'
    have hdismisses' : g'.Dismisses clientId := by
      rw [Phase.Dismisses, hg']
      exact hdismisses
    cases cleanSession with
    | true =>
      apply meets_run
      · exact hdismisses'
      intro _
      apply meets_run
      · trivial
      intro _
      apply meets_run
      · exact hdismisses'
      intro _
      apply meets_run
      · trivial
      intro _
      exact meets_run_last trivial fun _ _ _ => rfl
    | false => exact meets_run_last hdismisses' fun _ _ _ => rfl
  unfold routeDisconnected
  apply meets_ask
  · exact hdismisses
  intro will
  cases will with
  | none => exact hafter _ rfl
  | some sent =>
    obtain ⟨sender, will⟩ := sent
    apply Meets.seq (deliverWill_meets (g := g.next (.willsRemove clientId) (some (sender, will))) hmessage rfl)
    intro g' _ hg'
    subst hg'
    exact hafter _ rfl

theorem routeMessage_meets {source : ThreadId} {message : BrokerMessage} (hmessage : g.message = some (source, message)) :
    Meets (monitor settings (.router life)) (fun g' _ => g'.Idle) g (routeMessage message) := by
  cases message with
  | Publish topic payload qos retain sourceClient => exact routePublish_meets hmessage
  | ClientDisconnected clientId cleanSession => exact routeDisconnected_meets hmessage

theorem routerLoop_meets (hidle : g.Idle) :
    Meets (monitor settings (.router life)) (ready (.router life)) g routerLoop := by
  apply meets_ask
  · exact hidle
  intro sent
  obtain ⟨source, message⟩ := sent
  apply Meets.seq (routeMessage_meets rfl)
  intro g' _ hg'
  exact .ret hg'

end

section
variable {settings : Settings} {k : ConnId} {session : SessionState} {g : Phase}

theorem acceptPublish_meets {topic : String} {payload : Bytes} {qos : QoS} {retain : Bool} (howns : g.Owns session)
    (hacl : settings.acl.authorizePublish session.user topic = true) :
    Meets (monitor settings (.connection k)) (fun g' _ => g' = g) g
      (acceptPublish session.clientId topic payload qos retain) := by
  unfold acceptPublish
  apply meets_run
  · exact ⟨session, howns, rfl, hacl⟩
  intro _
  cases retain with
  | false => exact .ret rfl
  | true =>
    cases payload.isEmpty with
    | true =>
      apply meets_run
      · trivial
      intro _
      exact meets_run_last trivial fun _ => rfl
    | false =>
      apply meets_run
      · exact ⟨rfl, session, howns, hacl⟩
      intro _
      exact meets_run_last trivial fun _ => rfl

theorem replayRetained_meets {filter : String} (howns : g.Owns session) :
    Meets (monitor settings (.connection k)) (fun g' _ => g'.Owns session) g
      (replayRetained session.clientId filter) := by
  unfold replayRetained
  apply meets_ask
  · trivial
  intro items
  apply Meets.mono (Q := fun g' _ => g' = g.next .retainedIter items)
  · apply Meets.forM (I := fun g' : Phase => g' = g.next .retainedIter items) rfl
    intro item hitem g' hg'
    subst hg'
    apply meets_when
    · exact ⟨session, howns, rfl, item, hitem, rfl⟩
    · intro _
      rfl
    · rfl
  intro g' _ hg'
  subst hg'
  exact howns

theorem acceptSubscription_meets {filter : String} {qos : QoS} (howns : g.Owns session)
    (hacl : settings.acl.authorizeSubscribe session.user filter = true) :
    Meets (monitor settings (.connection k)) (fun g' _ => g'.Owns session) g
      (acceptSubscription session.clientId filter qos) := by
  unfold acceptSubscription
  apply meets_run
  · exact ⟨session, howns, rfl, hacl⟩
  intro _
  apply meets_run
  · trivial
  intro _
  exact replayRetained_meets howns

theorem removeSubscriptions_meets {filters : List String} (howns : g.Owns session) :
    Meets (monitor settings (.connection k)) (fun g' _ => g' = g) g
      (removeSubscriptions session.clientId filters) := by
  unfold removeSubscriptions
  have hloop : Meets (monitor settings (.connection k)) (fun g' _ => g' = g) g (filters.forM fun filter => do
      run (.unsubscribe session.clientId filter)
      sendEvent (.RemoveSubscription session.clientId filter)) := by
    apply Meets.forM (I := fun g' => g' = g) rfl
    intro filter _ g' hg'
    subst hg'
    apply meets_run
    · exact ⟨session, howns, rfl⟩
    intro _
    exact meets_run_last trivial fun _ => rfl
  apply hloop.seq
  intro g' _ hg'
  exact meets_run_last trivial fun _ => hg'

theorem subscribeFilters_meets {γ δ : Type} {filters : List γ} {path : γ → String} {qos : γ → QoS} {denied : δ}
    {granted : γ → δ} (howns : g.Owns session) :
    Meets (monitor settings (.connection k)) (fun g' _ => g'.Owns session) g (filters.mapM fun filter =>
      if !settings.acl.authorizeSubscribe session.user (path filter) then (return denied : Broker δ)
      else do
        acceptSubscription session.clientId (path filter) (qos filter)
        return granted filter) := by
  apply Meets.mapM (I := fun g' : Phase => g'.Owns session) howns
  intro filter _ g' howns'
  cases hacl : settings.acl.authorizeSubscribe session.user (path filter) with
  | false => exact .ret howns'
  | true =>
    apply (acceptSubscription_meets howns' hacl).seq
    intro g'' _ howns''
    exact .ret howns''

theorem processV3Packet_meets {packet : V3.MqttPacketV3} (howns : g.Owns session) :
    Meets (monitor settings (.connection k)) (fun g' _ => g'.Owns session) g
      (processV3Packet settings packet session.clientId session.user) := by
  cases packet with
  | Publish p =>
    unfold processV3Packet
    apply meets_run
    · trivial
    intro _
    apply meets_run
    · trivial
    intro _
    cases hacl : settings.acl.authorizePublish session.user p.topic with
    | false => exact .ret howns
    | true =>
      apply (acceptPublish_meets howns hacl).seq
      intro g' _ hg'
      subst hg'
      exact .ret howns
  | Subscribe p =>
    unfold processV3Packet
    apply (subscribeFilters_meets howns).seq
    intro g' _ howns'
    apply meets_run
    · trivial
    intro _
    exact .ret howns'
  | Unsubscribe p =>
    unfold processV3Packet
    apply (removeSubscriptions_meets howns).seq
    intro g' _ hg'
    subst hg'
    exact .ret howns
  | Disconnect =>
    unfold processV3Packet
    apply meets_run
    · trivial
    intro _
    apply meets_run
    · exact ⟨session, howns, rfl⟩
    intro _
    apply meets_run
    · trivial
    intro _
    exact .ret howns
  | _ => exact .ret howns

theorem processV5Packet_meets {packet : V5.MqttPacketV5} (howns : g.Owns session) :
    Meets (monitor settings (.connection k)) (fun g' _ => g'.Owns session) g
      (processV5Packet settings packet session.clientId session.user) := by
  cases packet with
  | Publish p =>
    unfold processV5Packet
    apply meets_run
    · trivial
    intro _
    apply meets_run
    · trivial
    intro _
    cases hacl : settings.acl.authorizePublish session.user p.topic with
    | false => exact .ret howns
    | true =>
      apply (acceptPublish_meets howns hacl).seq
      intro g' _ hg'
      subst hg'
      exact .ret howns
  | Subscribe p =>
    unfold processV5Packet
    apply (subscribeFilters_meets howns).seq
    intro g' _ howns'
    apply meets_run
    · trivial
    intro _
    exact .ret howns'
  | Unsubscribe p =>
    unfold processV5Packet
    apply (removeSubscriptions_meets howns).seq
    intro g' _ hg'
    subst hg'
    exact .ret howns
  | Disconnect p =>
    unfold processV5Packet
    apply meets_run
    · trivial
    intro _
    cases p.reasonCode != .DisconnectWithWillMessage with
    | false => exact .ret howns
    | true =>
      apply meets_run
      · exact ⟨session, howns, rfl⟩
      intro _
      apply meets_run
      · trivial
      intro _
      exact .ret howns
  | _ => exact .ret howns

theorem processPacket_meets {packet : MqttPacket} (howns : g.Owns session) :
    Meets (monitor settings (.connection k)) (fun g' _ => g'.Owns session) g
      (processPacket settings packet session.clientId session.user) := by
  cases packet with
  | V311 p => exact processV3Packet_meets howns
  | V5 p => exact processV5Packet_meets howns

end

section
variable {settings : Settings} {k : ConnId} {session : SessionState} {g : Phase}

theorem writePacket_meets {what : Outgoing} {packet : MqttPacket} :
    Meets (monitor settings (.connection k)) (fun g' _ => g' = g) g (writePacket what packet) := by
  unfold writePacket
  cases encodePacket packet with
  | error _ => exact .ret rfl
  | ok encoded =>
    apply meets_ask
    · trivial
    intro written
    cases written with
    | false => exact .ret rfl
    | true =>
      apply meets_run
      · trivial
      intro _
      apply meets_run
      · trivial
      intro _
      exact .ret rfl

theorem cleanup_meets {l : ConnLoop} (howns : g.Owns session) (hof : l.Of session) :
    Meets (monitor settings (.connection k)) (ready (.connection k)) g (cleanup l) := by
  unfold cleanup
  apply meets_run
  · exact ⟨session, howns, hof.1⟩
  intro _
  apply meets_run
  · trivial
  intro _
  apply meets_run
  · trivial
  intro _
  apply meets_run
  · exact ⟨session, howns, hof.1, hof.2.1⟩
  intro _
  exact .ret trivial

theorem handlePacket_meets {l : ConnLoop} {packet : MqttPacket} {size : ℕ} {again : ConnLoop → Control}
    (howns : g.Owns session) (hof : l.Of session)
    (hagain : ∀ g' l', g'.Owns session → l'.Of session → ready (.connection k) g' (again l')) :
    Meets (monitor settings (.connection k)) (ready (.connection k)) g
      (handlePacket settings l packet size again) := by
  have huser : l.username.getD "anonymous" = session.user := by
    rw [SessionState.user, hof.2.2]
  unfold handlePacket
  apply meets_run
  · trivial
  intro _
  simp only [huser, ← hof.1]
  apply (processPacket_meets howns).seq
  intro g' result howns'
  cases result with
  | error _ => exact .ret trivial
  | ok response =>
    cases response with
    | none => exact .ret (hagain g' _ howns' ⟨rfl, hof.2⟩)
    | some response =>
      apply writePacket_meets.seq
      intro g'' written hg''
      subst hg''
      cases written with
      | false => exact .ret trivial
      | true => exact .ret (hagain g'' _ howns' ⟨rfl, hof.2⟩)

theorem tcpLoop_meets {l : ConnLoop} (howns : g.Owns session) (hof : l.Of session) :
    Meets (monitor settings (.connection k)) (ready (.connection k)) g (tcpLoop settings l) := by
  unfold tcpLoop
  match decodePacketByVersion l.buf l.version with
  | .error _ => exact cleanup_meets howns hof
  | .ok (some (packet, size)) =>
    apply handlePacket_meets howns hof
    intro g' l' howns' hof'
    exact ⟨session, howns', hof'⟩
  | .ok none =>
    apply meets_ask
    · trivial
    intro event
    match event with
    | .received (.data bytes) => exact .ret ⟨session, howns, hof⟩
    | .received .closed => exact cleanup_meets howns hof
    | .received .failed => exact .ret trivial
    | .forwarded data =>
      apply meets_ask
      · trivial
      intro written
      cases written with
      | false => exact cleanup_meets howns hof
      | true =>
        apply meets_run
        · trivial
        intro _
        apply meets_run
        · trivial
        intro _
        exact .ret ⟨session, howns, hof⟩

theorem forwardWs_meets {l : ConnLoop} {data : Bytes} (howns : g.Owns session) (hof : l.Of session) :
    Meets (monitor settings (.connection k)) (ready (.connection k)) g (forwardWs l data) := by
  unfold forwardWs
  apply meets_ask
  · trivial
  intro written
  cases written with
  | false => exact cleanup_meets howns hof
  | true =>
    apply meets_run
    · trivial
    intro _
    exact .ret ⟨session, howns, hof⟩

theorem wsLoop_meets {l : ConnLoop} (howns : g.Owns session) (hof : l.Of session) :
    Meets (monitor settings (.connection k)) (ready (.connection k)) g (wsLoop settings l) := by
  unfold wsLoop
  match decodePacketByVersion l.buf l.version with
  | .error _ => exact cleanup_meets howns hof
  | .ok (some (packet, size)) =>
    apply handlePacket_meets howns hof
    intro g' l' howns' hof'
    exact ⟨session, howns', hof'⟩
  | .ok none =>
    apply meets_ask
    · trivial
    intro event
    match event with
    | .frame (.binary data) => exact .ret ⟨session, howns, hof⟩
    | .frame .close => exact cleanup_meets howns hof
    | .frame (.ping bytes) =>
      apply meets_run
      · trivial
      intro _
      exact .ret ⟨session, howns, hof⟩
    | .frame .pong => exact .ret ⟨session, howns, hof⟩
    | .frame .other => exact .ret ⟨session, howns, hof⟩
    | .lost => exact .ret ⟨session, howns, hof⟩
    | .forwarded data => exact forwardWs_meets howns hof

theorem wsLost_meets {l : ConnLoop} (howns : g.Owns session) (hof : l.Of session) :
    Meets (monitor settings (.connection k)) (ready (.connection k)) g (wsLost l) := by
  unfold wsLost
  apply meets_ask
  · trivial
  intro item
  match item with
  | some data => exact forwardWs_meets howns hof
  | none => exact cleanup_meets howns hof

theorem registerSession_meets {c : ConnectFields} {username : String} (hnone : g.session = none)
    (hleft : g.left = false) :
    Meets (monitor settings (.connection k))
      (fun g' id => g'.Owns (SessionState.new id c.version c.cleanSession c.keepAlive (some username))) g
      (registerSession c username) := by
  unfold registerSession
  have hrest : ∀ id, Meets (monitor settings (.connection k))
      (fun g' id => g'.Owns (SessionState.new id c.version c.cleanSession c.keepAlive (some username))) g (do
        run (.sessionsSetDisconnected id)
        run (.sessionsInsert id (SessionState.new id c.version c.cleanSession c.keepAlive (some username)))
        metrics .incrementClientsConnected
        return id) := by
    intro id
    apply meets_run
    · trivial
    intro _
    apply meets_run
    · exact ⟨hnone, rfl, rfl, rfl⟩
    intro _
    apply meets_run
    · trivial
    intro _
    exact .ret ⟨rfl, hleft⟩
  cases c.clientId.isEmpty with
  | true =>
    apply meets_ask
    · trivial
    intro id
    exact hrest id
  | false => exact hrest c.clientId

theorem storeWill_meets {clientId : String} {will : WillMessage} (howns : g.Owns session)
    (hclient : session.clientId = clientId) :
    Meets (monitor settings (.connection k)) (fun g' _ => g'.Owns session) g (storeWill clientId will) := by
  unfold storeWill
  apply meets_run
  · exact ⟨session, howns, hclient⟩
  intro _
  exact meets_run_last ⟨_, rfl, rfl, rfl⟩ fun _ => howns

theorem deniedConnack_meets {c : ConnectFields} {reason : AuthErrorKind} :
    Meets (monitor settings (.connection k)) (ready (.connection k)) g (do
      let sent ← writePacket .connack (deniedConnack c.version reason)
      return .exited sent) := by
  apply writePacket_meets.seq
  intro _ _ _
  exact .ret trivial

theorem enterTcpLoop_meets {readBuf : Bytes} {c : ConnectFields} {clientId username : String}
    (howns : g.Owns (SessionState.new clientId c.version c.cleanSession c.keepAlive (some username))) :
    Meets (monitor settings (.connection k)) (ready (.connection k)) g (enterTcpLoop readBuf c clientId username) := by
  unfold enterTcpLoop
  apply meets_run
  · trivial
  intro _
  apply writePacket_meets.seq
  intro g' written hg'
  subst hg'
  cases written with
  | false => exact .ret trivial
  | true =>
    apply meets_run
    · exact ⟨_, howns, rfl⟩
    intro _
    match V3.decodePacket readBuf with
    | .ok (some (_, consumed)) => exact .ret ⟨_, howns, rfl, rfl, rfl⟩
    | .ok none => exact .ret trivial
    | .error _ => exact .ret trivial

theorem acceptTcp_meets {readBuf : Bytes} {c : ConnectFields} (hnone : g.session = none) (hleft : g.left = false) :
    Meets (monitor settings (.connection k)) (ready (.connection k)) g (acceptTcp settings readBuf c) := by
  unfold acceptTcp
  cases settings.authenticator.authenticate settings.config.allowAnonymous c.username c.password with
  | Denied reason => exact deniedConnack_meets
  | Success username =>
    apply (registerSession_meets hnone hleft).seq
    intro g₁ clientId howns
    cases c.will with
    | none => exact enterTcpLoop_meets howns
    | some will =>
      apply (storeWill_meets howns rfl).seq
      intro g' _ howns'
      exact enterTcpLoop_meets howns'

theorem handleConnection_meets (hnone : g.session = none) (hleft : g.left = false) :
    Meets (monitor settings (.connection k)) (ready (.connection k)) g (handleConnection settings) := by
  unfold handleConnection
  apply meets_ask
  · trivial
  intro received
  match received with
  | .failed => exact .ret trivial
  | .closed => exact .ret trivial
  | .data readBuf =>
    match hfirst : decodeFirstPacket readBuf with
    | .error _ =>
      simp only [hfirst]
      exact .ret trivial
    | .ok none =>
      simp only [hfirst]
      exact .ret trivial
    | .ok (some packet) =>
      simp only [hfirst]
      cases connectFields packet with
      | none => exact .ret trivial
      | some c => exact acceptTcp_meets hnone hleft

theorem acceptWs_meets {buf : Bytes} {c : ConnectFields} (hnone : g.session = none) (hleft : g.left = false) :
    Meets (monitor settings (.connection k)) (ready (.connection k)) g (acceptWs settings buf c) := by
  unfold acceptWs
  cases settings.authenticator.authenticate settings.config.allowAnonymous c.username c.password with
  | Denied reason => exact deniedConnack_meets
  | Success username =>
    apply (registerSession_meets hnone hleft).seq
    intro g₁ clientId howns
    apply meets_run
    · trivial
    intro _
    apply writePacket_meets.seq
    intro g₂ written hg₂
    subst hg₂
    cases written with
    | false => exact .ret trivial
    | true =>
      simp only [if_true]
      split
      · apply meets_run
        · exact ⟨_, howns, rfl⟩
        intro _
        exact .ret ⟨_, howns, rfl, rfl, rfl⟩
      · exact .ret trivial

theorem handleWsMqttSession_meets {buf : Bytes} (hnone : g.session = none) (hleft : g.left = false) :
    Meets (monitor settings (.connection k)) (ready (.connection k)) g (handleWsMqttSession settings buf) := by
  unfold handleWsMqttSession
  apply meets_ask
  · trivial
  intro item
  match item with
  | .failed => exact .ret trivial
  | .ended => exact .ret trivial
  | .frame .close => exact .ret trivial
  | .frame (.ping bytes) =>
    apply meets_run
    · trivial
    intro _
    exact .ret ⟨hnone, hleft⟩
  | .frame .pong => exact .ret ⟨hnone, hleft⟩
  | .frame .other => exact .ret ⟨hnone, hleft⟩
  | .frame (.binary data) =>
    match hfirst : decodeFirstPacket (buf ++ data) with
    | .error _ =>
      simp only [hfirst]
      exact .ret trivial
    | .ok none =>
      simp only [hfirst]
      exact .ret ⟨hnone, hleft⟩
    | .ok (some packet) =>
      simp only [hfirst]
      unfold handleConnectAfterDecode
      cases connectFields packet with
      | none => exact .ret trivial
      | some c => exact acceptWs_meets hnone hleft

end

section
variable {settings : Settings} {k : WebId} {n : ℕ} {g : Phase} {subscriberId : String}
  {activeSubscriptions : List String}

theorem webCleanup_meets : Meets (monitor settings (.web k)) (ready (.web k)) g
    (webCleanup subscriberId activeSubscriptions) := by
  unfold webCleanup
  apply meets_forM_run
  · intro _ _
    trivial
  · intro _ _
    rfl
  apply meets_run
  · trivial
  intro _
  exact .ret trivial

theorem webSubscribe_meets {topicFilter : String} {qosVal : ℕ} : Meets (monitor settings (.web k)) (ready (.web k)) g
    (webSubscribe subscriberId activeSubscriptions topicFilter qosVal) := by
  unfold webSubscribe
  cases topicFilter.isEmpty with
  | true =>
    apply meets_run (a := .text (.Error "topic_filter required"))
    · trivial
    intro _
    exact .ret trivial
  | false =>
    apply meets_run (a := .subscribe subscriberId topicFilter _)
    · trivial
    intro _
    apply meets_ask
    · trivial
    intro contained
    cases contained with
    | true =>
      apply meets_run
      · trivial
      intro _
      exact .ret trivial
    | false =>
      apply meets_run
      · trivial
      intro _
      apply meets_run
      · trivial
      intro _
      exact .ret trivial

theorem webUnsubscribe_meets {topicFilter : String} : Meets (monitor settings (.web k)) (ready (.web k)) g
    (webUnsubscribe subscriberId activeSubscriptions topicFilter) := by
  unfold webUnsubscribe
  cases topicFilter.isEmpty with
  | true => exact .ret trivial
  | false =>
    apply meets_run
    · trivial
    intro _
    apply meets_run
    · trivial
    intro _
    exact .ret trivial

theorem webText_meets {message : WebMessage} : Meets (monitor settings (.web k)) (ready (.web k)) g (do
    run (.text message)
    return .webSession subscriberId activeSubscriptions) := by
  apply meets_run
  · trivial
  intro _
  exact .ret trivial

theorem webCommand_meets {command : WebCommand} : Meets (monitor settings (.web k)) (ready (.web k)) g
    (webCommand subscriberId activeSubscriptions command) := by
  cases command with
  | subscribe topicFilter qosVal => exact webSubscribe_meets
  | unsubscribe topicFilter => exact webUnsubscribe_meets
  | _ => exact webText_meets

theorem handleWsSession_meets : Meets (monitor settings (.web k)) (ready (.web k)) g
    (handleWsSession subscriberId activeSubscriptions) := by
  unfold handleWsSession
  apply meets_ask
  · trivial
  intro event
  match event with
  | .frame (.text command) => exact webCommand_meets
  | .frame (.ping bytes) =>
    apply meets_run
    · trivial
    intro _
    exact .ret trivial
  | .frame .close => exact webCleanup_meets
  | .frame .other => exact .ret trivial
  | .closed => exact webCleanup_meets
  | .forwarded message =>
    apply meets_ask
    · trivial
    intro sent
    cases sent with
    | true => exact .ret trivial
    | false => exact webCleanup_meets

theorem publishMessage_meets {topic payload : String} {qos : UInt8} {retain : Bool} :
    Meets (monitor settings (.request n)) (ready (.request n)) g (publishMessage topic payload qos retain) := by
  unfold publishMessage
  have hend : ∀ g', Meets (monitor settings (.request n)) (ready (.request n)) g' (do
      metrics .incrementMessagesPublished
      run (.lookup topic)
      return .exited true) := by
    intro g'
    apply meets_run
    · trivial
    intro _
    apply meets_run
    · trivial
    intro _
    exact .ret trivial
  apply meets_run
  · exact rfl
  intro _
  cases retain && !payload.isEmpty with
  | false => exact hend _
  | true =>
    apply meets_run
    · trivial
    intro _
    exact hend _

theorem deleteRetainedMessage_meets {topic : String} :
    Meets (monitor settings (.request n)) (ready (.request n)) g (deleteRetainedMessage topic) := by
  unfold deleteRetainedMessage
  apply meets_ask
  · trivial
  intro contained
  cases contained with
  | false => exact .ret trivial
  | true =>
    apply meets_run
    · trivial
    intro _
    apply meets_run
    · trivial
    intro _
    exact .ret trivial

theorem disconnectClient_meets {clientId : String} :
    Meets (monitor settings (.request n)) (ready (.request n)) g (disconnectClient clientId) := by
  unfold disconnectClient
  apply meets_ask
  · trivial
  intro _
  exact .ret trivial

end

/-- Every task keeps to its monitor, from its beginning and through every turn. -/
theorem covers (settings : Settings) : (observer settings).Covers (brokerSystem settings) ready where
  start := by
    intro node i c h
    cases i <;> cases c <;> first | cases h | skip
    case router.router =>
      intro clientId hdismisses
      obtain ⟨_, _, hmessage⟩ := hdismisses
      cases hmessage
    case connection.tcp => exact ⟨rfl, rfl⟩
    case connection.ws => exact ⟨rfl, rfl⟩
    all_goals trivial
  body := by
    intro i g c h
    cases i <;> cases c <;> first | exact h.elim | exact meets_run trivial fun _ => .ret trivial | skip
    case router.router => exact routerLoop_meets h
    case connection.tcp => exact handleConnection_meets h.1 h.2
    case connection.ws => exact handleWsMqttSession_meets h.1 h.2
    case connection.tcpLoop =>
      obtain ⟨session, howns, hof⟩ := h
      exact tcpLoop_meets howns hof
    case connection.wsLoop =>
      obtain ⟨session, howns, hof⟩ := h
      exact wsLoop_meets howns hof
    case connection.wsLost =>
      obtain ⟨session, howns, hof⟩ := h
      exact wsLost_meets howns hof
    case web.webSession => exact handleWsSession_meets
    case request.publishRequest => exact publishMessage_meets
    case request.deleteRetainedRequest => exact deleteRetainedMessage_meets
    case request.disconnectRequest => exact disconnectClient_meets

theorem session_next (g : Phase) (a : Action) (r : Reply a) : (g.next a r).session = g.session ∨
    ∃ clientId session, a = .sessionsInsert clientId session ∧ (g.next a r).session = some session := by
  cases a with
  | sessionsInsert clientId session => exact .inr ⟨clientId, session, rfl, rfl⟩
  | sendRouter message => cases message <;> exact .inl rfl
  | _ => exact .inl rfl

theorem left_next (g : Phase) (a : Action) (r : Reply a) : (g.next a r).left = g.left ∨
    ∃ clientId cleanSession, a = .sendRouter (.ClientDisconnected clientId cleanSession) := by
  cases a with
  | sendRouter message =>
    cases message with
    | Publish topic payload qos retain sourceClient => exact .inl rfl
    | ClientDisconnected clientId cleanSession => exact .inr ⟨clientId, cleanSession, rfl⟩
  | _ => exact .inl rfl

theorem sessionsInsert_connection {settings : Settings} {i : ThreadId} {g : Phase} {clientId : String}
    {session : SessionState} (h : allows settings i g (.sessionsInsert clientId session)) :
    g.session = none ∧ session.clientId = clientId ∧ ∃ k, i = .connection k := by
  cases i with
  | connection k => exact ⟨h.1, h.2.1, k, rfl⟩
  | _ => exact h.elim

theorem session_kept {settings : Settings} {i : ThreadId} {g : Phase} {a : Action} {r : Reply a}
    {session : SessionState} (hallows : allows settings i g a) (h : g.session = some session) :
    (g.next a r).session = some session := by
  cases session_next g a r with
  | inl hsame => rw [hsame, h]
  | inr hinsert =>
    obtain ⟨clientId, session', rfl, _⟩ := hinsert
    rw [(sessionsInsert_connection hallows).1] at h
    cases h

def phases (settings : Settings) (evs : List BrokerEvent) : ThreadId → Phase :=
  (observer settings).ghosts (fun _ => Phase.start) evs

end AtomMqtt
