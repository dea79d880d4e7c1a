import AtomMqtt.Library.Agenda
import AtomMqtt.BrokerSystem

set_option autoImplicit false

/-! What each task still has to do. The agenda of a task: after a write of a shared map the event that goes with
it, after a message to the router the write of the retained map, after a lookup the forwards. The router has
nothing else to do; the others begin the rest when they have done all of it. -/
namespace AtomMqtt
open Programs

/-- What a task has taken note of: the CONNECT that it has read from a TCP stream, the subscription that
    it makes, the message that the router works on and the will of that client. -/
structure Note where
  connect : Option ConnectFields
  subscription : String × String
  message : Option (ThreadId × BrokerMessage)
  taken : Option (ThreadId × WillMessage)

def Note.start : Note := { connect := none, subscription := ("", ""), message := none, taken := none }

/-- The fields of a CONNECT that is read at once. -/
def connectRead : Received → Option ConnectFields
  | .data readBuf =>
    match decodeFirstPacket readBuf with
    | .ok (some packet) => connectFields packet
    | _ => none
  | _ => none

def Note.next (n : Note) : (a : Action) → Reply a → Note
  | .read, received => { n with connect := connectRead received }
  | .subscribe clientId filter _, _ => { n with subscription := (clientId, filter) }
  | .recvRouter, sent => { n with message := some sent, taken := none }
  | .willsRemove _, will => { n with taken := will }
  | _, _ => n

def Note.will (n : Note) (clientId : String) : Option WillMessage :=
  (n.connect.bind fun c => c.will).map fun will => { will with clientId }

def Action.listed : Action → Bool
  | .generateClientId | .sessionsSetDisconnected _ | .connectionsInsert _ | .connectionsRemove _
  | .syncSubscriptionsActive | .metrics _ | .webSubscribersContains _ | .webSubscribersInsert _
  | .webSubscribersRemove _ | .read | .selectTcp | .wsNext | .selectWs | .recvForwarded | .dropReceiver | .selectWeb
  | .write _ _ | .pong _ | .text _ => false
  | _ => true

def forwardAll (packet : MqttPacket) (message : WebMessage) (subscribers : List Subscription) : List Action :=
  subscribers.map (fun sub => .forward sub.clientId packet) ++
    subscribers.map fun sub => .forwardWeb sub.clientId message

/-- What the router passes on to those whom it has looked up. -/
def Note.forwards (n : Note) (subscribers : List Subscription) : List Action :=
  match n.message, n.taken with
  | some (_, .Publish topic payload qos _ sourceClient), _ =>
    forwardAll (publishPacket topic payload false) (.Publish topic payload qos.toU8 sourceClient) subscribers
  | some (_, .ClientDisconnected clientId _), some (_, will) =>
    forwardAll (publishPacket will.topic will.payload will.retain)
      (.Will will.topic will.payload will.qos.toU8 clientId) subscribers
  | _, _ => []

/-- The retained write of the router for what it passes on. -/
def retains (retain : Bool) (message : RetainedMessage) : List Action :=
  if retain then [.retainedInsert message.topic message] else []

def WillMessage.retained (will : WillMessage) : RetainedMessage :=
  { topic := will.topic, payload := will.payload, qos := will.qos }

def routerFollows (n : Note) : (a : Action) → Reply a → List Action
  | .recvRouter, (_, .Publish topic payload qos retain _) => .lookup topic :: retains retain { topic, payload, qos }
  | .recvRouter, (_, .ClientDisconnected clientId cleanSession) =>
    .willsRemove clientId :: if cleanSession then
      [.unsubscribeAll clientId, .sendEvent (.RemoveClientSubscriptions clientId), .sessionsRemove clientId,
        .sendEvent (.RemoveSession clientId)]
    else []
  | .willsRemove clientId, some (_, will) =>
    .lookup will.topic :: (retains will.retain will.retained ++ [.sendEvent (.RemoveWill clientId)])
  | .lookup _, subscribers => n.forwards subscribers
  | _, _ => []

def savedSession (clientId : String) (session : SessionState) : PersistEvent :=
  .SaveSession clientId (match session.protocolVersion with | .V5 => 5 | _ => 4) session.cleanSession session.keepAlive
    session.username

def savedWill (clientId : String) (will : WillMessage) : PersistEvent :=
  .SaveWill clientId will.topic will.payload will.qos.toI32 will.retain will.delayInterval

def replayed (clientId filter : String) (items : List RetainedMessage) : List Action :=
  (items.filter fun item => (TopicFilter.new filter).matches item.topic && !item.payload.isEmpty).map fun item =>
    .forward clientId (publishPacket item.topic item.payload true)

def connectionFollows (n : Note) : (a : Action) → Reply a → List Action
  | .sessionsInsert clientId session, _ =>
    (n.will clientId).toList.map (.willsInsert clientId) ++ [.sendEvent (savedSession clientId session)]
  | .willsInsert clientId will, _ => [.sendEvent (savedWill clientId will)]
  | .willsRemove clientId, _ => [.sendEvent (.RemoveWill clientId)]
  | .subscribe clientId filter qos, _ => [.sendEvent (.SaveSubscription clientId filter qos.toI32), .retainedIter]
  | .retainedIter, items => replayed n.subscription.1 n.subscription.2 items
  | .unsubscribe clientId filter, _ => [.sendEvent (.RemoveSubscription clientId filter)]
  | .sendRouter (.Publish topic payload qos true _), _ =>
    if payload.isEmpty then [.retainedRemove topic, .sendEvent (.RemoveRetained topic)]
    else [.retainedInsert topic { topic, payload, qos }, .sendEvent (.SaveRetained topic payload qos.toI32)]
  | _, _ => []

def requestFollows : (a : Action) → Reply a → List Action
  | .sendRouter (.Publish topic payload qos true _), _ =>
    if payload.isEmpty then [] else [.retainedInsert topic { topic, payload, qos }]
  | .retainedContains topic, true => [.retainedRemove topic, .sendEvent (.RemoveRetained topic)]
  | _, _ => []

def follows (i : ThreadId) (n : Note) (a : Action) (r : Reply a) : List Action :=
  match i with
  | .router _ => routerFollows n a r
  | .connection _ => connectionFollows n a r
  | .web _ => []
  | .request _ => requestFollows a r

def Begins (i : ThreadId) (a : Action) : Prop :=
  match i, a with
  | .router _, .recvRouter => True
  | .connection _, .sessionsInsert _ _ | .connection _, .willsRemove _ | .connection _, .subscribe _ _ _
  | .connection _, .unsubscribe _ _ | .connection _, .sendRouter _ => True
  | .web _, .subscribe _ _ _ | .web _, .unsubscribe _ _ => True
  | .request _, .sendRouter _ | .request _, .retainedContains _ | .request _, .lookup _ => True
  | _, _ => False

/-- What may be owed, and is then never begun. -/
def Owable (i : ThreadId) (a : Action) : Prop :=
  match i, a with
  | .router _, .lookup _ | .router _, .forward _ _ | .router _, .forwardWeb _ _ | .router _, .retainedInsert _ _
  | .router _, .willsRemove _ | .router _, .unsubscribeAll _ | .router _, .sessionsRemove _
  | .router _, .sendEvent _ => True
  | .connection _, .willsInsert _ _ | .connection _, .sendEvent _ | .connection _, .retainedIter
  | .connection _, .forward _ _ | .connection _, .retainedInsert _ _ | .connection _, .retainedRemove _ => True
  | .request _, .retainedInsert _ _ | .request _, .retainedRemove _ | .request _, .sendEvent _ => True
  | _, _ => False

def agenda (i : ThreadId) : Agenda Action Reply Note where
  listed := Action.listed
  note := Note.next
  follows := follows i
  begins := fun _ => Begins i

section
variable {i : ThreadId} {n : Note} {a : Action} {r : Reply a}

theorem follows_unlisted (h : a.listed = false) : follows i n a r = [] := by
  cases i <;> cases a <;> first | rfl | cases h

theorem mem_forwards {subscribers : List Subscription} {b : Action} (h : b ∈ n.forwards subscribers) :
    (∃ clientId packet, b = .forward clientId packet) ∨ ∃ subscriberId message, b = .forwardWeb subscriberId message := by
  have hall : ∀ packet message, b ∈ forwardAll packet message subscribers →
      (∃ clientId packet, b = .forward clientId packet) ∨
        ∃ subscriberId message, b = .forwardWeb subscriberId message := by
    intro packet message hb
    rw [forwardAll, List.mem_append, List.mem_map, List.mem_map] at hb
    obtain ⟨sub, _, rfl⟩ | ⟨sub, _, rfl⟩ := hb
    · exact .inl ⟨_, _, rfl⟩
    · exact .inr ⟨_, _, rfl⟩
  unfold Note.forwards at h
  split at h
  · exact hall _ _ h
  · exact hall _ _ h
  · cases h

theorem forwards_owable {life : ℕ} {subscribers : List Subscription} :
    ∀ b ∈ n.forwards subscribers, Owable (.router life) b := by
  intro b hb
  obtain ⟨_, _, rfl⟩ | ⟨_, _, rfl⟩ := mem_forwards hb
  · trivial
  · trivial

theorem routerFollows_owable {life : ℕ} : ∀ b ∈ routerFollows n a r, Owable (.router life) b := by
  have hretains : ∀ retain message, ∀ b ∈ retains retain message, Owable (.router life) b := by
    intro retain message b hb
    cases retain with
    | false => cases hb
    | true =>
      rw [List.mem_singleton.mp hb]
      trivial
  cases a with
  | recvRouter =>
    obtain ⟨source, message⟩ := r
    cases message with
    | Publish topic payload qos retain sourceClient => exact List.forall_mem_cons.mpr ⟨trivial, hretains _ _⟩
    | ClientDisconnected clientId cleanSession =>
      cases cleanSession with
      | false => simp [routerFollows, Owable]
      | true => simp [routerFollows, Owable]
  | willsRemove clientId =>
    cases r with
    | none => exact List.forall_mem_nil _
    | some sent =>
      have hlast : ∀ b ∈ [Action.sendEvent (.RemoveWill clientId)], Owable (.router life) b := by simp [Owable]
      exact List.forall_mem_cons.mpr ⟨trivial, List.forall_mem_append.mpr ⟨hretains _ _, hlast⟩⟩
  | lookup topic => exact forwards_owable
  | _ => exact List.forall_mem_nil _

theorem connectionFollows_owable {k : ConnId} : ∀ b ∈ connectionFollows n a r, Owable (.connection k) b := by
  cases a with
  | sessionsInsert clientId session =>
    intro b hb
    cases List.mem_append.mp hb with
    | inl hwill =>
      obtain ⟨will, _, rfl⟩ := List.mem_map.mp hwill
      trivial
    | inr hevent =>
      rw [List.mem_singleton.mp hevent]
      trivial
  | retainedIter =>
    intro b hb
    obtain ⟨item, _, rfl⟩ := List.mem_map.mp hb
    trivial
  | sendRouter message =>
    cases message with
    | ClientDisconnected clientId cleanSession => exact List.forall_mem_nil _
    | Publish topic payload qos retain sourceClient =>
      cases retain with
      | false => exact List.forall_mem_nil _
      | true =>
        simp only [connectionFollows]
        split <;> simp [Owable]
  | _ => simp [connectionFollows, Owable]

theorem requestFollows_owable {m : ℕ} : ∀ b ∈ requestFollows a r, Owable (.request m) b := by
  cases a with
  | sendRouter message =>
    cases message with
    | ClientDisconnected clientId cleanSession => exact List.forall_mem_nil _
    | Publish topic payload qos retain sourceClient =>
      cases retain with
      | false => exact List.forall_mem_nil _
      | true =>
        simp only [requestFollows]
        split <;> simp [Owable]
  | retainedContains topic =>
    cases r with
    | false => exact List.forall_mem_nil _
    | true => simp [requestFollows, Owable]
  | _ => simp [requestFollows]

theorem follows_owable : ∀ b ∈ follows i n a r, Owable i b := by
  cases i with
  | router life => exact routerFollows_owable
  | connection k => exact connectionFollows_owable
  | web k => exact List.forall_mem_nil _
  | request m => exact requestFollows_owable

theorem not_owable_of_begins (h : Begins i a) : ¬ Owable i a := by
  intro howable
  cases i <;> cases a <;> first | exact h.elim | exact howable.elim

end

end AtomMqtt
