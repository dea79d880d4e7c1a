import AtomMqtt.Agendas
import AtomMqtt.PacketTraces

set_option autoImplicit false

/-! The tasks keep to their agendas. -/
namespace AtomMqtt
open Programs

def dutyObserver : Observer ThreadId Action Reply Control (Duty Note Action) where
  monitor := fun i => (agenda i).monitor
  begin := fun _ _ => ⟨Note.start, []⟩

/-- Between two turns nothing is owed. -/
def Settled : ThreadId → Duty Note Action → Control → Prop
  | .router _, d, .router => d.owes = []
  | .connection _, d, .tcp => d.owes = []
  | .connection _, d, .ws _ => d = ⟨Note.start, []⟩
  | .connection _, d, .tcpLoop _ => d.owes = []
  | .connection _, d, .wsLoop _ => d.owes = []
  | .connection _, d, .wsLost _ => d.owes = []
  | .web _, d, .webSession _ _ => d.owes = []
  | .request _, d, .publishRequest _ _ _ _ => d.owes = []
  | .request _, d, .deleteRetainedRequest _ => d.owes = []
  | .request _, d, .disconnectRequest _ => d.owes = []
  | _, d, .exited _ => d.owes = []
  | _, _, _ => False

section
variable {i : ThreadId} {α : Type} {Q : Duty Note Action → α → Prop} {n : Note} {rest : List Action}

theorem unlisted_free {a : Action} (hlisted : a.listed = false) (hread : a ≠ .read) : (agenda i).Free a where
  unlisted := hlisted
  note := by
    intro n r
    cases a <;> first | rfl | exact absurd rfl hread | cases hlisted
  follows := by
    intro n r
    cases i <;> cases a <;> first | rfl | cases hlisted

theorem owed_run {a : Action} {f : Unit → Broker α} (hlisted : a.listed = true)
    (h : ∀ r, Meets (agenda i).monitor Q ⟨n.next a r, follows i (n.next a r) a r ++ rest⟩ (f ())) :
    Meets (agenda i).monitor Q ⟨n, a :: rest⟩ (run a >>= f) := meets_owed hlisted h

theorem owed_run_last {a : Action} {Q : Duty Note Action → Unit → Prop} (hlisted : a.listed = true)
    (h : ∀ r, Q ⟨n.next a r, follows i (n.next a r) a r ++ rest⟩ ()) :
    Meets (agenda i).monitor Q ⟨n, a :: rest⟩ (run a) := meets_owed hlisted fun r => .ret (h r)

theorem owed_ask {a : Action} {f : Reply a → Broker α} (hlisted : a.listed = true)
    (h : ∀ r, Meets (agenda i).monitor Q ⟨n.next a r, follows i (n.next a r) a r ++ rest⟩ (f r)) :
    Meets (agenda i).monitor Q ⟨n, a :: rest⟩ (ask a >>= f) := meets_owed hlisted h

theorem begun_run {a : Action} {f : Unit → Broker α} (hbegins : Begins i a)
    (h : ∀ r, Meets (agenda i).monitor Q ⟨n.next a r, follows i (n.next a r) a r⟩ (f ())) :
    Meets (agenda i).monitor Q ⟨n, []⟩ (run a >>= f) := meets_begun hbegins h

theorem begun_run_last {a : Action} {Q : Duty Note Action → Unit → Prop} (hbegins : Begins i a)
    (h : ∀ r, Q ⟨n.next a r, follows i (n.next a r) a r⟩ ()) :
    Meets (agenda i).monitor Q ⟨n, []⟩ (run a) := meets_begun hbegins fun r => .ret (h r)

theorem begun_ask {a : Action} {f : Reply a → Broker α} (hbegins : Begins i a)
    (h : ∀ r, Meets (agenda i).monitor Q ⟨n.next a r, follows i (n.next a r) a r⟩ (f r)) :
    Meets (agenda i).monitor Q ⟨n, []⟩ (ask a >>= f) := meets_begun hbegins h

theorem free_run {d : Duty Note Action} {a : Action} {f : Unit → Broker α} (hfree : (agenda i).Free a)
    (h : Meets (agenda i).monitor Q d (f ())) : Meets (agenda i).monitor Q d (run a >>= f) :=
  meets_free hfree fun _ => h

theorem free_ask {d : Duty Note Action} {a : Action} {f : Reply a → Broker α} (hfree : (agenda i).Free a)
    (h : ∀ r, Meets (agenda i).monitor Q d (f r)) : Meets (agenda i).monitor Q d (ask a >>= f) :=
  meets_free hfree h

theorem read_ask {f : Received → Broker α}
    (h : ∀ received, Meets (agenda i).monitor Q ⟨{ n with connect := connectRead received }, rest⟩ (f received)) :
    Meets (agenda i).monitor Q ⟨n, rest⟩ (ask .read >>= f) := by
  apply Meets.act
  · intro hlisted
    cases hlisted
  · intro received
    have hnext : (agenda i).next ⟨n, rest⟩ .read received = ⟨{ n with connect := connectRead received }, rest⟩ := by
      cases i <;> rfl
    change Meets (agenda i).monitor Q ((agenda i).next ⟨n, rest⟩ .read received) (f received)
    rw [hnext]
    exact h received

theorem owed_forM {γ : Type} {xs : List γ} {a : γ → Action} {f : PUnit → Broker α} (hlisted : ∀ x, (a x).listed = true)
    (hnote : ∀ x r, n.next (a x) r = n) (hfollows : ∀ x r, follows i n (a x) r = [])
    (h : Meets (agenda i).monitor Q ⟨n, rest⟩ (f ⟨⟩)) :
    Meets (agenda i).monitor Q ⟨n, xs.map a ++ rest⟩ ((xs.forM fun x => run (a x)) >>= f) :=
  meets_forM_owed (fun _ => rfl) hlisted hnote hfollows h

end

section
variable {life : ℕ} {α : Type} {Q : Duty Note Action → α → Prop} {n : Note} {rest : List Action}

theorem forwards_owed {packet : MqttPacket} {message : WebMessage} {subscribers : List Subscription}
    {p : Broker α} (h : Meets (agenda (.router life)).monitor Q ⟨n, rest⟩ p) :
    Meets (agenda (.router life)).monitor Q ⟨n, forwardAll packet message subscribers ++ rest⟩ (do
      subscribers.forM fun sub => run (.forward sub.clientId packet)
      subscribers.forM fun sub => run (.forwardWeb sub.clientId message)
      p) := by
  rw [forwardAll, List.append_assoc]
  apply owed_forM
  · intro _
    rfl
  · intro _ _
    rfl
  · intro _ _
    rfl
  apply owed_forM
  · intro _
    rfl
  · intro _ _
    rfl
  · intro _ _
    rfl
  exact h

end

section
variable {life : ℕ} {n : Note} {rest : List Action}

theorem routePublish_duty {topic : String} {payload : Bytes} {qos : QoS} {retain : Bool} {sourceClient : String}
    {sender : ThreadId} (hmessage : n.message = some (sender, .Publish topic payload qos retain sourceClient)) :
    Meets (agenda (.router life)).monitor (fun d _ => d.owes = [])
      ⟨n, .lookup topic :: retains retain { topic, payload, qos }⟩
      (routePublish topic payload qos retain sourceClient) := by
  unfold routePublish
  apply owed_ask
  · rfl
  intro subscribers
  apply free_run
  · exact unlisted_free rfl nofun
  have hforwards : follows (.router life) (n.next (.lookup topic) subscribers) (.lookup topic) subscribers =
      forwardAll (publishPacket topic payload false) (.Publish topic payload qos.toU8 sourceClient) subscribers := by
    change n.forwards subscribers = _
    rw [Note.forwards, hmessage]
  rw [hforwards]
  apply forwards_owed
  cases retain with
  | false => exact .ret rfl
  | true => exact owed_run_last rfl fun _ => rfl

theorem deliverWill_duty {clientId : String} {cleanSession : Bool} {sender source : ThreadId} {will : WillMessage}
    (hmessage : n.message = some (source, .ClientDisconnected clientId cleanSession))
    (htaken : n.taken = some (sender, will)) :
    Meets (agenda (.router life)).monitor (fun d _ => d.owes = rest)
      ⟨n, .lookup will.topic :: (retains will.retain will.retained ++ [.sendEvent (.RemoveWill clientId)]) ++ rest⟩
      (deliverWill clientId will) := by
  unfold deliverWill
  rw [List.cons_append]
  apply owed_ask
  · rfl
  intro subscribers
  have hforwards : follows (.router life) (n.next (.lookup will.topic) subscribers) (.lookup will.topic) subscribers =
      forwardAll (publishPacket will.topic will.payload will.retain)
        (.Will will.topic will.payload will.qos.toU8 clientId) subscribers := by
    change n.forwards subscribers = _
    rw [Note.forwards, hmessage, htaken]
  rw [hforwards]
  apply forwards_owed
  cases will.retain with
  | false => exact owed_run_last rfl fun _ => rfl
  | true =>
    apply owed_run
    · rfl
    intro _
    exact owed_run_last rfl fun _ => rfl

theorem routeDisconnected_duty {clientId : String} {cleanSession : Bool} {source : ThreadId}
    (hmessage : n.message = some (source, .ClientDisconnected clientId cleanSession)) :
    Meets (agenda (.router life)).monitor (fun d _ => d.owes = [])
      ⟨n, .willsRemove clientId :: if cleanSession then
        [.unsubscribeAll clientId, .sendEvent (.RemoveClientSubscriptions clientId), .sessionsRemove clientId,
          .sendEvent (.RemoveSession clientId)]
        else []⟩
      (routeDisconnected clientId cleanSession) := by
  have hafter : ∀ d : Duty Note Action, d.owes = (if cleanSession then
      [.unsubscribeAll clientId, .sendEvent (.RemoveClientSubscriptions clientId), .sessionsRemove clientId,
        .sendEvent (.RemoveSession clientId)] else []) →
      Meets (agenda (.router life)).monitor (fun d _ => d.owes = []) d (if cleanSession = true then do
        run (.unsubscribeAll clientId)
        sendEvent (.RemoveClientSubscriptions clientId)
        run (.sessionsRemove clientId)
        sendEvent (.RemoveSession clientId)
        run .syncSubscriptionsActive
      else run (.sessionsSetDisconnected clientId)) := by
    intro d howes
    obtain ⟨n', owes⟩ := d
    subst howes
    cases cleanSession with
    | true =>
      apply owed_run
      · rfl
      intro _
      apply owed_run
      · rfl
      intro _
      apply owed_run
      · rfl
      intro _
      apply owed_run
      · rfl
      intro _
      exact meets_only_last (only_run_last (unlisted_free rfl nofun)) fun _ => rfl
    | false => exact meets_only_last (only_run_last (unlisted_free rfl nofun)) fun _ => rfl
  unfold routeDisconnected
  apply owed_ask
  · rfl
  intro will
  cases will with
  | none => exact hafter _ rfl
  | some sent =>
    obtain ⟨sender, will⟩ := sent
    apply Meets.seq (deliverWill_duty (n := n.next (.willsRemove clientId) (some (sender, will))) hmessage rfl)
    intro d _ howes
    exact hafter d howes

theorem routerLoop_duty {d : Duty Note Action} (h : d.owes = []) :
    Meets (agenda (.router life)).monitor (Settled (.router life)) d routerLoop := by
  obtain ⟨n, owes⟩ := d
  subst h
  apply begun_ask
  · trivial
  intro sent
  obtain ⟨source, message⟩ := sent
  apply Meets.seq (Q := fun d _ => d.owes = [])
  · cases message with
    | Publish topic payload qos retain sourceClient => exact routePublish_duty rfl
    | ClientDisconnected clientId cleanSession => exact routeDisconnected_duty rfl
  · intro d _ howes
    exact .ret howes

end

theorem forM_filter {γ : Type} {keeps : γ → Bool} {p : γ → Broker PUnit} (xs : List γ) :
    (xs.forM fun x => if keeps x then p x else pure ()) = (xs.filter keeps).forM p := by
  induction xs with
  | nil => rfl
  | cons x xs ih =>
    change ((if keeps x then p x else pure ()) >>= fun _ => xs.forM fun x => if keeps x then p x else pure ()) = _
    rw [ih, List.filter_cons]
    cases keeps x with
    | false => rfl
    | true => rfl

section
variable {settings : Settings} {k : ConnId} {clientId username : String} {n : Note} {d : Duty Note Action}

theorem acceptPublish_duty {topic : String} {payload : Bytes} {qos : QoS} {retain : Bool} (howes : d.owes = []) :
    Meets (agenda (.connection k)).monitor (fun d _ => d.owes = []) d
      (acceptPublish clientId topic payload qos retain) := by
  obtain ⟨n, owes⟩ := d
  subst howes
  unfold acceptPublish
  apply begun_run
  · trivial
  intro _
  cases retain with
  | false => exact .ret rfl
  | true =>
    cases hempty : payload.isEmpty with
    | true =>
      have hfollows : follows (.connection k) (n.next (.sendRouter (.Publish topic payload qos true clientId)) ())
          (.sendRouter (.Publish topic payload qos true clientId)) () =
          [.retainedRemove topic, .sendEvent (.RemoveRetained topic)] := by
        change (if payload.isEmpty then _ else _) = _
        rw [if_pos hempty]
      rw [hfollows]
      apply owed_run
      · rfl
      intro _
      exact owed_run_last rfl fun _ => rfl
    | false =>
      have hfollows : follows (.connection k) (n.next (.sendRouter (.Publish topic payload qos true clientId)) ())
          (.sendRouter (.Publish topic payload qos true clientId)) () =
          [.retainedInsert topic { topic, payload, qos }, .sendEvent (.SaveRetained topic payload qos.toI32)] := by
        change (if payload.isEmpty then _ else _) = _
        rw [if_neg (by simp [hempty])]
      rw [hfollows]
      apply owed_run
      · rfl
      intro _
      exact owed_run_last rfl fun _ => rfl

theorem replayRetained_duty {filter : String} (hsubscription : n.subscription = (clientId, filter)) :
    Meets (agenda (.connection k)).monitor (fun d _ => d.owes = []) ⟨n, [.retainedIter]⟩
      (replayRetained clientId filter) := by
  unfold replayRetained
  apply owed_ask
  · rfl
  intro items
  have hfollows : follows (.connection k) (n.next .retainedIter items) .retainedIter items =
      replayed clientId filter items := by
    change replayed n.subscription.1 n.subscription.2 items = _
    rw [hsubscription]
  rw [hfollows, forM_filter, ← bind_pure (List.forM _ _)]
  apply owed_forM
  · intro _
    rfl
  · intro _ _
    rfl
  · intro _ _
    rfl
  exact .ret rfl

theorem acceptSubscription_duty {filter : String} {qos : QoS} (howes : d.owes = []) :
    Meets (agenda (.connection k)).monitor (fun d _ => d.owes = []) d (acceptSubscription clientId filter qos) := by
  obtain ⟨n, owes⟩ := d
  subst howes
  unfold acceptSubscription
  apply begun_run
  · trivial
  intro _
  apply owed_run
  · rfl
  intro _
  exact replayRetained_duty rfl

theorem removeSubscriptions_duty {filters : List String} (howes : d.owes = []) :
    Meets (agenda (.connection k)).monitor (fun d _ => d.owes = []) d (removeSubscriptions clientId filters) := by
  unfold removeSubscriptions
  have hloop : Meets (agenda (.connection k)).monitor (fun d _ => d.owes = []) d (filters.forM fun filter => do
      run (.unsubscribe clientId filter)
      sendEvent (.RemoveSubscription clientId filter)) := by
    apply Meets.forM (I := fun d : Duty Note Action => d.owes = []) howes
    intro filter _ d howes
    obtain ⟨n, owes⟩ := d
    subst howes
    apply begun_run
    · trivial
    intro _
    exact owed_run_last rfl fun _ => rfl
  apply hloop.seq
  intro d _ howes
  exact meets_only_last (only_run_last (unlisted_free rfl nofun)) fun _ => howes

theorem subscribeFilters_duty {γ δ : Type} {filters : List γ} {path : γ → String} {qos : γ → QoS} {denied : δ}
    {granted : γ → δ} (howes : d.owes = []) :
    Meets (agenda (.connection k)).monitor (fun d _ => d.owes = []) d (filters.mapM fun filter =>
      if !settings.acl.authorizeSubscribe username (path filter) then (return denied : Broker δ)
      else do
        acceptSubscription clientId (path filter) (qos filter)
        return granted filter) := by
  apply Meets.mapM (I := fun d : Duty Note Action => d.owes = []) howes
  intro filter _ d howes
  cases settings.acl.authorizeSubscribe username (path filter) with
  | false => exact .ret howes
  | true =>
    apply (acceptSubscription_duty howes).seq
    intro d' _ howes'
    exact .ret howes'

theorem publish_duty {bytes : ℕ} {topic : String} {payload : Bytes} {qos : QoS} {retain : Bool}
    {denied accepted : MqttResult (Option MqttPacket)} (howes : d.owes = []) :
    Meets (agenda (.connection k)).monitor (fun d _ => d.owes = []) d (do
      metrics .incrementMessagesReceived
      metrics (.incrementBytesReceived bytes)
      if !settings.acl.authorizePublish username topic then return denied
      else do
        acceptPublish clientId topic payload qos retain
        return accepted) := by
  apply free_run
  · exact unlisted_free rfl nofun
  apply free_run
  · exact unlisted_free rfl nofun
  cases settings.acl.authorizePublish username topic with
  | false => exact .ret howes
  | true =>
    apply (acceptPublish_duty howes).seq
    intro d' _ howes'
    exact .ret howes'

theorem dropWill_duty {α : Type} {result : α} (howes : d.owes = []) :
    Meets (agenda (.connection k)).monitor (fun d _ => d.owes = []) d (do
      run (.willsRemove clientId)
      sendEvent (.RemoveWill clientId)
      return result) := by
  obtain ⟨n, owes⟩ := d
  subst howes
  apply begun_run
  · trivial
  intro _
  apply owed_run
  · rfl
  intro _
  exact .ret rfl

theorem processV3Packet_duty {packet : V3.MqttPacketV3} (howes : d.owes = []) :
    Meets (agenda (.connection k)).monitor (fun d _ => d.owes = []) d
      (processV3Packet settings packet clientId username) := by
  cases packet with
  | Publish p => exact publish_duty howes
  | Subscribe p =>
    apply (subscribeFilters_duty howes).seq
    intro d' _ howes'
    apply free_run
    · exact unlisted_free rfl nofun
    exact .ret howes'
  | Unsubscribe p =>
    apply (removeSubscriptions_duty howes).seq
    intro d' _ howes'
    exact .ret howes'
  | Disconnect =>
    apply free_run
    · exact unlisted_free rfl nofun
    exact dropWill_duty howes
  | _ => exact .ret howes

theorem processV5Packet_duty {packet : V5.MqttPacketV5} (howes : d.owes = []) :
    Meets (agenda (.connection k)).monitor (fun d _ => d.owes = []) d
      (processV5Packet settings packet clientId username) := by
  cases packet with
  | Publish p => exact publish_duty howes
  | Subscribe p =>
    apply (subscribeFilters_duty howes).seq
    intro d' _ howes'
    apply free_run
    · exact unlisted_free rfl nofun
    exact .ret howes'
  | Unsubscribe p =>
    apply (removeSubscriptions_duty howes).seq
    intro d' _ howes'
    exact .ret howes'
  | Disconnect p =>
    unfold processV5Packet
    apply free_run
    · exact unlisted_free rfl nofun
    cases p.reasonCode != .DisconnectWithWillMessage with
    | false => exact .ret howes
    | true => exact dropWill_duty howes
  | _ => exact .ret howes

theorem processPacket_duty {packet : MqttPacket} (howes : d.owes = []) :
    Meets (agenda (.connection k)).monitor (fun d _ => d.owes = []) d
      (processPacket settings packet clientId username) := by
  cases packet with
  | V311 p => exact processV3Packet_duty howes
  | V5 p => exact processV5Packet_duty howes

end

section
variable {settings : Settings} {k : ConnId} {d : Duty Note Action}

theorem writePacket_free {what : Outgoing} {packet : MqttPacket} :
    Only (agenda (.connection k)).Free (writePacket what packet) :=
  writePacket_only (fun _ => unlisted_free rfl nofun) (fun _ => unlisted_free rfl nofun) packet

theorem cleanup_duty {l : ConnLoop} (howes : d.owes = []) :
    Meets (agenda (.connection k)).monitor (Settled (.connection k)) d (cleanup l) := by
  obtain ⟨n, owes⟩ := d
  subst howes
  unfold cleanup
  apply free_run
  · exact unlisted_free rfl nofun
  apply free_run
  · exact unlisted_free rfl nofun
  apply free_run
  · exact unlisted_free rfl nofun
  apply begun_run
  · trivial
  intro _
  exact .ret rfl

theorem handlePacket_duty {l : ConnLoop} {packet : MqttPacket} {size : ℕ} {again : ConnLoop → Control}
    (howes : d.owes = []) (hagain : ∀ d l, d.owes = [] → Settled (.connection k) d (again l)) :
    Meets (agenda (.connection k)).monitor (Settled (.connection k)) d
      (handlePacket settings l packet size again) := by
  unfold handlePacket
  apply free_run
  · exact unlisted_free rfl nofun
  apply (processPacket_duty howes).seq
  intro d' result howes'
  match result with
  | .error _ => exact .ret howes'
  | .ok none => exact .ret (hagain d' _ howes')
  | .ok (some response) =>
    apply meets_only writePacket_free
    intro written
    cases written with
    | false => exact .ret howes'
    | true => exact .ret (hagain d' _ howes')

theorem tcpLoop_duty {l : ConnLoop} (howes : d.owes = []) :
    Meets (agenda (.connection k)).monitor (Settled (.connection k)) d (tcpLoop settings l) := by
  unfold tcpLoop
  match decodePacketByVersion l.buf l.version with
  | .error _ => exact cleanup_duty howes
  | .ok (some (packet, size)) => exact handlePacket_duty howes fun _ _ h => h
  | .ok none =>
    apply free_ask
    · exact unlisted_free rfl nofun
    intro event
    match event with
    | .received (.data bytes) => exact .ret howes
    | .received .closed => exact cleanup_duty howes
    | .received .failed => exact .ret howes
    | .forwarded data =>
      apply free_ask
      · exact unlisted_free rfl nofun
      intro written
      cases written with
      | false => exact cleanup_duty howes
      | true =>
        apply free_run
        · exact unlisted_free rfl nofun
        apply free_run
        · exact unlisted_free rfl nofun
        exact .ret howes

theorem forwardWs_duty {l : ConnLoop} {data : Bytes} (howes : d.owes = []) :
    Meets (agenda (.connection k)).monitor (Settled (.connection k)) d (forwardWs l data) := by
  unfold forwardWs
  apply free_ask
  · exact unlisted_free rfl nofun
  intro written
  cases written with
  | false => exact cleanup_duty howes
  | true =>
    apply free_run
    · exact unlisted_free rfl nofun
    exact .ret howes

theorem wsLoop_duty {l : ConnLoop} (howes : d.owes = []) :
    Meets (agenda (.connection k)).monitor (Settled (.connection k)) d (wsLoop settings l) := by
  unfold wsLoop
  match decodePacketByVersion l.buf l.version with
  | .error _ => exact cleanup_duty howes
  | .ok (some (packet, size)) => exact handlePacket_duty howes fun _ _ h => h
  | .ok none =>
    apply free_ask
    · exact unlisted_free rfl nofun
    intro event
    match event with
    | .frame (.binary data) => exact .ret howes
    | .frame .close => exact cleanup_duty howes
    | .frame (.ping bytes) =>
      apply free_run
      · exact unlisted_free rfl nofun
      exact .ret howes
    | .frame .pong => exact .ret howes
    | .frame .other => exact .ret howes
    | .lost => exact .ret howes
    | .forwarded data => exact forwardWs_duty howes

theorem wsLost_duty {l : ConnLoop} (howes : d.owes = []) :
    Meets (agenda (.connection k)).monitor (Settled (.connection k)) d (wsLost l) := by
  unfold wsLost
  apply free_ask
  · exact unlisted_free rfl nofun
  intro item
  match item with
  | some data => exact forwardWs_duty howes
  | none => exact cleanup_duty howes

end

section
variable {settings : Settings} {k : ConnId} {n : Note} {c : ConnectFields} {username : String}

theorem registerSession_duty : Meets (agenda (.connection k)).monitor
    (fun d clientId => d = ⟨n, (n.will clientId).toList.map (.willsInsert clientId) ++ [.sendEvent
      (savedSession clientId (SessionState.new clientId c.version c.cleanSession c.keepAlive (some username)))]⟩)
    ⟨n, []⟩ (registerSession c username) := by
  have hrest : ∀ clientId, Meets (agenda (.connection k)).monitor
      (fun d clientId => d = ⟨n, (n.will clientId).toList.map (.willsInsert clientId) ++ [.sendEvent
        (savedSession clientId (SessionState.new clientId c.version c.cleanSession c.keepAlive (some username)))]⟩)
      ⟨n, []⟩ (do
        run (.sessionsSetDisconnected clientId)
        run (.sessionsInsert clientId
          (SessionState.new clientId c.version c.cleanSession c.keepAlive (some username)))
        metrics .incrementClientsConnected
        return clientId) := by
    intro clientId
    apply free_run
    · exact unlisted_free rfl nofun
    apply begun_run
    · trivial
    intro _
    apply free_run
    · exact unlisted_free rfl nofun
    exact .ret rfl
  unfold registerSession
  cases c.clientId.isEmpty with
  | true =>
    apply free_ask
    · exact unlisted_free rfl nofun
    intro clientId
    exact hrest clientId
  | false => exact hrest c.clientId

theorem storeWill_duty {clientId : String} {will : WillMessage} {rest : List Action} :
    Meets (agenda (.connection k)).monitor (fun d _ => d = ⟨n, rest⟩)
      ⟨n, .willsInsert clientId { will with clientId } :: rest⟩ (storeWill clientId will) := by
  unfold storeWill
  apply owed_run
  · rfl
  intro _
  exact owed_run_last rfl fun _ => rfl

theorem enterTcpLoop_duty {readBuf : Bytes} {clientId : String} {session : SessionState}
    (hsession : session = SessionState.new clientId c.version c.cleanSession c.keepAlive (some username)) :
    Meets (agenda (.connection k)).monitor (Settled (.connection k))
      ⟨n, [.sendEvent (savedSession clientId session)]⟩ (enterTcpLoop readBuf c clientId username) := by
  subst hsession
  unfold enterTcpLoop
  apply owed_run
  · rfl
  intro _
  apply meets_only writePacket_free
  intro written
  cases written with
  | false => exact .ret rfl
  | true =>
    apply free_run
    · exact unlisted_free rfl nofun
    match V3.decodePacket readBuf with
    | .ok (some (_, consumed)) => exact .ret rfl
    | .ok none => exact .ret rfl
    | .error _ => exact .ret rfl

theorem acceptTcp_duty {readBuf : Bytes} (hconnect : n.connect = some c) :
    Meets (agenda (.connection k)).monitor (Settled (.connection k)) ⟨n, []⟩ (acceptTcp settings readBuf c) := by
  unfold acceptTcp
  cases settings.authenticator.authenticate settings.config.allowAnonymous c.username c.password with
  | Denied reason =>
    apply meets_only writePacket_free
    intro sent
    exact .ret rfl
  | Success username =>
    apply registerSession_duty.seq
    intro d clientId hd
    subst hd
    have hwill : n.will clientId = c.will.map fun will => { will with clientId } := by
      rw [Note.will, hconnect]
      rfl
    rw [hwill]
    cases c.will with
    | none => exact enterTcpLoop_duty rfl
    | some will =>
      apply storeWill_duty.seq
      intro d _ hd
      subst hd
      exact enterTcpLoop_duty rfl

theorem handleConnection_duty :
    Meets (agenda (.connection k)).monitor (Settled (.connection k)) ⟨n, []⟩ (handleConnection settings) := by
  unfold handleConnection
  apply read_ask
  intro received
  match received with
  | .failed => exact .ret rfl
  | .closed => exact .ret rfl
  | .data readBuf =>
    match hfirst : decodeFirstPacket readBuf with
    | .error _ =>
      simp only [hfirst]
      exact .ret rfl
    | .ok none =>
      simp only [hfirst]
      exact .ret rfl
    | .ok (some packet) =>
      simp only [hfirst]
      cases hfields : connectFields packet with
      | none => exact .ret rfl
      | some c =>
        apply acceptTcp_duty
        change connectRead (.data readBuf) = some c
        simp only [connectRead, hfirst, hfields]

theorem acceptWs_duty {buf : Bytes} :
    Meets (agenda (.connection k)).monitor (Settled (.connection k)) ⟨Note.start, []⟩ (acceptWs settings buf c) := by
  unfold acceptWs
  cases settings.authenticator.authenticate settings.config.allowAnonymous c.username c.password with
  | Denied reason =>
    apply meets_only writePacket_free
    intro sent
    exact .ret rfl
  | Success username =>
    apply registerSession_duty.seq
    intro d clientId hd
    subst hd
    apply owed_run
    · rfl
    intro _
    apply meets_only writePacket_free
    intro written
    cases written with
    | false => exact .ret rfl
    | true =>
      simp only [if_true]
      split
      · apply free_run
        · exact unlisted_free rfl nofun
        exact .ret rfl
      · exact .ret rfl

theorem handleWsMqttSession_duty {buf : Bytes} :
    Meets (agenda (.connection k)).monitor (Settled (.connection k)) ⟨Note.start, []⟩
      (handleWsMqttSession settings buf) := by
  unfold handleWsMqttSession
  apply free_ask
  · exact unlisted_free rfl nofun
  intro item
  match item with
  | .failed => exact .ret rfl
  | .ended => exact .ret rfl
  | .frame .close => exact .ret rfl
  | .frame (.ping bytes) =>
    apply free_run
    · exact unlisted_free rfl nofun
    exact .ret rfl
  | .frame .pong => exact .ret rfl
  | .frame .other => exact .ret rfl
  | .frame (.binary data) =>
    match hfirst : decodeFirstPacket (buf ++ data) with
    | .error _ =>
      simp only [hfirst]
      exact .ret rfl
    | .ok none =>
      simp only [hfirst]
      exact .ret rfl
    | .ok (some packet) =>
      simp only [hfirst]
      unfold handleConnectAfterDecode
      cases connectFields packet with
      | none => exact .ret rfl
      | some c => exact acceptWs_duty

end

section
variable {k : WebId} {m : ℕ} {d : Duty Note Action} {subscriberId : String} {activeSubscriptions : List String}

theorem webCleanup_duty (howes : d.owes = []) : Meets (agenda (.web k)).monitor (Settled (.web k)) d
    (webCleanup subscriberId activeSubscriptions) := by
  unfold webCleanup
  apply Meets.seq (Q := fun d _ => d.owes = [])
  · apply Meets.forM (I := fun d : Duty Note Action => d.owes = []) howes
    intro filter _ d howes
    obtain ⟨n, owes⟩ := d
    subst howes
    exact begun_run_last trivial fun _ => rfl
  · intro d _ howes
    apply free_run
    · exact unlisted_free rfl nofun
    exact .ret howes

theorem webText_duty {message : WebMessage} (howes : d.owes = []) :
    Meets (agenda (.web k)).monitor (Settled (.web k)) d (do
      run (.text message)
      return .webSession subscriberId activeSubscriptions) := by
  apply free_run
  · exact unlisted_free rfl nofun
  exact .ret howes

theorem webSubscribe_duty {topicFilter : String} {qosVal : ℕ} (howes : d.owes = []) :
    Meets (agenda (.web k)).monitor (Settled (.web k)) d
      (webSubscribe subscriberId activeSubscriptions topicFilter qosVal) := by
  unfold webSubscribe
  cases topicFilter.isEmpty with
  | true => exact webText_duty howes
  | false =>
    obtain ⟨n, owes⟩ := d
    subst howes
    apply begun_run (a := .subscribe subscriberId topicFilter _)
    · trivial
    intro _
    apply free_ask
    · exact unlisted_free rfl nofun
    intro contained
    cases contained with
    | true => exact webText_duty rfl
    | false =>
      apply free_run
      · exact unlisted_free rfl nofun
      exact webText_duty rfl

theorem webUnsubscribe_duty {topicFilter : String} (howes : d.owes = []) :
    Meets (agenda (.web k)).monitor (Settled (.web k)) d
      (webUnsubscribe subscriberId activeSubscriptions topicFilter) := by
  unfold webUnsubscribe
  cases topicFilter.isEmpty with
  | true => exact .ret howes
  | false =>
    obtain ⟨n, owes⟩ := d
    subst howes
    apply begun_run
    · trivial
    intro _
    exact webText_duty rfl

theorem webCommand_duty {command : WebCommand} (howes : d.owes = []) :
    Meets (agenda (.web k)).monitor (Settled (.web k)) d (webCommand subscriberId activeSubscriptions command) := by
  cases command with
  | subscribe topicFilter qosVal => exact webSubscribe_duty howes
  | unsubscribe topicFilter => exact webUnsubscribe_duty howes
  | _ => exact webText_duty howes

theorem handleWsSession_duty (howes : d.owes = []) :
    Meets (agenda (.web k)).monitor (Settled (.web k)) d (handleWsSession subscriberId activeSubscriptions) := by
  unfold handleWsSession
  apply free_ask
  · exact unlisted_free rfl nofun
  intro event
  match event with
  | .frame (.text command) => exact webCommand_duty howes
  | .frame (.ping bytes) =>
    apply free_run
    · exact unlisted_free rfl nofun
    exact .ret howes
  | .frame .close => exact webCleanup_duty howes
  | .frame .other => exact .ret howes
  | .closed => exact webCleanup_duty howes
  | .forwarded message =>
    apply free_ask
    · exact unlisted_free rfl nofun
    intro sent
    cases sent with
    | true => exact .ret howes
    | false => exact webCleanup_duty howes

theorem publishMessage_duty {topic payload : String} {qos : UInt8} {retain : Bool} (howes : d.owes = []) :
    Meets (agenda (.request m)).monitor (Settled (.request m)) d (publishMessage topic payload qos retain) := by
  obtain ⟨n, owes⟩ := d
  subst howes
  have hend : ∀ n, Meets (agenda (.request m)).monitor (Settled (.request m)) ⟨n, []⟩ (do
      metrics .incrementMessagesPublished
      run (.lookup topic)
      return .exited true) := by
    intro n
    apply free_run
    · exact unlisted_free rfl nofun
    apply begun_run
    · trivial
    intro _
    exact .ret rfl
  unfold publishMessage
  apply begun_run
  · trivial
  intro _
  cases retain with
  | false => exact hend _
  | true =>
    have hfollows : follows (.request m) (n.next (.sendRouter (.Publish topic (asBytes payload)
        ((QoS.fromU8 qos).getD .AtMostOnce) true "web-ui")) ()) (.sendRouter (.Publish topic (asBytes payload)
        ((QoS.fromU8 qos).getD .AtMostOnce) true "web-ui")) () = if payload.isEmpty then [] else
          [.retainedInsert topic { topic, payload := asBytes payload, qos := (QoS.fromU8 qos).getD .AtMostOnce }] := by
      change (if (asBytes payload).isEmpty then _ else _) = _
      rw [asBytes_isEmpty]
    rw [hfollows]
    cases payload.isEmpty with
    | true => exact hend _
    | false =>
      apply owed_run
      · rfl
      intro _
      exact hend _

theorem deleteRetainedMessage_duty {topic : String} (howes : d.owes = []) :
    Meets (agenda (.request m)).monitor (Settled (.request m)) d (deleteRetainedMessage topic) := by
  obtain ⟨n, owes⟩ := d
  subst howes
  unfold deleteRetainedMessage
  apply begun_ask
  · trivial
  intro contained
  cases contained with
  | false => exact .ret rfl
  | true =>
    apply owed_run
    · rfl
    intro _
    apply owed_run
    · rfl
    intro _
    exact .ret rfl

theorem disconnectClient_duty {clientId : String} (howes : d.owes = []) :
    Meets (agenda (.request m)).monitor (Settled (.request m)) d (disconnectClient clientId) := by
  unfold disconnectClient
  apply free_ask
  · exact unlisted_free rfl nofun
  intro _
  exact .ret howes

end

/-- Every task keeps to its agenda. -/
theorem duties_cover (settings : Settings) : dutyObserver.Covers (brokerSystem settings) Settled where
  start := by
    intro node i c h
    cases i <;> cases c <;> first | rfl | cases h
  body := by
    intro i d c h
    cases i <;> cases c <;> first | exact h.elim | exact free_run (unlisted_free rfl nofun) (.ret h) | skip
    case router.router => exact routerLoop_duty h
    case connection.tcp =>
      obtain ⟨n, owes⟩ := d
      obtain rfl : owes = [] := h
      exact handleConnection_duty
    case connection.ws =>
      obtain rfl : d = ⟨Note.start, []⟩ := h
      exact handleWsMqttSession_duty
    case connection.tcpLoop => exact tcpLoop_duty h
    case connection.wsLoop => exact wsLoop_duty h
    case connection.wsLost => exact wsLost_duty h
    case web.webSession => exact handleWsSession_duty h
    case request.publishRequest => exact publishMessage_duty h
    case request.deleteRetainedRequest => exact deleteRetainedMessage_duty h
    case request.disconnectRequest => exact disconnectClient_duty h

theorem owes_of_settled {i : ThreadId} {d : Duty Note Action} {c : Control} (h : Settled i d c) : d.owes = [] := by
  cases i <;> cases c <;> first | exact h | exact h.elim | exact congrArg Duty.owes h

theorem body_only (settings : Settings) {i : ThreadId} {d : Duty Note Action} {c : Control} (h : Settled i d c) :
    Only (fun a => a.listed = true → Owable i a ∨ Begins i a) (body settings c) := by
  apply ((duties_cover settings).body h).within (I := fun d => ∀ b ∈ d.owes, Owable i b)
  · rw [owes_of_settled h]
    exact List.forall_mem_nil _
  · intro d a howable hallowed hlisted
    cases hallowed hlisted with
    | owed howes => exact .inl (howable a (howes ▸ List.mem_cons_self))
    | begun _ hbegins => exact .inr hbegins
  · intro d a r howable b hb
    cases Agenda.mem_next hb with
    | inl hfollows => exact follows_owable b hfollows
    | inr hrest => exact howable b hrest

/-- What the tasks owe after these events. -/
def duties (evs : List BrokerEvent) : ThreadId → Duty Note Action := dutyObserver.ghosts (fun _ => ⟨Note.start, []⟩) evs

end AtomMqtt
