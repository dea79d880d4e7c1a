import AtomMqtt.ConnectParity
import AtomMqtt.PacketTraces
import AtomMqtt.Restore
import AtomMqtt.SubscriptionRefinement

set_option autoImplicit false

/-! What an accepted CONNECT leaves of the client's past. The connect phases overwrite the session of the client
and leave its subscriptions alone, whatever the clean flag says, and their CONNACK always says that there was no
session. -/
namespace AtomMqtt
open Programs

/-- The event is not about subscriptions. -/
def PersistEvent.KeepsSubscriptions (event : PersistEvent) : Prop :=
  ∀ (db : Database) (sender : ThreadId), (db.execute sender event).subscriptions = db.subscriptions

/-- From every state the program comes to its end, writes these CONNACKs, and leaves the subscriptions alone. -/
def Spares {α : Type} (k : ConnId) (input : Action → Input) (p : Broker α) (sent : List Bytes) : Prop :=
  ∀ s : Shared, ∃ tr s' x, runAlone (.connection k) input p s = some (tr, s', x) ∧ connacks tr = sent ∧
    s'.broker.subscriptions = s.broker.subscriptions ∧
    ∃ events : List PersistEvent, (∀ event ∈ events, event.KeepsSubscriptions) ∧
      s'.events = s.events ++ events.map fun event => (.connection k, event)

section
variable {α β : Type} {k : ConnId} {input : Action → Input} {settings : Settings} {c : ConnectFields} {username : String}
  {buf bytes : Bytes} {ok : Bool}

theorem Spares.bind {p : Broker α} {f : α → Broker β} {sent sent' : List Bytes} (h : Spares k input p sent)
    (hf : ∀ x, Spares k input (f x) sent') : Spares k input (p >>= f) (sent ++ sent') := by
  intro s
  obtain ⟨tr, s', x, hrun, hconnacks, hsubscriptions, events, hkeeps, hevents⟩ := h s
  obtain ⟨tr', s'', y, hrun', hconnacks', hsubscriptions', events', hkeeps', hevents'⟩ := hf x s'
  refine ⟨tr ++ tr', s'', y, runOn_bind hrun hrun', ?_, hsubscriptions'.trans hsubscriptions, events ++ events', ?_, ?_⟩
  · rw [← hconnacks, ← hconnacks']
    exact List.filterMap_append
  · exact List.forall_mem_append.mpr ⟨hkeeps, hkeeps'⟩
  · rw [hevents', hevents, List.map_append, List.append_assoc]

theorem Spares.andThen {p : Broker α} {f : α → Broker β} {sent : List Bytes} (h : Spares k input p [])
    (hf : ∀ x, Spares k input (f x) sent) : Spares k input (p >>= f) sent := h.bind hf

theorem spares_return (x : α) : Spares k input (pure x : Broker α) [] :=
  fun s => ⟨[], s, x, rfl, rfl, rfl, [], nofun, (List.append_nil _).symm⟩

theorem spares_event {event : PersistEvent} (h : event.KeepsSubscriptions) : Spares k input (sendEvent event) [] :=
  fun _ => ⟨_, _, _, rfl, rfl, rfl, [event], List.forall_mem_singleton.mpr h, rfl⟩

theorem spares_metrics (op : MetricsOp) : Spares k input (metrics op) [] :=
  fun _ => ⟨_, _, _, rfl, rfl, rfl, [], nofun, (List.append_nil _).symm⟩

theorem spares_registerSession : Spares k input (registerSession c username) [] := by
  have hrest : ∀ clientId, Spares k input (do
      run (.sessionsSetDisconnected clientId)
      run (.sessionsInsert clientId
        (SessionState.new clientId c.version c.cleanSession c.keepAlive (some username)))
      metrics .incrementClientsConnected
      return clientId : Broker String) [] := by
    intro clientId
    refine Spares.andThen (fun _ => ⟨_, _, _, rfl, rfl, rfl, [], nofun, (List.append_nil _).symm⟩) fun _ => ?_
    refine Spares.andThen (fun _ => ⟨_, _, _, rfl, rfl, rfl, [], nofun, (List.append_nil _).symm⟩) fun _ => ?_
    exact (spares_metrics _).andThen fun _ => spares_return clientId
  unfold registerSession
  cases c.clientId.isEmpty with
  | false => exact hrest c.clientId
  | true =>
    have hid : Spares k input (ask .generateClientId) [] :=
      fun _ => ⟨_, _, _, rfl, rfl, rfl, [], nofun, (List.append_nil _).symm⟩
    exact hid.andThen hrest

theorem spares_storeWill (clientId : String) (will : WillMessage) : Spares k input (storeWill clientId will) [] := by
  refine Spares.andThen (fun _ => ⟨_, _, _, rfl, rfl, rfl, [], nofun, (List.append_nil _).symm⟩) fun _ => ?_
  exact spares_event fun _ _ => rfl

theorem spares_saveSession (clientId : String) : Spares k input (saveSession clientId c username) [] :=
  spares_event fun _ _ => rfl

theorem spares_writeConnack (packet : MqttPacket) :
    Spares k (peer bytes ok) (writePacket .connack packet) [sentBytes packet] := by
  rw [writePacket, encodePacket_sentBytes]
  have hwrite : Spares k (peer bytes ok) (ask (.write .connack (sentBytes packet))) [sentBytes packet] :=
    fun _ => ⟨_, _, _, rfl, rfl, rfl, [], nofun, (List.append_nil _).symm⟩
  refine hwrite.bind fun written => ?_
  cases written with
  | false => exact spares_return false
  | true => exact (spares_metrics _).andThen fun _ => (spares_metrics _).andThen fun _ => spares_return true

theorem spares_connectionsInsert (clientId : String) : Spares k input (run (.connectionsInsert clientId)) [] :=
  fun _ => ⟨_, _, _, rfl, rfl, rfl, [], nofun, (List.append_nil _).symm⟩

theorem spares_acceptTcp (hauth : settings.authenticator.authenticate settings.config.allowAnonymous c.username c.password =
    .Success username) :
    Spares k (peer bytes ok) (acceptTcp settings buf c) [sentBytes (acceptedConnack c.version)] := by
  unfold acceptTcp
  rw [hauth]
  refine spares_registerSession.andThen fun clientId => ?_
  have hend : Spares k (peer bytes ok) (enterTcpLoop buf c clientId username) [sentBytes (acceptedConnack c.version)] := by
    refine (spares_saveSession clientId).andThen fun _ => (spares_writeConnack _).bind fun written => ?_
    cases written with
    | false => exact spares_return _
    | true =>
      refine (spares_connectionsInsert clientId).andThen fun _ => ?_
      split <;> exact spares_return _
  cases c.will with
  | none => exact hend
  | some will => exact (spares_storeWill clientId will).andThen fun _ => hend

theorem spares_acceptWs (hauth : settings.authenticator.authenticate settings.config.allowAnonymous c.username c.password =
    .Success username) :
    Spares k (peer bytes ok) (acceptWs settings buf c) [sentBytes (acceptedConnack c.version)] := by
  unfold acceptWs
  rw [hauth]
  refine spares_registerSession.andThen fun clientId => (spares_saveSession clientId).andThen fun _ => ?_
  refine (spares_writeConnack _).bind fun written => ?_
  cases written with
  | false => exact spares_return _
  | true =>
    rw [if_pos rfl]
    cases c.version <;> dsimp only <;> split
    · exact (spares_connectionsInsert clientId).andThen fun _ => spares_return _
    · exact spares_return _
    · exact (spares_connectionsInsert clientId).andThen fun _ => spares_return _
    · exact spares_return _

end

def connack (version : ProtocolVersion) (sessionPresent : Bool) : MqttPacket :=
  match version with
  | .V311 => .V311 (.ConnAck { sessionPresent, returnCode := .Accepted })
  | .V5 => .V5 (.ConnAck { sessionPresent, reasonCode := .Success, properties := V5.Properties.new })

def assignedId (c : ConnectFields) (broker : BrokerState) : String :=
  if c.clientId.isEmpty then broker.generateClientId.1 else c.clientId

/-- The CONNACKs that a handler writes up to its loop, and the node then, if nobody else does anything. -/
def afterConnect (k : ConnId) (input : Action → Input) (p : Broker Control) (node : Node) : Option (List Bytes × Node) :=
  (runAlone (.connection k) input p node.shared).map fun last => (connacks last.1, { node with shared := last.2.1 })

/-- The tree and, once its events are committed, the database have no subscription of the client. -/
def Unsubscribed (clientId : String) (node : Node) : Prop :=
  (∀ filter, ¬ node.shared.broker.subscriptions.Has clientId filter) ∧
    ∀ filter, node.written.subscriptions.lookup (clientId, filter) = none

/-- The CONNECT begins a session anew, or goes on with the one that there is. -/
def Resumes (c : ConnectFields) (before after : Node) (sent : List Bytes) : Prop :=
  let clientId := assignedId c before.shared.broker
  if c.cleanSession then Unsubscribed clientId after ∧ sent = [sentBytes (connack c.version false)]
  else
    (∀ s, s.clientId = clientId →
      (s ∈ after.shared.broker.subscriptions.allSubscriptions ↔ s ∈ before.shared.broker.subscriptions.allSubscriptions)) ∧
    sent = [sentBytes (connack c.version (before.shared.broker.sessions.lookup clientId).isSome)]

theorem sentBytes_connack {version : ProtocolVersion} {present : Bool}
    (h : sentBytes (connack version false) = sentBytes (connack version present)) : present = false := by
  cases present with
  | false => rfl
  | true =>
    have hne : sentBytes (connack version false) ≠ sentBytes (connack version true) := by cases version <;> decide +kernel
    exact absurd h hne

section
variable {settings : Settings} {k : ConnId} {c : ConnectFields} {username : String} {buf : Bytes} {sent : Bool}
  {packet : MqttPacket}

theorem written_of_events {node : Node} {shared : Shared} {sender : ThreadId} {events : List PersistEvent}
    (hkeeps : ∀ event ∈ events, event.KeepsSubscriptions)
    (hevents : shared.events = node.shared.events ++ events.map fun event => (sender, event)) :
    ({ node with shared } : Node).written.subscriptions = node.written.subscriptions := by
  rw [Node.written, Node.written, hevents, List.foldl_append, List.foldl_map]
  apply List.foldlRecOn (motive := fun db : Database =>
    db.subscriptions = (node.shared.events.foldl (fun db event => db.execute event.1 event.2) node.database).subscriptions)
  · rfl
  · intro db hdb event hevent
    exact (hkeeps event hevent db sender).trans hdb

theorem Spares.connects_iff {p : Broker Control} (h : Spares k (peer buf sent) p [sentBytes (acceptedConnack c.version)])
    (node : Node) : ∃ connacks after, afterConnect k (peer buf sent) p node = some (connacks, after) ∧
      (Resumes c node after connacks ↔
        if c.cleanSession then Unsubscribed (assignedId c node.shared.broker) node
        else node.shared.broker.sessions.lookup (assignedId c node.shared.broker) = none) := by
  obtain ⟨tr, s', ctrl, hrun, hconnacks, htree, events, hkeeps, hevents⟩ := h node.shared
  refine ⟨[sentBytes (acceptedConnack c.version)], { node with shared := s' }, ?_, ?_⟩
  · rw [afterConnect, hrun, Option.map_some, hconnacks]
  · have hwritten := written_of_events hkeeps hevents
    have haccepted : acceptedConnack c.version = connack c.version false := by cases c.version <;> rfl
    rw [Resumes, haccepted]
    cases c.cleanSession with
    | true =>
      simp only [if_true, and_true, Unsubscribed]
      rw [htree, hwritten]
    | false =>
      simp only [Bool.false_eq_true, if_false]
      rw [htree]
      constructor
      · rintro ⟨-, hsent⟩
        exact Option.isSome_eq_false_iff.mp (sentBytes_connack (List.cons.inj hsent).1) |> Option.isNone_iff_eq_none.mp
      · intro hnone
        rw [hnone]
        exact ⟨fun _ _ => Iff.rfl, rfl⟩

end

/-- An accepted CONNECT with the clean flag leaves the client without subscriptions exactly if it had none, and one without
    the flag says rightly whether there was a session exactly if there was none: in both handlers, from every state. -/
theorem resumes_iff {settings : Settings} {buf : Bytes} {packet : MqttPacket} {c : ConnectFields} {username : String}
    {handler : Broker Control}
    (hfirst : decodeFirstPacket buf = .ok (some packet)) (hfields : connectFields packet = some c)
    (hauth : settings.authenticator.authenticate settings.config.allowAnonymous c.username c.password = .Success username)
    (hhandler : handler = handleConnection settings ∨ handler = handleConnectAfterDecode settings buf packet)
    (k : ConnId) (sent : Bool) (node : Node) :
    ∃ connacks after, afterConnect k (peer buf sent) handler node = some (connacks, after) ∧
      (Resumes c node after connacks ↔
        if c.cleanSession then Unsubscribed (assignedId c node.shared.broker) node
        else node.shared.broker.sessions.lookup (assignedId c node.shared.broker) = none) := by
  refine Spares.connects_iff ?_ node
  cases hhandler with
  | inl htcp =>
    rw [htcp]
    intro s
    have haccept : Spares k (peer buf sent) (acceptTcp settings buf c) _ := spares_acceptTcp hauth
    obtain ⟨tr, s', ctrl, hrun, hconnacks, hrest⟩ := haccept s
    refine ⟨⟨.read, .data buf⟩ :: tr, s', ctrl, ?_, hconnacks, hrest⟩
    have hread : runAlone (.connection k) (peer buf sent) (ask .read) s = some ([⟨.read, .data buf⟩], s, .data buf) := rfl
    refine runOn_bind hread ?_
    simp only [hfirst, hfields]
    exact hrun
  | inr hws =>
    rw [hws, handleConnectAfterDecode, hfields]
    exact spares_acceptWs hauth

theorem resumes_first : ∃ connacks after,
    afterConnect 0 (peer (sentBytes (.V311 (.Connect (plainConnectV3 "c" true none)))) true) (handleConnection openSettings)
      { shared := Shared.start .new [], database := .empty, life := 0 } = some (connacks, after) ∧
    Resumes { clientId := "c", version := .V311, keepAlive := 60, cleanSession := true, username := none, password := none,
              will := none } { shared := Shared.start .new [], database := .empty, life := 0 } after connacks := by
  have hfirst : decodeFirstPacket (sentBytes (.V311 (.Connect (plainConnectV3 "c" true none)))) =
      .ok (some (.V311 (.Connect (plainConnectV3 "c" true none)))) := by decide +kernel
  have hauth : openSettings.authenticator.authenticate openSettings.config.allowAnonymous none none =
      .Success "anonymous" := by decide +kernel
  obtain ⟨connacks, after, hconnect, hiff⟩ := resumes_iff hfirst rfl hauth (.inl rfl) 0 true
    { shared := Shared.start .new [], database := .empty, life := 0 }
  refine ⟨connacks, after, hconnect, hiff.mpr ⟨?_, fun _ => rfl⟩⟩
  rintro filter ⟨qos, hmem⟩
  cases hmem

def restoredNode : Node :=
  { shared := Shared.start (startupCleanup (Database.restore
      { Database.empty with sessions := (∅ : DashMap String SessionRow).insert "c" ⟨4, false, 60, none⟩ })).1 []
    database := { Database.empty with sessions := (∅ : DashMap String SessionRow).insert "c" ⟨4, false, 60, none⟩ }
    life := 1 }

theorem resumes_fails : ∃ connacks after,
    afterConnect 0 (peer (sentBytes (.V311 (.Connect (plainConnectV3 "c" false none)))) true) (handleConnection openSettings)
      restoredNode = some (connacks, after) ∧
    ¬ Resumes { clientId := "c", version := .V311, keepAlive := 60, cleanSession := false, username := none,
                password := none, will := none } restoredNode after connacks := by
  have hconnect : (afterConnect 0 (peer (sentBytes (.V311 (.Connect (plainConnectV3 "c" false none)))) true)
      (handleConnection openSettings) restoredNode).map Prod.fst = some [sentBytes (connack .V311 false)] := by
    decide +kernel
  obtain ⟨⟨connacks, after⟩, hconnect, hsent⟩ := Option.map_eq_some_iff.mp hconnect
  refine ⟨connacks, after, hconnect, ?_⟩
  rintro ⟨-, hresumed⟩
  have hsession : (restoredNode.shared.broker.sessions.lookup "c").isSome = true := by decide +kernel
  have hpresent : sentBytes (connack .V311 false) = sentBytes (connack .V311 true) := by
    have hsame := hsent.symm.trans hresumed
    change [sentBytes (connack .V311 false)] =
      [sentBytes (connack .V311 (restoredNode.shared.broker.sessions.lookup "c").isSome)] at hsame
    rw [hsession] at hsame
    exact (List.cons.inj hsame).1
  cases sentBytes_connack hpresent

end AtomMqtt
