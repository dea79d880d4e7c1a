import AtomMqtt.Effects
import AtomMqtt.PacketLoop

set_option autoImplicit false

/-! Terminated connections. A connection is terminated by its own DISCONNECT, by a request for its client, or by
a later CONNECT with its client id. Its loop asks for none of the three: what it decodes afterwards it handles
like any other packet. -/
namespace AtomMqtt
open Programs System

/-- The client id that a connection has registered, and whether the connection has been terminated. -/
structure Ending where
  client : Option String
  ended : Bool

def Ending.next (k : ConnId) (g : Ending) : BrokerEvent → Ending
  | .act (.connection j) (.sessionsInsert clientId _) _ =>
    if j = k then { g with client := some clientId } else { g with ended := g.ended || g.client == some clientId }
  -- the first action of a DISCONNECT
  | .act (.connection j) (.sessionsSetDisconnected clientId) _ =>
    if j = k then { g with ended := g.ended || g.client == some clientId } else g
  | .act (.request _) (.sessionsSetDisconnected clientId) found =>
    { g with ended := g.ended || (found && g.client == some clientId) }
  | _ => g

def terminated (k : ConnId) (evs : List BrokerEvent) : Bool :=
  (evs.foldl (Ending.next k) { client := none, ended := false }).ended

/-- The packet that the loop of connection `k` is about to take from its buffer. -/
def decodes (cfg : BrokerConfigState) (k : ConnId) : Option (ConnLoop × MqttPacket) :=
  match cfg.thread (.connection k) with
  | .running (.ret c) => c.connLoop.bind fun l => c.packet.map fun packet => (l, packet)
  | _ => none

/-- A write to the subscription tree, the retained messages, the wills or the sessions, whether or not it finds
    something to change, or a message to the router. -/
def Action.touches : Action → Bool
  | .sessionsInsert _ _ | .sessionsSetDisconnected _ | .sessionsRemove _ | .willsInsert _ _ | .willsRemove _
  | .subscribe _ _ _ | .unsubscribe _ _ | .unsubscribeAll _ | .retainedInsert _ _ | .retainedRemove _
  | .sendRouter _ => true
  | _ => false

structure Effectless (a : Action) (cfg cfg' : BrokerConfigState) : Prop where
  untouched : a.touches = false
  silent : ∀ message, a ≠ .sendRouter message
  subscriptions : cfg'.shared.shared.broker.subscriptions = cfg.shared.shared.broker.subscriptions
  retained : cfg'.shared.shared.broker.retained = cfg.shared.shared.broker.retained
  wills : cfg'.shared.shared.broker.wills = cfg.shared.shared.broker.wills
  sessions : cfg'.shared.shared.broker.sessions = cfg.shared.shared.broker.sessions

/-- The turn of connection `k` that begins here has no effect, whatever the other tasks do in the meantime. -/
def NoEffect (settings : Settings) (k : ConnId) (cfg : BrokerConfigState) : Prop :=
  ∀ evs cfg₁ a r cfg₂, (brokerSystem settings).RunWhere (fun evs cfg e _ => InTurn (.connection k) evs cfg e) cfg evs cfg₁ →
    (brokerSystem settings).Step cfg₁ (.act (.connection k) a r) cfg₂ →
      InTurn (.connection k) evs cfg₁ (.act (.connection k) a r) → Effectless a cfg₁ cfg₂

/-- What a terminated connection decodes has no effect. -/
def Spent (settings : Settings) (evs : List BrokerEvent) (cfg : BrokerConfigState) : Prop :=
  ∀ k, terminated k evs = true → (decodes cfg k).isSome = true → NoEffect settings k cfg

/-- The packet asks for nothing that its client is allowed. -/
def MqttPacket.inert (settings : Settings) (username : String) : MqttPacket → Bool
  | .V311 (.Publish p) => !settings.acl.authorizePublish username p.topic
  | .V311 (.Subscribe p) => p.filters.all fun filter => !settings.acl.authorizeSubscribe username filter.path
  | .V311 (.Unsubscribe p) => p.filters.isEmpty
  | .V311 .Disconnect => false
  | .V5 (.Publish p) => !settings.acl.authorizePublish username p.topic
  | .V5 (.Subscribe p) => p.filters.all fun filter => !settings.acl.authorizeSubscribe username filter.path
  | .V5 (.Unsubscribe p) => p.filters.isEmpty
  | .V5 (.Disconnect _) => false
  | _ => true

/-- What a terminated connection decodes asks for nothing. -/
def AsksNothing (settings : Settings) (evs : List BrokerEvent) (cfg : BrokerConfigState) : Prop :=
  ∀ k l packet, terminated k evs = true → decodes cfg k = some (l, packet) →
    packet.inert settings (l.username.getD "anonymous") = true

def Untouching (a : Action) : Prop := a.touches = false

def Touching (a : Action) : Prop := a.touches = true

def Counts (a : Action) : Prop := ∃ op, a = .metrics op

section
variable {settings : Settings} {clientId username : String} {hit : Action → Prop}

theorem soon_run {α : Type} {op : MetricsOp} {f : Unit → Broker α} (h : Soon Counts hit (f ())) :
    Soon Counts hit (run (.metrics op) >>= f) := .later ⟨op, rfl⟩ fun _ => h

theorem soon_hit {α : Type} {a : Action} {f : Unit → Broker α} (h : hit a) : Soon Counts hit (run a >>= f) := .now h

theorem acceptPublish_soon {topic : String} {payload : Bytes} {qos : QoS} {retain : Bool}
    (h : hit (.sendRouter (.Publish topic payload qos retain clientId))) :
    Soon Counts hit (acceptPublish clientId topic payload qos retain) := soon_hit h

theorem publish_soon {packet : MqttPacket} {p : V3.PublishPacket} (hpublish : packet.publish = some p)
    (hacl : settings.acl.authorizePublish username p.topic = true)
    (h : hit (.sendRouter (.Publish p.topic p.payload p.qos p.retain clientId))) :
    Soon Counts hit (processPacket settings packet clientId username) := by
  cases packet with
  | V311 packet =>
    cases packet with
    | Publish q =>
      cases hpublish
      apply soon_run
      apply soon_run
      rw [hacl]
      exact (acceptPublish_soon h).bind
    | _ => cases hpublish
  | V5 packet =>
    cases packet with
    | Publish q =>
      cases hpublish
      apply soon_run
      apply soon_run
      rw [hacl]
      exact (acceptPublish_soon h).bind
    | _ => cases hpublish

theorem subscribeFilters_soon {γ δ : Type} {filters : List γ} {path : γ → String} {qos : γ → QoS} {denied : δ}
    {granted : γ → δ}
    (h : (filters.all fun filter => !settings.acl.authorizeSubscribe username (path filter)) = false) :
    Soon Counts Touching (filters.mapM fun filter =>
      if !settings.acl.authorizeSubscribe username (path filter) then (return denied : Broker δ)
      else do
        acceptSubscription clientId (path filter) (qos filter)
        return granted filter) := by
  apply Soon.mapM
  · intro filter _
    cases settings.acl.authorizeSubscribe username (path filter) with
    | false => exact .inl ⟨denied, rfl⟩
    | true => exact .inr (Soon.now rfl)
  · obtain ⟨filter, hmem, hallowed⟩ := List.all_eq_false.mp h
    refine ⟨filter, hmem, ?_⟩
    rintro ⟨y, hy⟩
    have hacl : settings.acl.authorizeSubscribe username (path filter) = true := by
      cases hcase : settings.acl.authorizeSubscribe username (path filter) with
      | true => rfl
      | false => simp [hcase] at hallowed
    rw [hacl] at hy
    cases hy

theorem removeSubscriptions_soon {filters : List String} (h : filters.isEmpty = false) :
    Soon Counts Touching (removeSubscriptions clientId filters) := by
  cases filters with
  | nil => cases h
  | cons filter filters => exact Soon.now rfl

theorem processPacket_soon {packet : MqttPacket} (h : packet.inert settings username = false) :
    Soon Counts Touching (processPacket settings packet clientId username) := by
  cases packet with
  | V311 p =>
    cases p with
    | Publish p =>
      have hacl : settings.acl.authorizePublish username p.topic = true := by simpa [MqttPacket.inert] using h
      have hpublish : MqttPacket.publish (.V311 (.Publish p)) = some p := rfl
      exact publish_soon hpublish hacl rfl
    | Subscribe p => exact (subscribeFilters_soon h).bind
    | Unsubscribe p => exact (removeSubscriptions_soon h).bind
    | Disconnect => exact soon_hit rfl
    | _ => cases h
  | V5 p =>
    cases p with
    | Publish p =>
      have hacl : settings.acl.authorizePublish username p.topic = true := by simpa [MqttPacket.inert] using h
      exact publish_soon publish_v5 hacl rfl
    | Subscribe p => exact (subscribeFilters_soon h).bind
    | Unsubscribe p => exact (removeSubscriptions_soon h).bind
    | Disconnect p => exact soon_hit rfl
    | _ => cases h

theorem subscribeFilters_untouching {γ δ : Type} {filters : List γ} {path : γ → String} {qos : γ → QoS} {denied : δ}
    {granted : γ → δ}
    (h : (filters.all fun filter => !settings.acl.authorizeSubscribe username (path filter)) = true) :
    Only Untouching (filters.mapM fun filter =>
      if !settings.acl.authorizeSubscribe username (path filter) then (return denied : Broker δ)
      else do
        acceptSubscription clientId (path filter) (qos filter)
        return granted filter) := by
  apply Only.mapM
  intro filter hmem
  rw [if_pos (List.all_eq_true.mp h filter hmem)]
  exact .ret _

theorem removeSubscriptions_untouching {filters : List String} (h : filters.isEmpty = true) :
    Only Untouching (removeSubscriptions clientId filters) := by
  cases filters with
  | nil => exact only_run_last rfl
  | cons filter filters => cases h

theorem processPacket_untouching {packet : MqttPacket} (h : packet.inert settings username = true) :
    Only Untouching (processPacket settings packet clientId username) := by
  cases packet with
  | V311 p =>
    cases p with
    | Publish p =>
      have hdenied : settings.acl.authorizePublish username p.topic = false := by simpa [MqttPacket.inert] using h
      apply publish_only rfl fun _ => rfl
      intro hacl
      rw [hdenied] at hacl
      cases hacl
    | Subscribe p => exact (subscribeFilters_untouching h).bind fun _ => only_run rfl (.ret _)
    | Unsubscribe p => exact (removeSubscriptions_untouching h).bind fun _ => .ret _
    | Disconnect => cases h
    | _ => exact .ret _
  | V5 p =>
    cases p with
    | Publish p =>
      have hdenied : settings.acl.authorizePublish username p.topic = false := by simpa [MqttPacket.inert] using h
      apply publish_only publish_v5 fun _ => rfl
      intro hacl
      rw [hdenied] at hacl
      cases hacl
    | Subscribe p => exact (subscribeFilters_untouching h).bind fun _ => only_run rfl (.ret _)
    | Unsubscribe p => exact (removeSubscriptions_untouching h).bind fun _ => .ret _
    | Disconnect p => cases h
    | _ => exact .ret _

theorem handlePacket_untouching {l : ConnLoop} {packet : MqttPacket} {size : ℕ} {again : ConnLoop → Control}
    (h : packet.inert settings (l.username.getD "anonymous") = true) :
    Only Untouching (handlePacket settings l packet size again) := by
  unfold handlePacket
  apply only_run
  · rfl
  refine (processPacket_untouching h).bind fun result => ?_
  match result with
  | .error _ => exact .ret _
  | .ok none => exact .ret _
  | .ok (some response) =>
    have hwrite : Only Untouching (writePacket .response response) := writePacket_only (fun _ => rfl) (fun _ => rfl) response
    refine hwrite.bind fun written => ?_
    cases written <;> exact .ret _

theorem handlePacket_soon {l : ConnLoop} {packet : MqttPacket} {size : ℕ} {again : ConnLoop → Control}
    (h : Soon Counts hit (processPacket settings packet l.clientId (l.username.getD "anonymous"))) :
    Soon Counts hit (handlePacket settings l packet size again) := by
  unfold handlePacket
  apply soon_run
  exact h.bind

end

section
variable {settings : Settings} {cfg cfg' : BrokerConfigState} {k : ConnId} {l : ConnLoop} {packet : MqttPacket}

theorem decodes_iff : decodes cfg k = some (l, packet) ↔
    ∃ c, cfg.thread (.connection k) = .running (.ret c) ∧ c.connLoop = some l ∧ c.packet = some packet := by
  constructor
  · intro h
    unfold decodes at h
    split at h
    · rename_i c hthread
      obtain ⟨l', hl, hmap⟩ := Option.bind_eq_some_iff.mp h
      obtain ⟨packet', hpacket, heq⟩ := Option.map_eq_some_iff.mp hmap
      cases heq
      exact ⟨c, hthread, hl, hpacket⟩
    · cases h
  · rintro ⟨c, hthread, hl, hpacket⟩
    rw [decodes, hthread]
    simp [hl, hpacket]

theorem body_of_packet (settings : Settings) {c : Control} (hl : c.connLoop = some l) (hpacket : c.packet = some packet) :
    ∃ size again, body settings c = handlePacket settings l packet size again := by
  obtain ⟨l', size, rfl | rfl, hdecode⟩ := loop_of_packet hpacket
  · refine ⟨size, .tcpLoop, ?_⟩
    cases hl
    rw [body, tcpLoop, hdecode]
  · refine ⟨size, .wsLoop, ?_⟩
    cases hl
    rw [body, wsLoop, hdecode]

theorem effectless_of_step {a : Action} {r : Reply a} (h : a.touches = false)
    (step : (brokerSystem settings).Step cfg (.act (.connection k) a r) cfg') : Effectless a cfg cfg' := by
  cases step with
  | @act _ _ _ _ _ node _ _ _ hperform =>
    have hbroker := (node_performed hperform).1.broker
    have hsame : node.shared.broker.subscriptions = cfg.shared.shared.broker.subscriptions ∧
        node.shared.broker.retained = cfg.shared.shared.broker.retained ∧
        node.shared.broker.wills = cfg.shared.shared.broker.wills ∧
        node.shared.broker.sessions = cfg.shared.shared.broker.sessions := by
      rw [hbroker]
      cases a <;> first | exact ⟨rfl, rfl, rfl, rfl⟩ | cases h
    refine ⟨h, ?_, hsame.1, hsame.2.1, hsame.2.2.1, hsame.2.2.2⟩
    rintro message rfl
    cases h

theorem touches_goes (i : ThreadId) (node : Node) (a : Action) (h : Counts a ∨ Touching a) :
    ∃ input node' r, (brokerSystem settings).perform i node a input = some (node', r) := by
  refine ⟨.go, ?_⟩
  cases h with
  | inl hcounts =>
    obtain ⟨op, rfl⟩ := hcounts
    exact ⟨_, _, rfl⟩
  | inr htouches => cases a <;> first | exact ⟨_, _, rfl⟩ | cases htouches

theorem noEffect_of_inert (hdecodes : decodes cfg k = some (l, packet))
    (h : packet.inert settings (l.username.getD "anonymous") = true) : NoEffect settings k cfg := by
  obtain ⟨c, hthread, hl, hpacket⟩ := decodes_iff.mp hdecodes
  obtain ⟨size, again, hbody⟩ := body_of_packet settings hl hpacket
  have hturn : Only Untouching ((brokerSystem settings).body (.connection k) c) := by
    change Only Untouching (body settings c)
    rw [hbody]
    exact handlePacket_untouching h
  intro evs cfg₁ a r cfg₂ hrun step hin
  exact effectless_of_step (only_of_turn _ hthread hturn hrun step hin) step

/-- The turn of a connection left to itself comes to what its packet asks for. -/
theorem performs_of_soon {hit : Action → Prop} (hhit : ∀ a, hit a → Touching a)
    (hdecodes : decodes cfg k = some (l, packet))
    (h : Soon Counts hit (processPacket settings packet l.clientId (l.username.getD "anonymous"))) :
    ∃ evs cfg₁ a r cfg₂,
      (brokerSystem settings).RunWhere (fun evs cfg e _ => InTurn (.connection k) evs cfg e) cfg evs cfg₁ ∧
      (brokerSystem settings).Step cfg₁ (.act (.connection k) a r) cfg₂ ∧
      InTurn (.connection k) evs cfg₁ (.act (.connection k) a r) ∧ hit a := by
  obtain ⟨c, hthread, hl, hpacket⟩ := decodes_iff.mp hdecodes
  obtain ⟨size, again, hbody⟩ := body_of_packet settings hl hpacket
  have hturn : Soon Counts hit ((brokerSystem settings).body (.connection k) c) := by
    change Soon Counts hit (body settings c)
    rw [hbody]
    exact handlePacket_soon h
  exact reaches_of_turn _ (fun node a ha => touches_goes _ node a (ha.imp_right (hhit a))) hthread hturn

theorem inert_of_noEffect (hdecodes : decodes cfg k = some (l, packet)) (h : NoEffect settings k cfg) :
    packet.inert settings (l.username.getD "anonymous") = true := by
  by_contra hinert
  have hsoon : Soon Counts Touching (processPacket settings packet l.clientId (l.username.getD "anonymous")) :=
    processPacket_soon (Bool.eq_false_iff.mpr hinert)
  obtain ⟨evs, cfg₁, a, r, cfg₂, hrun, step, hin, htouches⟩ := performs_of_soon (fun _ ha => ha) hdecodes hsoon
  have huntouched := (h evs cfg₁ a r cfg₂ hrun step hin).untouched
  rw [htouches] at huntouched
  cases huntouched

theorem spent_iff_asksNothing (evs : List BrokerEvent) : Spent settings evs cfg ↔ AsksNothing settings evs cfg := by
  constructor
  · intro h k l packet hended hdecodes
    exact inert_of_noEffect hdecodes (h k hended (by rw [hdecodes]; rfl))
  · intro h k hended hsome
    obtain ⟨⟨l, packet⟩, hdecodes⟩ := Option.isSome_iff_exists.mp hsome
    exact noEffect_of_inert hdecodes (h k l packet hended hdecodes)

end

/-- In every run, a terminated connection has no further effect if and only if what it decodes asks for nothing. -/
theorem spent_iff {settings : Settings} {evs : List BrokerEvent} {cfg : BrokerConfigState} :
    (brokerSystem settings).RunWhere (fun evs _ e cfg' => Spent settings (evs ++ [e]) cfg') initial evs cfg ↔
      (brokerSystem settings).RunWhere (fun evs _ e cfg' => AsksNothing settings (evs ++ [e]) cfg') initial evs cfg := by
  constructor
  · intro hrun
    apply hrun.mono
    intro evs _ e cfg' hspent
    exact (spent_iff_asksNothing _).mp hspent
  · intro hrun
    apply hrun.mono
    intro evs _ e cfg' hasks
    exact (spent_iff_asksNothing _).mpr hasks

def lateMessage : MqttPacket :=
  .V311 (.Publish { topic := "t", payload := [1], qos := .AtMostOnce, retain := false, packetId := none })

def lateMoves : List (List BrokerMove) :=
  [joinMoves 0 "c" true ++ [.act (.connection 0)
      (.received (.data (sentBytes (.V311 .Disconnect) ++ sentBytes lateMessage)))] ++ turns (.connection 0) 4,
    joinMoves 0 "c" true ++ [.spawn (.request 0) (.disconnectRequest "c")] ++ turns (.request 0) 1 ++
      [.act (.connection 0) (.received (.data (sentBytes lateMessage)))],
    joinMoves 0 "c" true ++ joinMoves 1 "c" true ++
      [.act (.connection 0) (.received (.data (sentBytes lateMessage)))]]

/-- The turn of connection `k` that begins here may send this message to the router. -/
def Forwards (settings : Settings) (k : ConnId) (cfg : BrokerConfigState) (message : BrokerMessage) : Prop :=
  ∃ evs cfg₁ cfg₂,
    (brokerSystem settings).RunWhere (fun evs cfg e _ => InTurn (.connection k) evs cfg e) cfg evs cfg₁ ∧
    (brokerSystem settings).Step cfg₁ (.act (.connection k) (.sendRouter message) ()) cfg₂ ∧
    InTurn (.connection k) evs cfg₁ (.act (.connection k) (.sendRouter message) ())

theorem forwards_of_publish {settings : Settings} {cfg : BrokerConfigState} {k : ConnId} {l : ConnLoop}
    {packet : MqttPacket} {p : V3.PublishPacket} (hdecodes : decodes cfg k = some (l, packet))
    (hpublish : packet.publish = some p)
    (hacl : settings.acl.authorizePublish (l.username.getD "anonymous") p.topic = true) :
    Forwards settings k cfg (.Publish p.topic p.payload p.qos p.retain l.clientId) := by
  have hsoon : Soon Counts (fun a => a = .sendRouter (.Publish p.topic p.payload p.qos p.retain l.clientId))
      (processPacket settings packet l.clientId (l.username.getD "anonymous")) := publish_soon hpublish hacl rfl
  have htouching : ∀ a, a = .sendRouter (.Publish p.topic p.payload p.qos p.retain l.clientId) → Touching a := by
    rintro a rfl
    rfl
  obtain ⟨evs, cfg₁, a, r, cfg₂, hrun, step, hin, rfl⟩ := performs_of_soon htouching hdecodes hsoon
  exact ⟨evs, cfg₁, cfg₂, hrun, step, hin⟩

theorem late_decodes : ∀ moves ∈ lateMoves, (execute openSettings moves).map (fun r =>
    (terminated 0 r.1, (decodes r.2 0).map fun d => (d.1.clientId, d.2))) = some (true, some ("c", lateMessage)) := by
  decide +kernel

theorem late_forwards {moves : List BrokerMove} (h : moves ∈ lateMoves) :
    ∃ evs cfg, execute openSettings moves = some (evs, cfg) ∧ terminated 0 evs = true ∧
      (decodes cfg 0).isSome = true ∧ Forwards openSettings 0 cfg (.Publish "t" [1] .AtMostOnce false "c") := by
  obtain ⟨⟨evs, cfg⟩, hexec, heq⟩ := Option.map_eq_some_iff.mp (late_decodes moves h)
  simp only [Prod.mk.injEq] at heq
  obtain ⟨⟨l, packet⟩, hdecodes, hpacket⟩ := Option.map_eq_some_iff.mp heq.2
  simp only [Prod.mk.injEq] at hpacket
  obtain ⟨hclient, rfl⟩ := hpacket
  have hpublish : lateMessage.publish =
      some { topic := "t", payload := [1], qos := .AtMostOnce, retain := false, packetId := none } := rfl
  have hforwards : Forwards openSettings 0 cfg (.Publish "t" [1] .AtMostOnce false l.clientId) :=
    forwards_of_publish hdecodes hpublish rfl
  rw [hclient] at hforwards
  exact ⟨evs, cfg, hexec, heq.1, by rw [hdecodes]; rfl, hforwards⟩

/-- In each of these runs the connection is terminated, and the PUBLISH that it decodes afterwards goes to the router. -/
theorem spent_fails : (∀ moves ∈ lateMoves, ∃ evs cfg, execute openSettings moves = some (evs, cfg) ∧
      terminated 0 evs = true ∧ Forwards openSettings 0 cfg (.Publish "t" [1] .AtMostOnce false "c")) ∧
    ¬ ∀ evs cfg, (brokerSystem openSettings).Run initial evs cfg → Spent openSettings evs cfg := by
  constructor
  · intro moves hmoves
    obtain ⟨evs, cfg, hexec, hended, _, hforwards⟩ := late_forwards hmoves
    exact ⟨evs, cfg, hexec, hended, hforwards⟩
  · intro hall
    obtain ⟨evs, cfg, hexec, hended, hsome, evs', cfg₁, cfg₂, hrun, step, hin⟩ := late_forwards List.mem_cons_self
    exact (hall evs cfg (execute_run hexec) 0 hended hsome evs' cfg₁ _ _ cfg₂ hrun step hin).silent _ rfl

end AtomMqtt
