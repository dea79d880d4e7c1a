import AtomMqtt.Effects
import AtomMqtt.Restore
import AtomMqtt.TaskSpec

set_option autoImplicit false

/-! Who may publish what is delivered. A message of a client is on the way in six places, from the CONNECT or
the PUBLISH that brings it to the router that takes it out. A step moves it from one to the next and never
changes its sender or its topic, so the rules have to allow it where it comes in. -/
namespace AtomMqtt
open Programs

/-- The places where a message under `topic` that comes from the task `sender` can be. -/
inductive Holds (node : Node) (g : ThreadId → Phase) (sender : ThreadId) (topic : String) : Prop
  | connected {will : WillMessage} (hwill : (g sender).will = some will) (htopic : will.topic = topic)
  | stored {clientId : String} {will : WillMessage}
      (hwill : node.shared.broker.wills.lookup clientId = some (sender, will)) (htopic : will.topic = topic)
  | saving {clientId : String} {payload : Bytes} {qos : ℤ} {retain : Bool} {delayInterval : UInt32}
      (hevent : (sender, .SaveWill clientId topic payload qos retain delayInterval) ∈ node.shared.events)
  | saved {clientId : String} {row : WillRow}
      (hrow : node.database.willMessages.lookup clientId = some (sender, row)) (htopic : row.topic = topic)
  | queued {payload : Bytes} {qos : QoS} {retain : Bool} {sourceClient : String}
      (hmessage : (sender, .Publish topic payload qos retain sourceClient) ∈ node.shared.queue)
  | carried {life : ℕ} {payload : Bytes} (hcarried : (g (.router life)).carried = some (sender, topic, payload))

def Action.Introduces (topic : String) : Action → Prop
  | .willsInsert _ will => will.topic = topic
  | .sendRouter (.Publish topic' _ _ _ _) => topic' = topic
  | _ => False

section
variable {settings : Settings} {node node' : Node} {i : ThreadId} {a : Action} {input : Input} {r : Reply a}

theorem queued_of_act {queue : List (ThreadId × BrokerMessage)} {sent : ThreadId × BrokerMessage}
    (h : sent ∈ a.onQueue i queue) : sent ∈ queue ∨ a = .sendRouter sent.2 ∧ sent.1 = i := by
  cases a with
  | sendRouter message =>
    cases List.mem_append.mp h with
    | inl h => exact .inl h
    | inr h =>
      rw [List.mem_singleton.mp h]
      exact .inr ⟨rfl, rfl⟩
  | recvRouter => exact .inl (List.mem_of_mem_tail h)
  | _ => exact .inl h

theorem saving_of_act {events : List (ThreadId × PersistEvent)} {event : ThreadId × PersistEvent}
    (h : event ∈ a.onEvents i events) : event ∈ events ∨ a = .sendEvent event.2 ∧ event.1 = i := by
  cases a with
  | sendEvent e =>
    cases List.mem_append.mp h with
    | inl h => exact .inl h
    | inr h =>
      rw [List.mem_singleton.mp h]
      exact .inr ⟨rfl, rfl⟩
  | _ => exact .inl h

theorem stored_of_act {wills : DashMap String (ThreadId × WillMessage)} {clientId : String} {sender : ThreadId}
    {will : WillMessage} (h : (a.onWills i wills).lookup clientId = some (sender, will)) :
    wills.lookup clientId = some (sender, will) ∨ sender = i ∧ a = .willsInsert clientId will := by
  cases a with
  | willsInsert clientId' will' =>
    cases DashMap.lookup_insert_eq_some.mp h with
    | inl hnew =>
      obtain ⟨rfl, hwill⟩ := hnew
      cases hwill
      exact .inr ⟨rfl, rfl⟩
    | inr hold => exact .inl hold.2
  | willsRemove clientId' => exact .inl (DashMap.lookup_erase_eq_some.mp h).2
  | _ => exact .inl h

theorem carried_of_act {g : Phase} {sender : ThreadId} {topic : String} {payload : Bytes}
    (hperform : node.perform i a input = some (node', r))
    (h : (g.next a r).carried = some (sender, topic, payload)) :
    g.carried = some (sender, topic, payload) ∨
    (∃ qos retain sourceClient, (sender, .Publish topic payload qos retain sourceClient) ∈ node.shared.queue) ∨
    ∃ clientId will, node.shared.broker.wills.lookup clientId = some (sender, will) ∧ will.topic = topic := by
  cases a with
  | recvRouter =>
    have hmem : r ∈ node.shared.queue := by
      rw [recvRouter_reply hperform]
      exact List.mem_cons_self
    obtain ⟨source, message⟩ := r
    cases message with
    | Publish topic' payload' qos retain sourceClient =>
      cases h
      exact .inr (.inl ⟨qos, retain, sourceClient, hmem⟩)
    | ClientDisconnected clientId cleanSession => cases h
  | willsRemove clientId =>
    have hreply := willsRemove_reply hperform
    simp only [Phase.next, Phase.carried] at h ⊢
    split at h
    · exact .inl h
    · obtain ⟨⟨source, will⟩, hfound, heq⟩ := Option.map_eq_some_iff.mp h
      cases heq
      exact .inr (.inr ⟨clientId, will, hreply.trans hfound, rfl⟩)
    · cases h
  | sendRouter message => cases message <;> exact .inl h
  | _ => exact .inl h

theorem connected_of_act {g : Phase} {will : WillMessage} (h : (g.next a r).will = some will) :
    g.will = some will ∨ ∃ clientId, a = .willsInsert clientId will := by
  cases a with
  | willsInsert clientId will' =>
    cases h
    exact .inr ⟨clientId, rfl⟩
  | sendRouter message => cases message <;> exact .inl h
  | _ => exact .inl h

theorem saveWill_allowed {g : Phase} {clientId topic : String} {payload : Bytes} {qos : ℤ} {retain : Bool}
    {delayInterval : UInt32}
    (h : allows settings i g (.sendEvent (.SaveWill clientId topic payload qos retain delayInterval))) :
    ∃ will, g.will = some will ∧ will.topic = topic := by
  cases i with
  | connection k =>
    obtain ⟨will, hwill, _, htopic⟩ := h
    exact ⟨will, hwill, htopic⟩
  | _ => exact h.elim

theorem Holds.of_act {g : ThreadId → Phase} {sender : ThreadId} {topic : String} (hallows : allows settings i (g i) a)
    (hperform : node.perform i a input = some (node', r))
    (h : Holds node' (Function.update g i ((g i).next a r)) sender topic) :
    Holds node g sender topic ∨ sender = i ∧ a.Introduces topic := by
  obtain ⟨heffect, hdatabase⟩ := node_perform_effect hperform
  cases h with
  | @connected will hwill htopic =>
    by_cases hi : sender = i
    · subst hi
      rw [Function.update_self] at hwill
      cases connected_of_act hwill with
      | inl h => exact .inl (.connected h htopic)
      | inr h =>
        obtain ⟨clientId, rfl⟩ := h
        exact .inr ⟨rfl, htopic⟩
    · rw [Function.update_of_ne hi] at hwill
      exact .inl (.connected hwill htopic)
  | stored hwill htopic =>
    rw [heffect.wills] at hwill
    cases stored_of_act hwill with
    | inl h => exact .inl (.stored h htopic)
    | inr h =>
      obtain ⟨rfl, rfl⟩ := h
      exact .inr ⟨rfl, htopic⟩
  | saving hevent =>
    rw [heffect.events] at hevent
    cases saving_of_act hevent with
    | inl h => exact .inl (.saving h)
    | inr h =>
      obtain ⟨rfl, rfl⟩ := h
      obtain ⟨will, hwill, htopic⟩ := saveWill_allowed hallows
      exact .inl (.connected hwill htopic)
  | saved hrow htopic =>
    rw [hdatabase] at hrow
    exact .inl (.saved hrow htopic)
  | queued hmessage =>
    rw [heffect.queue] at hmessage
    cases queued_of_act hmessage with
    | inl h => exact .inl (.queued h)
    | inr h =>
      obtain ⟨rfl, rfl⟩ := h
      exact .inr ⟨rfl, rfl⟩
  | @carried life payload hcarried =>
    by_cases hi : .router life = i
    · subst hi
      rw [Function.update_self] at hcarried
      rcases carried_of_act hperform hcarried with h | ⟨qos, retain, sourceClient, h⟩ | ⟨clientId, will, h, htopic⟩
      · exact .inl (.carried h)
      · exact .inl (.queued h)
      · exact .inl (.stored h htopic)
    · rw [Function.update_of_ne hi] at hcarried
      exact .inl (.carried hcarried)

theorem saved_of_execute {db : Database} {sender source : ThreadId} {event : PersistEvent} {clientId : String}
    {row : WillRow} (h : (db.execute source event).willMessages.lookup clientId = some (sender, row)) :
    db.willMessages.lookup clientId = some (sender, row) ∨
      sender = source ∧ event = .SaveWill clientId row.topic row.payload row.qos row.retain row.delayInterval := by
  cases event with
  | SaveWill clientId' topic payload qos retain delayInterval =>
    cases DashMap.lookup_insert_eq_some.mp h with
    | inl hnew =>
      obtain ⟨rfl, hrow⟩ := hnew
      cases hrow
      exact .inr ⟨rfl, rfl⟩
    | inr hold => exact .inl hold.2
  | RemoveWill clientId' => exact .inl (DashMap.lookup_erase_eq_some.mp h).2
  | _ => exact .inl h

theorem saved_of_commit {events : List (ThreadId × PersistEvent)} {db : Database} {sender : ThreadId} {clientId : String}
    {row : WillRow} (h : (events.foldl (fun db event => db.execute event.1 event.2) db).willMessages.lookup clientId =
      some (sender, row)) :
    db.willMessages.lookup clientId = some (sender, row) ∨
      (sender, .SaveWill clientId row.topic row.payload row.qos row.retain row.delayInterval) ∈ events := by
  induction events generalizing db with
  | nil => exact .inl h
  | cons event events ih =>
    cases ih h with
    | inl hdb =>
      cases saved_of_execute hdb with
      | inl h => exact .inl h
      | inr h =>
        obtain ⟨rfl, hevent⟩ := h
        rw [← hevent]
        exact .inr List.mem_cons_self
    | inr h => exact .inr (List.mem_cons_of_mem _ h)

theorem stored_of_inserts {wills : List (ThreadId × WillMessage)} {map : DashMap String (ThreadId × WillMessage)}
    {clientId : String} {sent : ThreadId × WillMessage}
    (h : (wills.foldl (fun map will => map.insert will.2.clientId will) map).lookup clientId = some sent) :
    map.lookup clientId = some sent ∨ sent ∈ wills := by
  induction wills generalizing map with
  | nil => exact .inl h
  | cons will wills ih =>
    cases ih h with
    | inl hmap =>
      cases DashMap.lookup_insert_eq_some.mp hmap with
      | inl hnew =>
        rw [hnew.2]
        exact .inr List.mem_cons_self
      | inr hold => exact .inl hold.2
    | inr h => exact .inr (List.mem_cons_of_mem _ h)

theorem stored_of_restore {db : Database} {clientId : String} {sender : ThreadId} {will : WillMessage}
    (h : db.restore.wills.lookup clientId = some (sender, will)) :
    ∃ savedId row, db.willMessages.lookup savedId = some (sender, row) ∧ row.topic = will.topic := by
  cases stored_of_inserts h with
  | inl h => cases h
  | inr h =>
    obtain ⟨⟨savedId, source, row⟩, hentry, heq⟩ := List.mem_map.mp h
    cases heq
    exact ⟨savedId, row, AList.mem_lookup_iff.mpr hentry, rfl⟩

theorem Holds.of_world {w : WorldStep} {ends : Bool} {g : ThreadId → Phase} {sender : ThreadId} {topic : String}
    (hworld : node.world w = some (node', ends)) (h : Holds node' g sender topic) : Holds node g sender topic := by
  cases w with
  | commit n =>
    cases hworld
    cases h with
    | connected hwill htopic => exact .connected hwill htopic
    | stored hwill htopic => exact .stored hwill htopic
    | saving hevent => exact .saving (List.mem_of_mem_drop hevent)
    | saved hrow htopic =>
      cases saved_of_commit hrow with
      | inl h => exact .saved h htopic
      | inr h =>
        rw [htopic] at h
        exact .saving (List.mem_of_mem_take h)
    | queued hmessage => exact .queued hmessage
    | carried hcarried => exact .carried hcarried
  | restart =>
    obtain ⟨rfl, rfl⟩ := restart_of_world hworld
    cases h with
    | connected hwill htopic => exact .connected hwill htopic
    | @stored clientId will hwill htopic =>
      have hwills : node.restart.shared.broker.wills = node.database.restore.wills := (startupCleanup_frame _).wills
      rw [hwills] at hwill
      obtain ⟨savedId, row, hrow, hsaved⟩ := stored_of_restore hwill
      exact .saved hrow (hsaved.trans htopic)
    | saving hevent =>
      obtain ⟨event, hmem, heq⟩ := List.mem_map.mp hevent
      obtain ⟨clientId, h⟩ := startupCleanup_events hmem
      cases h with
      | inl h => rw [h] at heq; cases heq
      | inr h => rw [h] at heq; cases heq
    | saved hrow htopic => exact .saved hrow htopic
    | queued hmessage => cases hmessage
    | carried hcarried => exact .carried hcarried

end

/-- If the sender is a connection, the rules let the user of its session publish under the topic. -/
def Vouched (settings : Settings) (g : ThreadId → Phase) (sender : ThreadId) (topic : String) : Prop :=
  ∀ k, sender = .connection k →
    ∃ session, (g sender).session = some session ∧ settings.acl.authorizePublish session.user topic = true

/-- The deliveries that a message goes through: what the router forwards, and what is retained. -/
def Delivers (topic : String) : ThreadId → Action → Prop
  | .router _, .forward _ (.V311 (.Publish p)) => p.topic = topic
  | .router _, .forward _ (.V5 (.Publish p)) => p.topic = topic
  | .router _, .forwardWeb _ (.Publish topic' _ _ _) | .router _, .forwardWeb _ (.Will topic' _ _ _) => topic' = topic
  | .router _, .retainedInsert topic' _ | .connection _, .retainedInsert topic' _ => topic' = topic
  | _, _ => False

def origin (g : Phase) : ThreadId → Option ThreadId
  | .router _ => g.carried.map Prod.fst
  | i => some i

/-- What is delivered of a client's message has a topic that its user may publish to. -/
def PublishAuthorised (settings : Settings) (evs : List BrokerEvent) : BrokerEvent → Prop
  | .act i a _ => ∀ topic sender, Delivers topic i a → origin (phases settings evs i) i = some sender →
      Vouched settings (phases settings evs) sender topic
  | _ => True

/-- The will that a connection stores has a topic that its user may publish to. -/
def willAuthorised (settings : Settings) (evs : List BrokerEvent) : BrokerEvent → Bool
  | .act (.connection k) (.willsInsert _ will) _ =>
    (phases settings evs (.connection k)).session.all fun session =>
      settings.acl.authorizePublish session.user will.topic
  | _ => true

section
variable {settings : Settings} {g : ThreadId → Phase} {i sender : ThreadId} {a : Action} {r : Reply a} {topic : String}

theorem Vouched.of_act (hallows : allows settings i (g i) a) (h : Vouched settings g sender topic) :
    Vouched settings (Function.update g i ((g i).next a r)) sender topic := by
  intro k hk
  obtain ⟨session, hsession, hacl⟩ := h k hk
  by_cases hi : sender = i
  · subst hi
    rw [Function.update_self]
    exact ⟨session, session_kept hallows hsession, hacl⟩
  · rw [Function.update_of_ne hi]
    exact ⟨session, hsession, hacl⟩

theorem vouched_of_introduces {evs : List BrokerEvent} (hallows : allows settings i (phases settings evs i) a)
    (hwill : willAuthorised settings evs (.act i a r) = true) (h : a.Introduces topic) :
    Vouched settings (phases settings evs) i topic := by
  intro k hk
  subst hk
  cases a with
  | willsInsert clientId will =>
    obtain ⟨session, howns, _⟩ := hallows
    rw [willAuthorised, howns.1] at hwill
    cases h
    exact ⟨session, howns.1, hwill⟩
  | sendRouter message =>
    cases message with
    | Publish topic' payload qos retain sourceClient =>
      obtain ⟨session, howns, _, hacl⟩ := hallows
      cases h
      exact ⟨session, howns.1, hacl⟩
    | ClientDisconnected clientId cleanSession => exact h.elim
  | _ => exact h.elim

theorem router_delivers {life : ℕ} {phase : Phase} (hallows : allows settings (.router life) phase a)
    (h : Delivers topic (.router life) a) : ∃ sender payload, phase.carried = some (sender, topic, payload) := by
  cases a with
  | forward clientId packet =>
    obtain ⟨sender, topic', payload, retain, hcarried, rfl⟩ := hallows
    cases h
    exact ⟨sender, payload, hcarried⟩
  | forwardWeb subscriberId message =>
    cases message with
    | Publish topic' payload qos sourceClient | Will topic' payload qos sourceClient =>
      obtain ⟨sender, hcarried⟩ := hallows
      cases h
      exact ⟨sender, payload, hcarried⟩
    | _ => exact h.elim
  | retainedInsert topic' message =>
    obtain ⟨_, sender, hcarried⟩ := hallows
    cases h
    exact ⟨sender, message.payload, hcarried⟩
  | _ => exact h.elim

theorem publishAuthorised_of_holds {evs : List BrokerEvent} {node : Node}
    (hallows : allows settings i (phases settings evs i) a)
    (hholds : ∀ sender topic, Holds node (phases settings evs) sender topic →
      Vouched settings (phases settings evs) sender topic) :
    PublishAuthorised settings evs (.act i a r) := by
  intro topic sender hdelivers horigin
  cases i with
  | router life =>
    obtain ⟨source, payload, hcarried⟩ := router_delivers hallows hdelivers
    rw [origin, hcarried] at horigin
    cases horigin
    exact hholds _ _ (.carried hcarried)
  | connection k =>
    cases horigin
    intro k' hk'
    cases a with
    | retainedInsert topic' message =>
      obtain ⟨_, session, howns, hacl⟩ := hallows
      cases hdelivers
      exact ⟨session, howns.1, hacl⟩
    | _ => exact hdelivers.elim
  | web k => exact hdelivers.elim
  | request n => exact hdelivers.elim

end

theorem holds_initial {sender : ThreadId} {topic : String} :
    ¬ Holds initial.shared (fun _ => Phase.start) sender topic := by
  intro h
  cases h with
  | connected hwill _ => cases hwill
  | stored hwill _ => cases hwill
  | saving hevent => cases hevent
  | saved hrow _ => cases hrow
  | queued hmessage => cases hmessage
  | carried hcarried => cases hcarried

/-- Wherever a client's message is in such a run, its user may publish it. -/
theorem vouched_of_run {settings : Settings} {evs : List BrokerEvent} {cfg : BrokerConfigState}
    (hrun : (brokerSystem settings).RunWhere (fun evs _ e _ => willAuthorised settings evs e = true) initial evs cfg) :
    ∀ sender topic, Holds cfg.shared (phases settings evs) sender topic →
      Vouched settings (phases settings evs) sender topic := by
  apply (covers settings).invariant (fun _ => rfl) (fun _ _ => rfl)
    (J := fun node g => ∀ sender topic, Holds node g sender topic → Vouched settings g sender topic) _ _ _ hrun
  · intro sender topic h
    exact (holds_initial h).elim
  · intro evs cfg cfg' i a r input hwill hallows hperform hinv sender topic h
    cases h.of_act hallows hperform with
    | inl h => exact (hinv sender topic h).of_act hallows
    | inr h =>
      obtain ⟨rfl, hintroduces⟩ := h
      exact (vouched_of_introduces hallows hwill hintroduces).of_act hallows
  · intro evs cfg w cfg' ends _ hworld hinv sender topic h
    exact hinv sender topic (h.of_world hworld)

/-- Where every stored will has a topic that its user may publish to, so has everything that is
    delivered of any client's messages, also over a restart. -/
theorem publishAuthorised_of_wills {settings : Settings} {evs : List BrokerEvent} {cfg : BrokerConfigState}
    (hrun : (brokerSystem settings).RunWhere (fun evs _ e _ => willAuthorised settings evs e = true) initial evs cfg) :
    (brokerSystem settings).RunWhere (fun evs _ e _ => PublishAuthorised settings evs e) initial evs cfg := by
  induction hrun with
  | nil => exact .nil
  | snoc run step ok ih =>
    apply System.RunWhere.snoc ih step
    cases step with
    | spawn _ _ => trivial
    | act hrunning hnext hperform =>
      exact publishAuthorised_of_holds ((covers settings).allows (fun _ => rfl) run hrunning hnext) (vouched_of_run run)
    | world _ => trivial

def publishSettings : Settings :=
  { openSettings with acl := { entries := [{ username := "app", filter := "a", access := .Publish }], enabled := true } }

def willMoves (topic : String) : List BrokerMove :=
  [.spawn (.router 0) .router, .spawn (.connection 0) .tcp, .spawn (.web 0) (.webSession "w" []),
    .act (.web 0) (.webFrame (.text (.subscribe topic 0)))] ++
  turns (.web 0) 4 ++
  [.act (.connection 0) (.received (.data (sentBytes (.V311 (.Connect
    { plainConnectV3 "c" true (some "app") with
      will := some { topic, message := [0x78], qos := .AtMostOnce, retain := false } })))))] ++
  turns (.connection 0) 10 ++ [.act (.connection 0) (.received .closed)] ++ turns (.connection 0) 4 ++
  turns (.router 0) 4

def webDelivery : BrokerEvent → Option (ThreadId × String × WebMessage)
  | .act i (.forwardWeb subscriberId message) _ => some (i, subscriberId, message)
  | _ => none

theorem eq_of_webDelivery {e : BrokerEvent} {i : ThreadId} {subscriberId : String} {message : WebMessage}
    (h : webDelivery e = some (i, subscriberId, message)) : e = .act i (.forwardWeb subscriberId message) () := by
  cases e with
  | act j a r =>
    cases a with
    | forwardWeb id m =>
      cases h
      rfl
    | _ => cases h
  | _ => cases h

theorem publishAuthorised_willMoves : ∃ evs cfg,
    (brokerSystem publishSettings).RunWhere (fun evs _ e _ => PublishAuthorised publishSettings evs e) initial evs cfg ∧
    evs.filterMap webDelivery = [(.router 0, "w", .Will "a" [0x78] 0 "c")] := by
  have hrun : (executeWhere publishSettings (willAuthorised publishSettings) (willMoves "a" ++ turns (.router 0) 1)).map
      (fun r => r.1.filterMap webDelivery) = some [(.router 0, "w", .Will "a" [0x78] 0 "c")] := by decide +kernel
  obtain ⟨⟨evs, cfg⟩, hexec, hdelivery⟩ := Option.map_eq_some_iff.mp hrun
  exact ⟨evs, cfg, publishAuthorised_of_wills (executeWhere_run (fun _ _ h => h) hexec), hdelivery⟩

/-- The rules let `app` publish under `a` alone, and its will goes out under `b`. -/
theorem will_unauthorised : ∃ evs cfg e cfg', (brokerSystem publishSettings).Run initial evs cfg ∧
    (brokerSystem publishSettings).Step cfg e cfg' ∧
    webDelivery e = some (.router 0, "w", .Will "b" [0x78] 0 "c") ∧ ¬ PublishAuthorised publishSettings evs e := by
  have hrun : (execute publishSettings (willMoves "b")).bind (fun r =>
      ((brokerSystem publishSettings).exec r.2 (.act (.router 0) .go)).map fun next =>
        (webDelivery next.1, (phases publishSettings r.1 (.router 0)).carried.map Prod.fst,
          (phases publishSettings r.1 (.connection 0)).session.map SessionState.user)) =
      some (some (.router 0, "w", .Will "b" [0x78] 0 "c"), some (.connection 0), some "app") := by decide +kernel
  obtain ⟨⟨evs, cfg⟩, hexec, hnext⟩ := Option.bind_eq_some_iff.mp hrun
  obtain ⟨⟨e, cfg'⟩, hstep, heq⟩ := Option.map_eq_some_iff.mp hnext
  simp only [Prod.mk.injEq] at heq
  obtain ⟨hdelivery, horigin, huser⟩ := heq
  refine ⟨evs, cfg, e, cfg', execute_run hexec, System.exec_step _ hstep, hdelivery, ?_⟩
  rw [eq_of_webDelivery hdelivery]
  intro hauthorised
  obtain ⟨session, hsession, hacl⟩ := hauthorised "b" (.connection 0) rfl horigin 0 rfl
  rw [hsession, Option.map_some, Option.some.injEq] at huser
  rw [huser] at hacl
  exact absurd hacl (by decide)

end AtomMqtt
