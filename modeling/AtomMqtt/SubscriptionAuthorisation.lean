import AtomMqtt.Effects
import AtomMqtt.TaskSpec

set_option autoImplicit false

/-! What the holders of subscriptions may read. The rules are asked when a subscription is made, for the user of
the connection that asks. It is kept under the client id alone, whose session may be of another user then or
later. -/
namespace AtomMqtt
open Programs

/-- The rules allow every subscription of a client that has a session to the user of this session. -/
def SubscriptionsAuthorised (settings : Settings) (state : BrokerState) : Prop :=
  ∀ clientId filter session, state.subscriptions.Has clientId filter → state.sessions.lookup clientId = some session →
    settings.acl.authorizeSubscribe session.user filter = true

def registeredUser (settings : Settings) (evs : List BrokerEvent) : ThreadId → Option String
  | .connection k => (phases settings evs (.connection k)).session.map SessionState.user
  | _ => none

/-- A new session may have what its client id has in the tree, and a subscription for a client whose
    session is of another user than the one that asks is allowed to that user too. -/
def KeepsAuthorised (settings : Settings) (evs : List BrokerEvent) (state : BrokerState) : BrokerEvent → Prop
  | .act _ (.sessionsInsert clientId session) _ =>
    ∀ filter, state.subscriptions.Has clientId filter → settings.acl.authorizeSubscribe session.user filter = true
  | .act i (.subscribe clientId filter _) _ =>
    ∀ session, state.sessions.lookup clientId = some session → registeredUser settings evs i ≠ some session.user →
      settings.acl.authorizeSubscribe session.user filter = true
  | _ => True

theorem subscribe_allowed {settings : Settings} {evs : List BrokerEvent} {i : ThreadId} {clientId filter : String}
    {qos : QoS} {user : String} (hallows : allows settings i (phases settings evs i) (.subscribe clientId filter qos))
    (huser : registeredUser settings evs i = some user) : settings.acl.authorizeSubscribe user filter = true := by
  cases i with
  | connection k =>
    obtain ⟨session, howns, _, hacl⟩ := hallows
    rw [registeredUser, howns.1, Option.map_some, Option.some.injEq] at huser
    rw [← huser]
    exact hacl
  | _ => cases huser

theorem user_of_act {a : Action} {sessions : DashMap String SessionState} {clientId : String} {session : SessionState}
    (h : (a.onSessions sessions).lookup clientId = some session) :
    (∃ old, sessions.lookup clientId = some old ∧ old.user = session.user) ∨ a = .sessionsInsert clientId session := by
  cases session_of_act h with
  | inl hold =>
    obtain ⟨old, hlookup, hsession⟩ := hold
    refine .inl ⟨old, hlookup, ?_⟩
    cases hsession with
    | inl hsame => rw [hsame]
    | inr hmarked =>
      rw [hmarked]
      rfl
  | inr hinsert => exact .inr hinsert

theorem authorised_of_keeps {settings : Settings} {evs : List BrokerEvent} {i : ThreadId} {a : Action} {r : Reply a}
    {s s' : Shared} (hallows : allows settings i (phases settings evs i) a) (heffect : Effect i a s s')
    (hheld : s.broker.subscriptions.Held) (h : SubscriptionsAuthorised settings s.broker)
    (hkeeps : KeepsAuthorised settings evs s.broker (.act i a r)) : SubscriptionsAuthorised settings s'.broker := by
  intro clientId filter session hhas hsession
  rw [heffect.subscriptions] at hhas
  rw [heffect.sessions] at hsession
  cases has_of_act hheld hhas with
  | inl hhad =>
    cases user_of_act hsession with
    | inl hold =>
      obtain ⟨old, hlookup, huser⟩ := hold
      rw [← huser]
      exact h clientId filter old hhad hlookup
    | inr hinsert =>
      subst hinsert
      exact hkeeps filter hhad
  | inr hsubscribe =>
    obtain ⟨qos, rfl⟩ := hsubscribe
    by_cases huser : registeredUser settings evs i = some session.user
    · exact subscribe_allowed hallows huser
    · exact hkeeps session hsession huser

theorem keeps_of_authorised {settings : Settings} {evs : List BrokerEvent} {i : ThreadId} {a : Action} {r : Reply a}
    {s s' : Shared} (heffect : Effect i a s s') (hheld : s.broker.subscriptions.Held)
    (h : SubscriptionsAuthorised settings s'.broker) : KeepsAuthorised settings evs s.broker (.act i a r) := by
  cases a with
  | sessionsInsert clientId session =>
    intro filter hhas
    apply h clientId filter session
    · rw [heffect.subscriptions]
      exact hhas
    · rw [heffect.sessions]
      exact AList.lookup_insert _
  | subscribe clientId filter qos =>
    intro session hsession _
    apply h clientId filter session
    · rw [heffect.subscriptions]
      exact has_subscribe hheld clientId filter qos
    · rw [heffect.sessions]
      exact hsession
  | _ => trivial

theorem authorised_initial (settings : Settings) : SubscriptionsAuthorised settings initial.shared.shared.broker := by
  intro clientId filter session _ hsession
  cases hsession

/-- A step without a restart keeps the subscriptions authorised exactly if it is as `KeepsAuthorised` says. -/
theorem step_authorised_iff {settings : Settings} {evs : List BrokerEvent} {cfg cfg' : BrokerConfigState}
    {e : BrokerEvent} {P : List BrokerEvent → BrokerConfigState → BrokerEvent → BrokerConfigState → Prop}
    (hrun : (brokerSystem settings).RunWhere P initial evs cfg) (hstep : (brokerSystem settings).Step cfg e cfg')
    (hrestart : e ≠ .world .restart) (h : SubscriptionsAuthorised settings cfg.shared.shared.broker) :
    SubscriptionsAuthorised settings cfg'.shared.shared.broker ↔
      KeepsAuthorised settings evs cfg.shared.shared.broker e := by
  cases hstep with
  | spawn _ _ => exact ⟨fun _ => trivial, fun _ => h⟩
  | act hrunning hnext hperform =>
    have heffect := (node_perform_effect hperform).1
    constructor
    · exact keeps_of_authorised heffect (held_of_run .new hrun)
    · exact authorised_of_keeps ((covers settings).allows (fun _ => rfl) hrun hrunning hnext) heffect
        (held_of_run .new hrun) h
  | @world w _ _ hworld =>
    cases w with
    | commit n =>
      cases hworld
      exact ⟨fun _ => trivial, fun _ => h⟩
    | restart => exact absurd rfl hrestart

theorem authorised_of_run {settings : Settings} {evs : List BrokerEvent} {cfg : BrokerConfigState}
    (hrun : (brokerSystem settings).RunWhere
      (fun _ _ e cfg' => e ≠ .world .restart ∧ SubscriptionsAuthorised settings cfg'.shared.shared.broker)
      initial evs cfg) : SubscriptionsAuthorised settings cfg.shared.shared.broker := by
  cases hrun with
  | nil => exact authorised_initial settings
  | snoc run step ok => exact ok.2

/-- As long as the broker is not restarted: the subscriptions are authorised in every state of a run
    exactly if no session is registered over a subscription that its user may not have, and none is
    made over a session whose user may not have it. -/
theorem subscriptionsAuthorised_iff (settings : Settings) (evs : List BrokerEvent) (cfg : BrokerConfigState) :
    (brokerSystem settings).RunWhere
      (fun evs cfg e _ => e ≠ .world .restart ∧ KeepsAuthorised settings evs cfg.shared.shared.broker e)
      initial evs cfg ↔
    (brokerSystem settings).RunWhere
      (fun _ _ e cfg' => e ≠ .world .restart ∧ SubscriptionsAuthorised settings cfg'.shared.shared.broker)
      initial evs cfg := by
  constructor
  · intro hrun
    induction hrun with
    | nil => exact .nil
    | snoc run step ok ih =>
      obtain ⟨hrestart, hkeeps⟩ := ok
      apply System.RunWhere.snoc ih step
      exact ⟨hrestart, (step_authorised_iff run step hrestart (authorised_of_run ih)).mpr hkeeps⟩
  · intro hrun
    induction hrun with
    | nil => exact .nil
    | snoc run step ok ih =>
      obtain ⟨hrestart, hauthorised⟩ := ok
      apply System.RunWhere.snoc ih step
      exact ⟨hrestart, (step_authorised_iff run step hrestart (authorised_of_run run)).mp hauthorised⟩

def subscribeSettings : Settings :=
  { openSettings with
    acl := { entries := [{ username := "alice", filter := "f", access := .Subscribe }], enabled := true } }

def successorMoves : List BrokerMove :=
  [.spawn (.router 0) .router, .spawn (.connection 0) .tcp, .spawn (.connection 1) .tcp,
    .act (.connection 0) (.received (.data (sentBytes (.V311 (.Connect (plainConnectV3 "c" false (some "alice")))))))] ++
  turns (.connection 0) 8 ++
  [.act (.connection 0) (.received (.data (sentBytes (.V311 (.Subscribe
    { packetId := 1, filters := [{ path := "f", qos := .AtMostOnce }] })))))] ++
  turns (.connection 0) 8 ++ [.act (.connection 0) (.received .closed)] ++ turns (.connection 0) 4 ++
  turns (.router 0) 3 ++
  [.act (.connection 1) (.received (.data (sentBytes (.V311 (.Connect (plainConnectV3 "c" false (some "bob")))))))] ++
  turns (.connection 1) 8

def isRestart : BrokerEvent → Bool
  | .world .restart => true
  | _ => false

theorem ne_restart {e : BrokerEvent} (h : (!isRestart e) = true) : e ≠ .world .restart := by
  intro he
  subst he
  cases h

/-- The session of `bob` has the subscription of `alice`. -/
theorem subscription_inherited : ∃ evs cfg session,
    (brokerSystem subscribeSettings).RunWhere (fun _ _ e _ => e ≠ .world .restart) initial evs cfg ∧
    cfg.shared.shared.broker.subscriptions.Has "c" "f" ∧
    cfg.shared.shared.broker.sessions.lookup "c" = some session ∧ session.connected = true ∧ session.user = "bob" ∧
    ¬ SubscriptionsAuthorised subscribeSettings cfg.shared.shared.broker := by
  have hrun : (executeWhere subscribeSettings (fun _ e => !isRestart e) successorMoves).map (fun r =>
      (r.2.shared.shared.broker.subscriptions.allSubscriptions, r.2.shared.shared.broker.sessions.lookup "c")) =
      some ([{ clientId := "c", filter := "f", qos := .AtMostOnce }],
        some (SessionState.new "c" .V311 false 60 (some "bob"))) := by decide +kernel
  obtain ⟨⟨evs, cfg⟩, hexec, heq⟩ := Option.map_eq_some_iff.mp hrun
  simp only [Prod.mk.injEq] at heq
  obtain ⟨hall, hsession⟩ := heq
  have hhas : cfg.shared.shared.broker.subscriptions.Has "c" "f" := by
    refine ⟨.AtMostOnce, ?_⟩
    rw [hall]
    exact List.mem_cons_self
  refine ⟨evs, cfg, _, executeWhere_run (fun _ _ => ne_restart) hexec, hhas, hsession, rfl, rfl, ?_⟩
  intro hauthorised
  exact absurd (hauthorised "c" "f" _ hhas hsession) (by decide)

end AtomMqtt
