import AtomMqtt.Effects
import AtomMqtt.TaskSpec

set_option autoImplicit false

/-! A client that connects again before its first connection has ended. The message by which the first
connection leaves names the client alone. From then on it is in the queue, the router works on it, or the
session of the client is marked or gone, whose ever it is. -/
namespace AtomMqtt
open Programs

def Unconnected (clientId : String) (sessions : DashMap String SessionState) : Prop :=
  ∀ session, sessions.lookup clientId = some session → session.connected = false

theorem unconnected_of_act {clientId : String} {sessions : DashMap String SessionState} {a : Action}
    (hinsert : ∀ session, a ≠ .sessionsInsert clientId session) (h : Unconnected clientId sessions) :
    Unconnected clientId (a.onSessions sessions) := by
  intro session hsession
  cases session_of_act hsession with
  | inl hold =>
    obtain ⟨old, hlookup, hsession⟩ := hold
    cases hsession with
    | inl hsame =>
      rw [hsame]
      exact h old hlookup
    | inr hmarked => rw [hmarked]
  | inr hnew => exact absurd hnew (hinsert session)

theorem unconnected_of_setDisconnected (clientId : String) (sessions : DashMap String SessionState) :
    Unconnected clientId ((Action.sessionsSetDisconnected clientId).onSessions sessions) := by
  intro session hsession
  obtain ⟨old, _, hmarked⟩ := DashMap.lookup_modify_eq_some.mp hsession
  rw [hmarked, if_pos rfl]

theorem unconnected_of_remove (clientId : String) (sessions : DashMap String SessionState) :
    Unconnected clientId ((Action.sessionsRemove clientId).onSessions sessions) := by
  intro session hsession
  have hother := (DashMap.lookup_erase_eq_some.mp hsession).1
  exact absurd rfl hother

/-- Where the message is by which connection `k` has left. -/
inductive Settling (clientId : String) (k : ConnId) (node : Node) (g : ThreadId → Phase) : Prop
  | queued (cleanSession : Bool)
      (hqueued : (.connection k, .ClientDisconnected clientId cleanSession) ∈ node.shared.queue)
  | working (life : ℕ) (cleanSession : Bool)
      (hmessage : (g (.router life)).message = some (.connection k, .ClientDisconnected clientId cleanSession))
      (hsettled : (g (.router life)).settled = false)
  | done (hdone : Unconnected clientId node.shared.broker.sessions)

section
variable {settings : Settings} {node node' : Node} {g : ThreadId → Phase} {i : ThreadId} {a : Action} {input : Input}
  {r : Reply a} {clientId : String} {k : ConnId}

theorem Settling.of_queued {cleanSession : Bool} (hallows : allows settings i (g i) a)
    (hperform : node.perform i a input = some (node', r))
    (h : (.connection k, .ClientDisconnected clientId cleanSession) ∈ node.shared.queue) :
    Settling clientId k node' (Function.update g i ((g i).next a r)) := by
  have heffect := (node_perform_effect hperform).1
  cases a with
  | sendRouter message =>
    apply Settling.queued cleanSession
    rw [heffect.queue]
    exact List.mem_append_left _ h
  | recvRouter =>
    cases i with
    | router life =>
      rw [recvRouter_reply hperform] at h
      cases List.mem_cons.mp h with
      | inl hhead =>
        subst hhead
        apply Settling.working life cleanSession
        · rw [Function.update_self]
          rfl
        · rw [Function.update_self]
          rfl
      | inr hrest => exact .queued _ hrest
    | _ => exact hallows.elim
  | _ =>
    apply Settling.queued cleanSession
    rw [heffect.queue]
    exact h

/-- The router comes to its next message only after it has marked or removed the session. -/
theorem Settling.of_working {life : ℕ} {cleanSession : Bool} (hallows : allows settings i (g i) a)
    (hperform : node.perform i a input = some (node', r))
    (hmessage : (g (.router life)).message = some (.connection k, .ClientDisconnected clientId cleanSession))
    (hsettled : (g (.router life)).settled = false) :
    Settling clientId k node' (Function.update g i ((g i).next a r)) := by
  have heffect := (node_perform_effect hperform).1
  have hdismissed : ∀ clientId', (g (.router life)).Dismisses clientId' → clientId' = clientId := by
    intro clientId' h
    obtain ⟨_, _, hmessage'⟩ := h
    rw [hmessage] at hmessage'
    cases hmessage'
    rfl
  by_cases hi : .router life = i
  · subst hi
    cases a with
    | recvRouter =>
      have hidle := hallows clientId ⟨_, _, hmessage⟩
      rw [hsettled] at hidle
      cases hidle
    | sessionsSetDisconnected clientId' =>
      obtain rfl := hdismissed clientId' hallows
      apply Settling.done
      rw [heffect.sessions]
      exact unconnected_of_setDisconnected _ _
    | sessionsRemove clientId' =>
      obtain rfl := hdismissed clientId' hallows
      apply Settling.done
      rw [heffect.sessions]
      exact unconnected_of_remove _ _
    | sendRouter message => exact hallows.elim
    | _ =>
      apply Settling.working life cleanSession
      · rw [Function.update_self]
        exact hmessage
      · rw [Function.update_self]
        exact hsettled
  · apply Settling.working life cleanSession
    · rw [Function.update_of_ne hi]
      exact hmessage
    · rw [Function.update_of_ne hi]
      exact hsettled

theorem Settling.of_act (hallows : allows settings i (g i) a) (hperform : node.perform i a input = some (node', r))
    (hinsert : ∀ session, a ≠ .sessionsInsert clientId session) (h : Settling clientId k node g) :
    Settling clientId k node' (Function.update g i ((g i).next a r)) := by
  cases h with
  | queued _ hqueued => exact .of_queued hallows hperform hqueued
  | working _ _ hmessage hsettled => exact .of_working hallows hperform hmessage hsettled
  | done hdone =>
    apply Settling.done
    rw [(node_perform_effect hperform).1.sessions]
    exact unconnected_of_act hinsert hdone

end

/-- Two connections may register the client, the second while the first is registered and has not left. -/
def mayRegister (settings : Settings) (clientId : String) (k₁ k₂ : ConnId) (evs : List BrokerEvent) (i : ThreadId)
    (clientId' : String) : Bool :=
  if i = .connection k₁ then clientId' == clientId
  else if i = .connection k₂ then
    clientId' == clientId && (phases settings evs (.connection k₁)).session.isSome &&
      !(phases settings evs (.connection k₁)).left
  else clientId' != clientId

/-- No other connection registers the client, and the broker is not restarted. -/
def contends (settings : Settings) (clientId : String) (k₁ k₂ : ConnId) (evs : List BrokerEvent) : BrokerEvent → Bool
  | .act i (.sessionsInsert clientId' _) _ => mayRegister settings clientId k₁ k₂ evs i clientId'
  | .world .restart => false
  | _ => true

def made (i : ThreadId) (evs : List BrokerEvent) : List String :=
  evs.foldl (fun made e => match e with
    | .act j (.subscribe _ filter _) _ => if j = i then filter :: made else made
    | .act j (.unsubscribe _ filter) _ => if j = i then made.filter (· != filter) else made
    | _ => made) []

/-- The broker has all that a connection has registered. -/
structure Intact (settings : Settings) (clientId : String) (k : ConnId) (evs : List BrokerEvent) (state : BrokerState) :
    Prop where
  connection : state.connections.lookup clientId = some k
  session : ∃ session, state.sessions.lookup clientId = some session ∧ session.connected = true
  will : ∀ will, (phases settings evs (.connection k)).will = some will →
    state.wills.lookup clientId = some (.connection k, will)
  subscriptions : ∀ filter ∈ made (.connection k) evs, state.subscriptions.Has clientId filter

/-- The message by which connection `k` has left is in the queue no more, and no router works on it. -/
structure DisconnectProcessed (settings : Settings) (clientId : String) (k : ConnId) (evs : List BrokerEvent)
    (cfg : BrokerConfigState) : Prop where
  queue : ∀ cleanSession, (.connection k, .ClientDisconnected clientId cleanSession) ∉ cfg.shared.shared.queue
  router : ∀ life cleanSession,
    (phases settings evs (.router life)).message = some (.connection k, .ClientDisconnected clientId cleanSession) →
    cfg.thread (.router life) = .running (.ret .router)

/-- Once both have registered, the first leaves by a message about the client of the second. -/
structure Contention (clientId : String) (k₁ k₂ : ConnId) (node : Node) (g : ThreadId → Phase) : Prop where
  client : ∀ session, (g (.connection k₁)).session = some session → session.clientId = clientId
  first : (g (.connection k₂)).session.isSome = true → (g (.connection k₁)).session.isSome = true
  settling : (g (.connection k₂)).session.isSome = true → (g (.connection k₁)).left = true →
    Settling clientId k₁ node g

section
variable {settings : Settings} {node node' : Node} {evs : List BrokerEvent} {i : ThreadId} {a : Action} {input : Input}
  {r : Reply a} {clientId : String} {k₁ k₂ : ConnId}

theorem update_phase (g : ThreadId → Phase) (j : ThreadId) :
    Function.update g i ((g i).next a r) j = g j ∨ j = i ∧ Function.update g i ((g i).next a r) j = (g j).next a r := by
  by_cases hj : j = i
  · subst hj
    exact .inr ⟨rfl, Function.update_self ..⟩
  · exact .inl (Function.update_of_ne hj ..)

theorem registers_next {g : ThreadId → Phase} {j : ThreadId} {session : SessionState}
    (h : (Function.update g i ((g i).next a r) j).session = some session) :
    (g j).session = some session ∨ j = i ∧ ∃ clientId', a = .sessionsInsert clientId' session := by
  cases update_phase (r := r) g j with
  | inl hsame =>
    rw [hsame] at h
    exact .inl h
  | inr hnext =>
    obtain ⟨hj, hnext⟩ := hnext
    rw [hnext] at h
    cases session_next (g j) a r with
    | inl hsame =>
      rw [hsame] at h
      exact .inl h
    | inr hinsert =>
      obtain ⟨clientId', session', ha, hsession⟩ := hinsert
      rw [hsession] at h
      cases h
      exact .inr ⟨hj, clientId', ha⟩

theorem registered_kept {g : ThreadId → Phase} {j : ThreadId} (hallows : allows settings i (g i) a)
    (h : (g j).session.isSome = true) : (Function.update g i ((g i).next a r) j).session.isSome = true := by
  obtain ⟨session, hsession⟩ := Option.isSome_iff_exists.mp h
  cases update_phase (r := r) g j with
  | inl hsame => rw [hsame, h]
  | inr hnext =>
    obtain ⟨rfl, hnext⟩ := hnext
    rw [hnext, session_kept hallows hsession]
    rfl

theorem leaves_next {g : ThreadId → Phase} {j : ThreadId} (h : (Function.update g i ((g i).next a r) j).left = true) :
    (g j).left = true ∨
      j = i ∧ ∃ clientId' cleanSession, a = .sendRouter (.ClientDisconnected clientId' cleanSession) := by
  cases update_phase (r := r) g j with
  | inl hsame =>
    rw [hsame] at h
    exact .inl h
  | inr hnext =>
    obtain ⟨hj, hnext⟩ := hnext
    rw [hnext] at h
    cases left_next (g j) a r with
    | inl hsame =>
      rw [hsame] at h
      exact .inl h
    | inr hleave => exact .inr ⟨hj, hleave⟩

theorem mayRegister_cases {clientId' : String} (h : mayRegister settings clientId k₁ k₂ evs i clientId' = true) :
    (i = .connection k₁ ∧ clientId' = clientId) ∨
    (i = .connection k₂ ∧ (phases settings evs (.connection k₁)).session.isSome = true ∧
      (phases settings evs (.connection k₁)).left = false) ∨
    (i ≠ .connection k₁ ∧ i ≠ .connection k₂ ∧ clientId' ≠ clientId) := by
  unfold mayRegister at h
  split_ifs at h with h₁ h₂
  · exact .inl ⟨h₁, beq_iff_eq.mp h⟩
  · simp only [Bool.and_eq_true, Bool.not_eq_true'] at h
    exact .inr (.inl ⟨h₂, h.1.2, h.2⟩)
  · exact .inr (.inr ⟨h₁, h₂, bne_iff_ne.mp h⟩)

section
variable {clientId' : String} {session : SessionState} {r : Reply (.sessionsInsert clientId' session)}

theorem contends_first
    (h : contends settings clientId k₁ k₂ evs (.act (.connection k₁) (.sessionsInsert clientId' session) r) = true) :
    clientId' = clientId := by
  have hmay : mayRegister settings clientId k₁ k₂ evs (.connection k₁) clientId' = true := h
  rw [mayRegister, if_pos rfl] at hmay
  exact beq_iff_eq.mp hmay

theorem contends_second (hne : k₁ ≠ k₂)
    (h : contends settings clientId k₁ k₂ evs (.act (.connection k₂) (.sessionsInsert clientId' session) r) = true) :
    (phases settings evs (.connection k₁)).session.isSome = true ∧
      (phases settings evs (.connection k₁)).left = false := by
  rcases mayRegister_cases h with ⟨hi, _⟩ | ⟨_, hfirst⟩ | ⟨_, hi, _⟩
  · cases hi
    exact absurd rfl hne
  · exact hfirst
  · exact absurd rfl hi

theorem registered_clientId (hallows : allows settings i (phases settings evs i) (.sessionsInsert clientId' session))
    (h : contends settings clientId k₁ k₂ evs (.act i (.sessionsInsert clientId' session) r) = true)
    (hfirst : (phases settings evs (.connection k₁)).session.isSome = true)
    (hsecond : (phases settings evs (.connection k₂)).session.isSome = true) : clientId' ≠ clientId := by
  have hnone := (sessionsInsert_connection hallows).1
  rcases mayRegister_cases h with ⟨rfl, _⟩ | ⟨rfl, _⟩ | ⟨_, _, hid⟩
  · rw [hnone] at hfirst
    cases hfirst
  · rw [hnone] at hsecond
    cases hsecond
  · exact hid

end

theorem Contention.client_next (hallows : allows settings i (phases settings evs i) a)
    (hcontends : contends settings clientId k₁ k₂ evs (.act i a r) = true)
    (h : Contention clientId k₁ k₂ node (phases settings evs)) {session : SessionState}
    (hsession : (Function.update (phases settings evs) i ((phases settings evs i).next a r)
      (.connection k₁)).session = some session) : session.clientId = clientId := by
  cases registers_next hsession with
  | inl hsame => exact h.client session hsame
  | inr hinsert =>
    obtain ⟨rfl, clientId', rfl⟩ := hinsert
    exact (sessionsInsert_connection hallows).2.1.trans (contends_first hcontends)

theorem Contention.first_next (hne : k₁ ≠ k₂) (hallows : allows settings i (phases settings evs i) a)
    (hcontends : contends settings clientId k₁ k₂ evs (.act i a r) = true)
    (h : Contention clientId k₁ k₂ node (phases settings evs))
    (hsecond : (Function.update (phases settings evs) i ((phases settings evs i).next a r)
      (.connection k₂)).session.isSome = true) :
    (Function.update (phases settings evs) i ((phases settings evs i).next a r)
      (.connection k₁)).session.isSome = true := by
  apply registered_kept hallows
  obtain ⟨session, hsession⟩ := Option.isSome_iff_exists.mp hsecond
  cases registers_next hsession with
  | inl hsame => exact h.first (Option.isSome_iff_exists.mpr ⟨session, hsame⟩)
  | inr hinsert =>
    obtain ⟨rfl, clientId', rfl⟩ := hinsert
    exact (contends_second hne hcontends).1

theorem Contention.settling_next (hne : k₁ ≠ k₂) (hallows : allows settings i (phases settings evs i) a)
    (hperform : node.perform i a input = some (node', r))
    (hcontends : contends settings clientId k₁ k₂ evs (.act i a r) = true)
    (h : Contention clientId k₁ k₂ node (phases settings evs))
    (hsecond : (Function.update (phases settings evs) i ((phases settings evs i).next a r)
      (.connection k₂)).session.isSome = true)
    (hleft : (Function.update (phases settings evs) i ((phases settings evs i).next a r) (.connection k₁)).left = true) :
    Settling clientId k₁ node' (Function.update (phases settings evs) i ((phases settings evs i).next a r)) := by
  obtain ⟨session, hsession⟩ := Option.isSome_iff_exists.mp hsecond
  cases registers_next hsession with
  | inl hsame =>
    have hregistered := Option.isSome_iff_exists.mpr ⟨session, hsame⟩
    cases leaves_next hleft with
    | inl hgone =>
      apply (h.settling hregistered hgone).of_act hallows hperform
      intro session' ha
      subst ha
      exact registered_clientId hallows hcontends (h.first hregistered) hregistered rfl
    | inr hleaves =>
      -- the first leaves now: its message names its client, which is that of the second
      obtain ⟨rfl, clientId', cleanSession, rfl⟩ := hleaves
      obtain ⟨session', howns, hid, _⟩ := hallows
      rw [h.client session' howns.1] at hid
      subst hid
      apply Settling.queued cleanSession
      rw [(node_perform_effect hperform).1.queue]
      exact List.mem_append_right _ List.mem_cons_self
  | inr hinsert =>
    -- the second registers now, while the first has not left
    obtain ⟨rfl, clientId', rfl⟩ := hinsert
    have hstays := (contends_second hne hcontends).2
    cases leaves_next hleft with
    | inl hgone =>
      rw [hstays] at hgone
      cases hgone
    | inr hleaves =>
      obtain ⟨_, _, _, ha⟩ := hleaves
      cases ha

theorem Contention.of_act (hne : k₁ ≠ k₂) (hallows : allows settings i (phases settings evs i) a)
    (hperform : node.perform i a input = some (node', r))
    (hcontends : contends settings clientId k₁ k₂ evs (.act i a r) = true)
    (h : Contention clientId k₁ k₂ node (phases settings evs)) :
    Contention clientId k₁ k₂ node'
      (Function.update (phases settings evs) i ((phases settings evs i).next a r)) where
  client _ := h.client_next hallows hcontends
  first := h.first_next hne hallows hcontends
  settling := h.settling_next hne hallows hperform hcontends

theorem Contention.of_commit {g : ThreadId → Phase} {n : ℕ} (h : Contention clientId k₁ k₂ node g) :
    Contention clientId k₁ k₂ (node.commit n) g := by
  refine ⟨h.client, h.first, fun hsecond hleft => ?_⟩
  cases h.settling hsecond hleft with
  | queued cleanSession hqueued => exact .queued cleanSession hqueued
  | working life cleanSession hmessage hsettled => exact .working life cleanSession hmessage hsettled
  | done hdone => exact .done hdone

end

theorem contention_of_run {settings : Settings} {clientId : String} {k₁ k₂ : ConnId} (hne : k₁ ≠ k₂)
    {evs : List BrokerEvent} {cfg : BrokerConfigState}
    (hrun : (brokerSystem settings).RunWhere (fun evs _ e _ => contends settings clientId k₁ k₂ evs e = true)
      initial evs cfg) : Contention clientId k₁ k₂ cfg.shared (phases settings evs) := by
  apply (covers settings).invariant (fun _ => rfl) (fun _ _ => rfl) (J := Contention clientId k₁ k₂) _ _ _ hrun
  · constructor
    · intro session hsession
      cases hsession
    · intro hsecond
      cases hsecond
    · intro hsecond
      cases hsecond
  · intro evs cfg cfg' i a r input hcontends hallows hperform h
    exact h.of_act hne hallows hperform hcontends
  · intro evs cfg w cfg' ends hcontends hworld h
    cases w with
    | commit n =>
      have hnode : cfg.shared.commit n = cfg'.shared := congrArg Prod.fst (Option.some.inj hworld)
      rw [← hnode]
      exact h.of_commit
    | restart => cases hcontends

/-- However the steps of two connections of one client, of the router and of everybody else come: when
    the message by which the first has left is processed, the client's session is not connected. -/
theorem unconnected_of_processed {settings : Settings} {clientId : String} {k₁ k₂ : ConnId} (hne : k₁ ≠ k₂)
    {evs : List BrokerEvent} {cfg : BrokerConfigState}
    (hrun : (brokerSystem settings).RunWhere (fun evs _ e _ => contends settings clientId k₁ k₂ evs e = true)
      initial evs cfg) (hsecond : (phases settings evs (.connection k₂)).session.isSome = true)
    (hleft : (phases settings evs (.connection k₁)).left = true) (hprocessed : DisconnectProcessed settings clientId k₁ evs cfg) :
    Unconnected clientId cfg.shared.shared.broker.sessions := by
  cases (contention_of_run hne hrun).settling hsecond hleft with
  | queued cleanSession hqueued => exact absurd hqueued (hprocessed.queue cleanSession)
  | working life cleanSession hmessage hsettled =>
    have hmeets : Meets (monitor settings (.router life)) (ready (.router life)) (phases settings evs (.router life))
        (.ret .router) := (covers settings).meets (fun _ => rfl) hrun (hprocessed.router life cleanSession hmessage)
    have hidle : (phases settings evs (.router life)).settled = true := hmeets.of_ret clientId ⟨_, _, hmessage⟩
    rw [hsettled] at hidle
    cases hidle
  | done hdone => exact hdone

/-- So the second connection is never intact then. -/
theorem takeover_breaks {settings : Settings} {clientId : String} {k₁ k₂ : ConnId} (hne : k₁ ≠ k₂)
    {evs : List BrokerEvent} {cfg : BrokerConfigState}
    (hrun : (brokerSystem settings).RunWhere (fun evs _ e _ => contends settings clientId k₁ k₂ evs e = true)
      initial evs cfg) (hsecond : (phases settings evs (.connection k₂)).session.isSome = true)
    (hleft : (phases settings evs (.connection k₁)).left = true) (hprocessed : DisconnectProcessed settings clientId k₁ evs cfg) :
    ¬ Intact settings clientId k₂ evs cfg.shared.shared.broker := by
  intro hintact
  obtain ⟨session, hsession, hconnected⟩ := hintact.session
  rw [unconnected_of_processed hne hrun hsecond hleft hprocessed session hsession] at hconnected
  cases hconnected

theorem other_routers_fresh {settings : Settings}
    {P : List BrokerEvent → BrokerConfigState → BrokerEvent → BrokerConfigState → Prop}
    (hrestart : ∀ evs cfg cfg', ¬ P evs cfg (.world .restart) cfg') {evs : List BrokerEvent} {cfg : BrokerConfigState}
    (hrun : (brokerSystem settings).RunWhere P initial evs cfg) :
    cfg.shared.life = 0 ∧ ∀ life, life ≠ 0 → cfg.thread (.router life) = .fresh := by
  induction hrun with
  | nil => exact ⟨rfl, fun _ _ => rfl⟩
  | snoc run step ok ih =>
    obtain ⟨hlife, hfresh⟩ := ih
    cases step with
    | @spawn i c _ hstart =>
      refine ⟨hlife, fun life hne => ?_⟩
      by_cases hi : .router life = i
      · subst hi
        cases c <;> first | cases hstart | skip
        rw [← hlife] at hne
        exact absurd (beq_iff_eq.mp hstart) hne
      · exact (Function.update_of_ne hi ..).trans (hfresh life hne)
    | @act i p o k input node r hrunning hnext hperform =>
      obtain ⟨⟨shared, r'⟩, _, heq⟩ := Option.map_eq_some_iff.mp hperform
      cases heq
      refine ⟨hlife, fun life hne => ?_⟩
      by_cases hi : .router life = i
      · subst hi
        rw [hfresh life hne] at hrunning
        cases hrunning
      · exact (Function.update_of_ne hi ..).trans (hfresh life hne)
    | @world w node ends hworld =>
      cases w with
      | commit n =>
        cases hworld
        exact ⟨hlife, hfresh⟩
      | restart => exact absurd ok (hrestart _ _ _)

def takeoverMoves : List BrokerMove :=
  [.spawn (.router 0) .router, .spawn (.connection 0) .tcp, .spawn (.connection 1) .tcp,
    .act (.connection 0) (.received (.data (sentBytes (.V311 (.Connect (plainConnectV3 "c" true none))))))] ++
  turns (.connection 0) 8 ++
  [.act (.connection 1) (.received (.data (sentBytes (.V311 (.Connect
    { plainConnectV3 "c" true none with
      will := some { topic := "w", message := [0x78], qos := .AtMostOnce, retain := false } })))))] ++
  turns (.connection 1) 10 ++
  [.act (.connection 1) (.received (.data (sentBytes (.V311 (.Subscribe
    { packetId := 1, filters := [{ path := "f", qos := .AtMostOnce }] })))))] ++
  turns (.connection 1) 8 ++ [.act (.connection 0) (.received .closed)] ++ turns (.connection 0) 4 ++
  turns (.router 0) 9

theorem takeover_processed : ∃ evs cfg, (brokerSystem openSettings).RunWhere
      (fun evs _ e _ => contends openSettings "c" 0 1 evs e = true) initial evs cfg ∧
    (phases openSettings evs (.connection 1)).session.isSome = true ∧
    (phases openSettings evs (.connection 0)).left = true ∧ DisconnectProcessed openSettings "c" 0 evs cfg ∧
    cfg.thread (.connection 1) = .running (.ret (.tcpLoop
      { clientId := "c", version := .V311, cleanSession := true, username := some "anonymous", buf := [] })) ∧
    cfg.shared.shared.broker.connections.lookup "c" = none := by
  have hrun : (executeWhere openSettings (contends openSettings "c" 0 1) takeoverMoves).map (fun r =>
      ([(phases openSettings r.1 (.connection 1)).session.isSome, (phases openSettings r.1 (.connection 0)).left,
        r.2.shared.shared.queue.isEmpty], [between (r.2.thread (.router 0)), between (r.2.thread (.connection 1))],
        r.2.shared.shared.broker.connections.lookup "c")) =
      some ([true, true, true], [some .router, some (.tcpLoop
        { clientId := "c", version := .V311, cleanSession := true, username := some "anonymous", buf := [] })],
        none) := by decide +kernel
  obtain ⟨⟨evs, cfg⟩, hexec, heq⟩ := Option.map_eq_some_iff.mp hrun
  simp only [Prod.mk.injEq, List.cons.injEq, and_true] at heq
  obtain ⟨⟨hsecond, hleft, hqueue⟩, ⟨hrouter, hloop⟩, hconnection⟩ := heq
  have hcontends := executeWhere_run (P := fun evs e => contends openSettings "c" 0 1 evs e = true)
    (fun _ _ h => h) hexec
  refine ⟨evs, cfg, hcontends, hsecond, hleft, ⟨?_, ?_⟩, eq_of_between hloop, hconnection⟩
  · intro cleanSession hmem
    rw [List.isEmpty_iff.mp hqueue] at hmem
    cases hmem
  · intro life cleanSession hmessage
    by_cases hlife : life = 0
    · rw [hlife]
      exact eq_of_between hrouter
    · have hfresh := (other_routers_fresh (fun _ _ _ h => by cases h) hcontends).2 life hlife
      have hstart : phases openSettings evs (.router life) = Phase.start := Observer.ghosts_of_fresh hcontends hfresh
      rw [hstart] at hmessage
      cases hmessage

/-- The new connection of `c` runs, and the broker has no sender for it any more. -/
theorem takeover_loses : ∃ evs cfg l, (brokerSystem openSettings).RunWhere
      (fun evs _ e _ => contends openSettings "c" 0 1 evs e = true) initial evs cfg ∧
    (phases openSettings evs (.connection 1)).session.isSome = true ∧
    (phases openSettings evs (.connection 0)).left = true ∧ DisconnectProcessed openSettings "c" 0 evs cfg ∧
    cfg.thread (.connection 1) = .running (.ret (.tcpLoop l)) ∧
    ¬ Intact openSettings "c" 1 evs cfg.shared.shared.broker := by
  obtain ⟨evs, cfg, hrun, hsecond, hleft, hprocessed, hloop, hconnection⟩ := takeover_processed
  refine ⟨evs, cfg, _, hrun, hsecond, hleft, hprocessed, hloop, ?_⟩
  intro hintact
  rw [hintact.connection] at hconnection
  cases hconnection

theorem takeover_breaks_plain : ∃ evs cfg, (brokerSystem openSettings).RunWhere
      (fun evs _ e _ => contends openSettings "c" 0 1 evs e = true) initial evs cfg ∧
    ¬ Intact openSettings "c" 1 evs cfg.shared.shared.broker := by
  obtain ⟨evs, cfg, hrun, hsecond, hleft, hprocessed, _, _⟩ := takeover_processed
  exact ⟨evs, cfg, hrun, takeover_breaks (by decide) hrun hsecond hleft hprocessed⟩

end AtomMqtt
