import AtomMqtt.BrokerSystem

set_option autoImplicit false

/-! The connect phase over TCP and over WebSocket. The two handlers are copies of one procedure up to their
loops, less the will that one of them leaves out. -/
namespace AtomMqtt
open Programs

def peer (bytes : Bytes) (sent : Bool) : Action → Input
  | .read => .received (.data bytes)
  | .write _ _ => .written sent
  | _ => .go

def connacks (tr : Trace Action Reply) : List Bytes :=
  tr.filterMap fun e =>
    match e.1 with
    | .write .connack data => some data
    | _ => none

/-- What a handler has done when it comes to its loop. -/
structure ConnectOutcome where
  connacks : List Bytes
  sessions : DashMap String SessionState
  wills : DashMap String (ThreadId × WillMessage)
  metrics : BrokerMetrics
  events : List (ThreadId × PersistEvent)

def ConnectOutcome.of (last : Trace Action Reply × Shared × Control) : ConnectOutcome where
  connacks := AtomMqtt.connacks last.1
  sessions := last.2.1.broker.sessions
  wills := last.2.1.broker.wills
  metrics := last.2.1.broker.metrics
  events := last.2.1.events

/-- What a connection has done by the end of this program, if nobody else does anything. -/
def outcome (k : ConnId) (input : Action → Input) (p : Broker Control) (s : Shared) : Option ConnectOutcome :=
  (runAlone (.connection k) input p s).map .of

/-- Both handlers once the user is known, with the will that they store; the end is not that of either. -/
def connectPhase (c : ConnectFields) (username : String) (will : Option WillMessage) : Broker Control := do
  let clientId ← registerSession c username
  match will with
  | some will => storeWill clientId will
  | none => pure ()
  saveSession clientId c username
  let sent ← writePacket .connack (acceptedConnack c.version)
  return .exited sent

section
variable {settings : Settings} {k : ConnId} {input : Action → Input} {c : ConnectFields} {username : String} {buf : Bytes}

theorem outcome_cons (e : Σ a : Action, Reply a) {tr tr' : Trace Action Reply} {s s' : Shared} {ctrl ctrl' : Control}
    (h : ConnectOutcome.of (tr, s, ctrl) = .of (tr', s', ctrl')) :
    ConnectOutcome.of (e :: tr, s, ctrl) = .of (e :: tr', s', ctrl') := by
  simp only [ConnectOutcome.of, ConnectOutcome.mk.injEq] at h ⊢
  refine ⟨?_, h.2⟩
  rw [connacks, connacks, ← List.singleton_append, List.filterMap_append, ← List.singleton_append (l := tr'),
    List.filterMap_append]
  exact congrArg _ h.1

theorem outcome_bind {α : Type} {p : Broker α} {f g : α → Broker Control}
    (h : ∀ x s, outcome k input (f x) s = outcome k input (g x) s) (s : Shared) :
    outcome k input (p >>= f) s = outcome k input (p >>= g) s :=
  runOn_bind_congr (fun e _ _ _ _ _ _ => outcome_cons e) h s

theorem outcome_read {bytes : Bytes} {sent : Bool} {f : Received → Broker Control} {s : Shared} :
    outcome k (peer bytes sent) (ask .read >>= f) s = outcome k (peer bytes sent) (f (.data bytes)) s := by
  have hread : s.perform (.connection k) .read (peer bytes sent .read) = some (s, .data bytes) := rfl
  change Option.map ConnectOutcome.of (Program.runOn _ (.act .read f) s) = _
  simp only [outcome, runAlone, Program.runOn, hread]
  cases Program.runOn _ (f (.data bytes)) s <;> rfl

theorem acceptTcp_phase (hauth : settings.authenticator.authenticate settings.config.allowAnonymous c.username c.password =
    .Success username) (s : Shared) :
    outcome k input (acceptTcp settings buf c) s = outcome k input (connectPhase c username c.will) s := by
  have hend : ∀ clientId, ∀ s, outcome k input (enterTcpLoop buf c clientId username) s = outcome k input (do
      saveSession clientId c username
      let sent ← writePacket .connack (acceptedConnack c.version)
      return .exited sent) s := by
    intro clientId
    unfold enterTcpLoop
    apply outcome_bind
    intro _
    apply outcome_bind
    intro sent s
    cases sent with
    | false => rfl
    | true =>
      match hdecode : V3.decodePacket buf with
      | .ok (some (_, consumed)) =>
        simp only [if_true]
        rfl
      | .ok none =>
        simp only [if_true]
        rfl
      | .error _ =>
        simp only [if_true]
        rfl
  unfold acceptTcp connectPhase
  rw [hauth]
  apply outcome_bind
  intro clientId
  cases c.will with
  | none => exact hend clientId
  | some will => exact outcome_bind fun _ => hend clientId

theorem acceptWs_phase (hauth : settings.authenticator.authenticate settings.config.allowAnonymous c.username c.password =
    .Success username) (s : Shared) :
    outcome k input (acceptWs settings buf c) s = outcome k input (connectPhase c username none) s := by
  unfold acceptWs connectPhase
  rw [hauth]
  apply outcome_bind
  intro clientId
  apply outcome_bind
  intro _
  apply outcome_bind
  intro sent s
  cases sent with
  | false => rfl
  | true =>
    simp only [if_true]
    split
    · rfl
    · rfl

theorem connectPhase_events (will : Option WillMessage) {bytes : Bytes} {sent : Bool} (s : Shared) :
    (outcome k (peer bytes sent) (connectPhase c username will) s).map (fun last => last.events.length) =
      some (s.events.length + will.toList.length + 1) := by
  unfold connectPhase registerSession
  cases will with
  | none =>
    have hlength : ∀ event, (s.events ++ [event]).length = s.events.length + 1 := fun _ => List.length_append
    cases c.clientId.isEmpty <;> cases c.version <;> cases sent <;> exact congrArg some (hlength _)
  | some will =>
    have hlength : ∀ event event', (s.events ++ [event] ++ [event']).length = s.events.length + 1 + 1 := by simp
    cases c.clientId.isEmpty <;> cases c.version <;> cases sent <;> exact congrArg some (hlength _ _)

end

/-- The two connect phases leave the same behind, from every state of the broker, exactly if the CONNECT
    carries no will or its user is rejected. -/
theorem connectPhases_agree_iff {settings : Settings} {buf : Bytes} {packet : MqttPacket} {c : ConnectFields}
    (hfirst : decodeFirstPacket buf = .ok (some packet)) (hfields : connectFields packet = some c) (k : ConnId)
    (sent : Bool) (s : Shared) :
    outcome k (peer buf sent) (handleConnection settings) s =
        outcome k (peer buf sent) (handleConnectAfterDecode settings buf packet) s ↔
      c.will = none ∨ ∃ reason, settings.authenticator.authenticate settings.config.allowAnonymous c.username c.password =
        .Denied reason := by
  have htcp : outcome k (peer buf sent) (handleConnection settings) s =
      outcome k (peer buf sent) (acceptTcp settings buf c) s := by
    unfold handleConnection
    rw [outcome_read]
    simp only [hfirst, hfields]
  have hws : handleConnectAfterDecode settings buf packet = acceptWs settings buf c := by
    rw [handleConnectAfterDecode, hfields]
  rw [htcp, hws]
  cases hauth : settings.authenticator.authenticate settings.config.allowAnonymous c.username c.password with
  | Denied reason =>
    have hsame : acceptTcp settings buf c = acceptWs settings buf c := by
      rw [acceptTcp, acceptWs, hauth]
    simp [hsame]
  | Success username =>
    rw [acceptTcp_phase hauth, acceptWs_phase hauth]
    cases hwill : c.will with
    | none => simp
    | some will =>
      have hne : outcome k (peer buf sent) (connectPhase c username (some will)) s ≠
          outcome k (peer buf sent) (connectPhase c username none) s := by
        intro hsame
        have hevents : (outcome k (peer buf sent) (connectPhase c username (some will)) s).map
            (fun last => last.events.length) = some (s.events.length + 1 + 1) := connectPhase_events (some will) s
        rw [hsame, connectPhase_events] at hevents
        simp at hevents
      simp [hne]

def willConnect : V3.ConnectPacket where
  clientId := "c"
  cleanSession := true
  keepAlive := 60
  will := some { topic := "w", message := [0x78], qos := .AtMostOnce, retain := false }
  username := none
  password := none

theorem connectPhases_plain :
    let packet := MqttPacket.V311 (.Connect (plainConnectV3 "c" true none))
    outcome 0 (peer (sentBytes packet) true) (handleConnection openSettings) (Shared.start BrokerState.new []) =
      outcome 0 (peer (sentBytes packet) true) (handleConnectAfterDecode openSettings (sentBytes packet) packet)
        (Shared.start BrokerState.new []) := by
  have hfirst : decodeFirstPacket (sentBytes (.V311 (.Connect (plainConnectV3 "c" true none)))) =
      .ok (some (.V311 (.Connect (plainConnectV3 "c" true none)))) := by decide +kernel
  exact (connectPhases_agree_iff hfirst rfl 0 true (Shared.start BrokerState.new [])).mpr (.inl rfl)

/-- A CONNECT with a will: the TCP handler stores the will, the WebSocket handler has none. -/
theorem connectPhases_will :
    let packet := MqttPacket.V311 (.Connect willConnect)
    decodeFirstPacket (sentBytes packet) = .ok (some packet) ∧
    (outcome 0 (peer (sentBytes packet) true) (handleConnection openSettings) (Shared.start BrokerState.new [])).map
        (fun last => (last.wills.lookup "c").isSome) = some true ∧
    (outcome 0 (peer (sentBytes packet) true) (handleConnectAfterDecode openSettings (sentBytes packet) packet)
        (Shared.start BrokerState.new [])).map (fun last => (last.wills.lookup "c").isSome) = some false := by
  refine ⟨?_, ?_, ?_⟩
  · decide +kernel
  · decide +kernel
  · decide +kernel

end AtomMqtt
