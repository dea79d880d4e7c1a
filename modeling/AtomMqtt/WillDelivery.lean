import AtomMqtt.RouterCopies

set_option autoImplicit false

/-! A will next to a message that its client publishes. The router has one loop for published messages and one
for wills. The copies of the first carry RETAIN 0, those of the second the flag of the will, which is for the
message that is kept. -/
namespace AtomMqtt
open Programs

def retainFlag (data : Bytes) : Bool := data.head?.any fun fixedByte => fixedByte &&& 0x01 != 0

theorem retainFlag_publishBytes (topic : String) (payload : Bytes) (retain : Bool) :
    retainFlag (publishBytes topic payload retain) = retain := publishFixedByte_retain .AtMostOnce retain false

section
variable (i : ThreadId) (input : Action → Input) (s : Shared) (clientId : String) (cleanSession : Bool)
  (will : WillMessage) (sourceClient : String)

/-- The router takes in the end of the client whose will it is, or the same message from a publisher. -/
def TakesWill (s₁ : Shared) : Prop := RunsTo i input (routeMessage (.ClientDisconnected clientId cleanSession)) s s₁ ()

def TakesPublish (s₂ : Shared) : Prop :=
  RunsTo i input (routeMessage (.Publish will.topic will.payload will.qos will.retain sourceClient)) s s₂ ()

/-- Both leave the same bytes on every channel and the same retained messages, and no live copy has RETAIN 1. -/
def WillAsPublished : Prop :=
  ∀ s₁ s₂, TakesWill i input s clientId cleanSession s₁ → TakesPublish i input s will sourceClient s₂ →
    s₁.channels = s₂.channels ∧ s₁.broker.retained = s₂.broker.retained ∧
      ∀ k, ∀ data ∈ (s₁.channels k).drop (s.channels k).length, retainFlag data = false

end

section
variable {i : ThreadId} {input : Action → Input} {s s₁ s₂ : Shared} {clientId : String} {owner : ThreadId}
  {will : WillMessage} {cleanSession : Bool} {sourceClient : String}

theorem forget_runs (i : ThreadId) (input : Action → Input) (clientId : String) (cleanSession : Bool) (s : Shared) :
    ∃ s', RunsTo i input (if cleanSession then do
        run (.unsubscribeAll clientId)
        sendEvent (.RemoveClientSubscriptions clientId)
        run (.sessionsRemove clientId)
        sendEvent (.RemoveSession clientId)
        run .syncSubscriptionsActive
      else run (.sessionsSetDisconnected clientId)) s s' () ∧
      s'.channels = s.channels ∧ s'.broker.retained = s.broker.retained := by
  cases cleanSession with
  | false => exact ⟨_, runsTo_run_last rfl, rfl, rfl⟩
  | true =>
    exact ⟨_, runsTo_run rfl (runsTo_run rfl (runsTo_run rfl (runsTo_run rfl (runsTo_run_last rfl)))), rfl, rfl⟩

theorem deliverWill_runs (i : ThreadId) (input : Action → Input) (clientId : String) (will : WillMessage) (s : Shared) :
    ∃ s', RunsTo i input (deliverWill clientId will) s s' () ∧
      (∀ k, s'.channels k = s.channels k ++ List.replicate (s.leadTo k (s.broker.subscriptions.lookup will.topic))
        (publishBytes will.topic will.payload will.retain)) ∧
      s'.broker.retained = retainedAfter will.retain { topic := will.topic, payload := will.payload, qos := will.qos }
        s.broker.retained := by
  obtain ⟨_, topic, payload, qos, retain, _⟩ := will
  generalize hfound : s.broker.subscriptions.lookup topic = subscribers
  let s₁ := s.delivered subscribers (publishPacket topic payload retain) (.Will topic payload qos.toU8 clientId)
  have hcopies : ∀ k, s₁.channels k =
      s.channels k ++ List.replicate (s.leadTo k subscribers) (publishBytes topic payload retain) :=
    delivered_channels subscribers _
  have hretained : s₁.broker.retained = s.broker.retained := congrArg BrokerState.retained (delivered_broker _ _ _)
  have hlookup : s.perform i (.lookup topic) (input (.lookup topic)) = some (s, subscribers) := by
    rw [← hfound]
    rfl
  cases retain with
  | false => exact ⟨_, runsTo_ask hlookup (runsTo_delivered (runsTo_run_last rfl)), hcopies, hretained⟩
  | true =>
    refine ⟨_, runsTo_ask hlookup (runsTo_delivered (runsTo_run rfl (runsTo_run_last rfl))), hcopies, ?_⟩
    exact congrArg (retainedAfter true { topic, payload, qos }) hretained

theorem takesWill (hwill : s.broker.wills.lookup clientId = some (owner, will)) (i : ThreadId)
    (input : Action → Input) (cleanSession : Bool) : ∃ s₁, TakesWill i input s clientId cleanSession s₁ ∧
      (∀ k, s₁.channels k = s.channels k ++ List.replicate (s.leadTo k (s.broker.subscriptions.lookup will.topic))
        (publishBytes will.topic will.payload will.retain)) ∧
      s₁.broker.retained = retainedAfter will.retain { topic := will.topic, payload := will.payload, qos := will.qos }
        s.broker.retained := by
  let taken := s.onBroker fun b => { b with wills := b.wills.erase clientId }
  have hremove : s.perform i (.willsRemove clientId) (input (.willsRemove clientId)) =
      some (taken, some (owner, will)) := by
    rw [← hwill]
    rfl
  obtain ⟨delivered, hdeliver, hcopies, hkept⟩ := deliverWill_runs i input clientId will taken
  obtain ⟨s₁, hforget, hchannels, hretained⟩ := forget_runs i input clientId cleanSession delivered
  refine ⟨s₁, runsTo_ask hremove (hdeliver.bind hforget), ?_, hretained.trans hkept⟩
  intro k
  exact (congrFun hchannels k).trans (hcopies k)

theorem takesPublish (s : Shared) (i : ThreadId) (input : Action → Input) (will : WillMessage) (sourceClient : String) :
    ∃ s₂, TakesPublish i input s will sourceClient s₂ ∧
      (∀ k, s₂.channels k = s.channels k ++ List.replicate (s.leadTo k (s.broker.subscriptions.lookup will.topic))
        (publishBytes will.topic will.payload false)) ∧
      s₂.broker.retained = retainedAfter will.retain { topic := will.topic, payload := will.payload, qos := will.qos }
        s.broker.retained := routePublish_copies i input will.qos will.retain sourceClient

theorem leadTo_eq_zero_iff {s : Shared} {subscribers : List Subscription} :
    (∀ k, s.leadTo k subscribers = 0) ↔ ∀ sub ∈ subscribers, s.receiver sub.clientId = none := by
  simp only [Shared.leadTo, List.countP_eq_zero, beq_iff_eq]
  constructor
  · intro h sub hsub
    exact Option.eq_none_iff_forall_ne_some.mpr fun k => h k sub hsub
  · intro h k sub hsub hk
    rw [h sub hsub] at hk
    cases hk

theorem not_willAsPublished (hwill : s.broker.wills.lookup clientId = some (owner, will)) (hretain : will.retain = true)
    {sub : Subscription} (hsub : sub ∈ s.broker.subscriptions.lookup will.topic) {k : ConnId}
    (hk : s.receiver sub.clientId = some k) :
    ¬ WillAsPublished i input s clientId cleanSession will sourceClient := by
  intro h
  obtain ⟨s₁, htakes, hcopies, -⟩ := takesWill hwill i input cleanSession
  obtain ⟨s₂, htakes', -, -⟩ := takesPublish s i input will sourceClient
  have hflags := (h s₁ s₂ htakes htakes').2.2 k
  have hlead : 0 < s.leadTo k (s.broker.subscriptions.lookup will.topic) :=
    List.countP_pos_iff.mpr ⟨sub, hsub, beq_iff_eq.mpr hk⟩
  rw [hcopies k, List.drop_left] at hflags
  have hflag := hflags _ (List.mem_replicate.mpr ⟨Nat.ne_of_gt hlead, rfl⟩)
  rw [retainFlag_publishBytes, hretain] at hflag
  cases hflag

/-- In every state, and for every will that is stored in it. -/
theorem willAsPublished_iff (hwill : s.broker.wills.lookup clientId = some (owner, will)) (i : ThreadId)
    (input : Action → Input) (cleanSession : Bool) (sourceClient : String) :
    (∃ s₁ s₂, TakesWill i input s clientId cleanSession s₁ ∧ TakesPublish i input s will sourceClient s₂) ∧
    (WillAsPublished i input s clientId cleanSession will sourceClient ↔ will.retain = false ∨
      ∀ sub ∈ s.broker.subscriptions.lookup will.topic, s.receiver sub.clientId = none) ∧
    ∀ settings packet username tr result, Exec (processPacket settings packet clientId username) tr result →
      ∀ e ∈ forwards tr, retainFlag (sentBytes e.2) = true := by
  obtain ⟨s₁, htakes, hcopies, hkept⟩ := takesWill hwill i input cleanSession
  obtain ⟨s₂, htakes', hcopies', hkept'⟩ := takesPublish s i input will sourceClient
  refine ⟨⟨s₁, s₂, htakes, htakes'⟩, ⟨?_, ?_⟩, ?_⟩
  · intro h
    cases hretain : will.retain with
    | false => exact .inl rfl
    | true =>
      refine .inr fun sub hsub => Option.eq_none_iff_forall_ne_some.mpr fun k hk => ?_
      exact not_willAsPublished hwill hretain hsub hk h
  · intro hcondition t₁ t₂ ht₁ ht₂
    obtain rfl := (Leads.unique htakes ht₁).1
    obtain rfl := (Leads.unique htakes' ht₂).1
    have hsame : ∀ k, s₁.channels k = s.channels k ++ List.replicate
        (s.leadTo k (s.broker.subscriptions.lookup will.topic)) (publishBytes will.topic will.payload false) := by
      intro k
      rw [hcopies k]
      cases hcondition with
      | inl hretain => rw [hretain]
      | inr hnone => rw [leadTo_eq_zero_iff.mpr hnone k, List.replicate_zero, List.replicate_zero]
    refine ⟨funext fun k => (hsame k).trans (hcopies' k).symm, hkept.trans hkept'.symm, ?_⟩
    intro k data hdata
    rw [hsame k, List.drop_left] at hdata
    rw [List.eq_of_mem_replicate hdata]
    exact retainFlag_publishBytes _ _ _
  · intro settings packet username tr result hexec e he
    obtain ⟨-, items, -, item, -, hpacket⟩ := (((replays_composed clientId).processPacket packet).of_exec hexec).1 e he
    rw [hpacket, sentBytes_publishPacket]
    exact retainFlag_publishBytes _ _ _

end

def willD (retain : Bool) : WillMessage :=
  { clientId := "d", topic := "t", payload := [0x78], qos := .AtMostOnce, retain, delayInterval := 0 }

def connectedWillD (retain : Bool) : Shared :=
  Shared.start { BrokerState.new with
    subscriptions := SubscriptionTree.new.subscribe "c" "t" .AtMostOnce
    connections := (∅ : DashMap String ConnId).insert "c" 0
    wills := (∅ : DashMap String (ThreadId × WillMessage)).insert "d" (.connection 1, willD retain) } []

theorem connectedWillD_lookup (retain : Bool) :
    (connectedWillD retain).broker.wills.lookup "d" = some (.connection 1, willD retain) := by
  cases retain <;> decide

theorem willAsPublished_plain :
    (∃ s₁ s₂, TakesWill (.router 0) (fun _ => .go) (connectedWillD false) "d" true s₁ ∧
      TakesPublish (.router 0) (fun _ => .go) (connectedWillD false) (willD false) "d" s₂) ∧
    (WillAsPublished (.router 0) (fun _ => .go) (connectedWillD false) "d" true (willD false) "d" ↔
      (willD false).retain = false ∨ ∀ sub ∈ (connectedWillD false).broker.subscriptions.lookup (willD false).topic,
        (connectedWillD false).receiver sub.clientId = none) ∧
    ∀ settings packet username tr result, Exec (processPacket settings packet "d" username) tr result →
      ∀ e ∈ forwards tr, retainFlag (sentBytes e.2) = true :=
  willAsPublished_iff (connectedWillD_lookup false) (.router 0) (fun _ => .go) true "d"

/-- The live copy that `c` is sent has RETAIN 1. -/
theorem willAsPublished_fails :
    ¬ WillAsPublished (.router 0) (fun _ => .go) (connectedWillD true) "d" true (willD true) "d" := by
  have hsub : { clientId := "c", filter := "t", qos := .AtMostOnce } ∈
      (connectedWillD true).broker.subscriptions.lookup (willD true).topic := by decide +kernel
  have hconnected : (connectedWillD true).receiver "c" = some 0 := by decide
  exact not_willAsPublished (connectedWillD_lookup true) rfl hsub hconnected

end AtomMqtt
