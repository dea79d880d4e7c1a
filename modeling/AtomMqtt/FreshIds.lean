import AtomMqtt.StartupRecovery
import AtomMqtt.TaskSpec

set_option autoImplicit false

/-! The client ids that the broker gives out. The counter begins at 1 in each life of the broker, and the ids
that it gives are names that clients may choose as well. They are fresh as long as nobody is ahead of it. -/
namespace AtomMqtt
open Programs

def anonymousId (n : ℕ) : String := "anonymous_" ++ toString n

theorem anonymousId_inj {m n : ℕ} (h : anonymousId m = anonymousId n) : m = n := by
  have hrepr : m.repr = n.repr := String.append_right_inj _ |>.mp h
  have hdigits : Nat.toDigits 10 m = Nat.toDigits 10 n := by
    rw [← Nat.toList_repr, ← Nat.toList_repr, hrepr]
  calc
    m = Nat.ofDigitChars 10 (Nat.toDigits 10 m) 0 := (Nat.ofDigitChars_toDigits (by decide) (by decide)).symm
    _ = Nat.ofDigitChars 10 (Nat.toDigits 10 n) 0 := by rw [hdigits]
    _ = n := Nat.ofDigitChars_toDigits (by decide) (by decide)

structure Unused (clientId : String) (broker : BrokerState) : Prop where
  sessions : broker.sessions.lookup clientId = none
  connections : broker.connections.lookup clientId = none

def given : BrokerEvent → Option (ThreadId × String)
  | .act i .generateClientId clientId => some (i, clientId)
  | _ => none

/-- The task has this id from the broker. -/
def Assigned (evs : List BrokerEvent) (i : ThreadId) (clientId : String) : Prop := (i, clientId) ∈ evs.filterMap given

instance (evs : List BrokerEvent) (i : ThreadId) (clientId : String) : Decidable (Assigned evs i clientId) :=
  inferInstanceAs (Decidable (_ ∈ _))

def Live (cfg : BrokerConfigState) (i : ThreadId) : Prop := ∃ p, cfg.thread i = .running p

/-- The task has the id, and no session yet. -/
structure Pending (settings : Settings) (evs : List BrokerEvent) (cfg : BrokerConfigState) (i : ThreadId)
    (clientId : String) : Prop where
  assigned : Assigned evs i clientId
  live : Live cfg i
  session : (phases settings evs i).session = none

/-- The counter does not come to this id any more, and no task is about to use it. -/
structure Harmless (settings : Settings) (evs : List BrokerEvent) (cfg : BrokerConfigState) (clientId : String) : Prop where
  passed : ∀ n < 2 ^ 64, clientId = anonymousId n → n < cfg.shared.shared.broker.nextClientId.toNat
  apart : ∀ i, ¬ Pending settings evs cfg i clientId

/-- The ids that clients choose are harmless, the persistent sessions that a restart brings back have no id that the
    broker gives, and the counter does not overflow. -/
def KeepsApart (settings : Settings) (evs : List BrokerEvent) (cfg : BrokerConfigState) (e : BrokerEvent)
    (_ : BrokerConfigState) : Prop :=
  match e with
  | .act i (.sessionsInsert clientId _) _ => Assigned evs i clientId ∨ Harmless settings evs cfg clientId
  | .act _ .generateClientId _ => cfg.shared.shared.broker.nextClientId.toNat + 1 < 2 ^ 64
  | .world .restart => ∀ n, 1 ≤ n → n < 2 ^ 64 → cfg.shared.database.hasPersistent (anonymousId n) = false
  | _ => True

structure IdsApart (settings : Settings) (evs : List BrokerEvent) (cfg : BrokerConfigState) : Prop where
  ahead : ∀ n, cfg.shared.shared.broker.nextClientId.toNat ≤ n → n < 2 ^ 64 →
    Unused (anonymousId n) cfg.shared.shared.broker
  begun : ∀ i clientId, Assigned evs i clientId → cfg.thread i ≠ .fresh
  passed : ∀ i clientId, Assigned evs i clientId → Live cfg i →
    ∃ n < cfg.shared.shared.broker.nextClientId.toNat, clientId = anonymousId n
  alone : ∀ i j clientId, Assigned evs i clientId → Assigned evs j clientId → Live cfg i → Live cfg j → i = j
  pending : ∀ i clientId, Pending settings evs cfg i clientId → Unused clientId cfg.shared.shared.broker
  registered : ∀ i session, Live cfg i → (phases settings evs i).session = some session →
    Harmless settings evs cfg session.clientId

section
variable {settings : Settings} {evs : List BrokerEvent} {cfg cfg' : BrokerConfigState} {i : ThreadId} {a : Action}
  {r : Reply a} {input : Input} {clientId : String} {broker : BrokerState}

theorem unused_of_act (h : Unused clientId broker) (hsession : ∀ session, a ≠ .sessionsInsert clientId session)
    (hconnection : a ≠ .connectionsInsert clientId) : Unused clientId (a.onBroker i broker) := by
  constructor
  · have heffect : (a.onBroker i broker).sessions = a.onSessions broker.sessions := by cases a <;> cases i <;> rfl
    rw [heffect, Option.eq_none_iff_forall_ne_some]
    intro session hfound
    obtain ⟨old, hold, -⟩ | hinsert := session_of_act hfound
    · rw [h.sessions] at hold
      cases hold
    · exact hsession session hinsert
  · cases a with
    | connectionsInsert clientId' =>
      cases i with
      | connection k =>
        have hother : clientId ≠ clientId' := fun heq => hconnection (by rw [heq])
        exact (AList.lookup_insert_ne hother).trans h.connections
      | _ => exact h.connections
    | connectionsRemove clientId' =>
      change (broker.connections.erase clientId').lookup clientId = none
      rw [DashMap.lookup_erase, h.connections, ite_self]
    | webSubscribersInsert _ => cases i <;> exact h.connections
    | _ => exact h.connections

theorem counter_of_act (hgenerate : a ≠ .generateClientId) : (a.onBroker i broker).nextClientId = broker.nextClientId := by
  cases a with
  | generateClientId => exact absurd rfl hgenerate
  | _ => cases i <;> rfl

theorem assigned_snoc {e : BrokerEvent} :
    Assigned (evs ++ [e]) i clientId ↔ Assigned evs i clientId ∨ given e = some (i, clientId) := by
  rw [Assigned, List.filterMap_append, List.mem_append]
  apply or_congr_right
  cases hgiven : given e with
  | none => simp [hgiven]
  | some gift => simp [hgiven, eq_comm]

theorem assigned_kept {e : BrokerEvent} (hgiven : given e = none) :
    Assigned (evs ++ [e]) i clientId ↔ Assigned evs i clientId := by
  rw [assigned_snoc, hgiven]
  simp

theorem given_act (hgenerate : a ≠ .generateClientId) : given (.act i a r : BrokerEvent) = none := by
  cases a with
  | generateClientId => exact absurd rfl hgenerate
  | _ => rfl

theorem live_act {q : Broker Control} (hlive : Live cfg i) (hthread : cfg'.thread = Function.update cfg.thread i (.running q))
    (j : ThreadId) : Live cfg' j ↔ Live cfg j := by
  rw [Live, Live, hthread]
  by_cases hj : j = i
  · subst hj
    rw [Function.update_self]
    exact ⟨fun _ => hlive, fun _ => ⟨q, rfl⟩⟩
  · rw [Function.update_of_ne hj]

theorem session_before {j : ThreadId} (hallows : allows settings i (phases settings evs i) a)
    (h : (phases settings (evs ++ [.act i a r]) j).session = none) : (phases settings evs j).session = none := by
  rw [phases, Observer.ghosts_act] at h
  by_cases hj : j = i
  · subst hj
    rw [Function.update_self] at h
    cases hsession : (phases settings evs j).session with
    | none => rfl
    | some session =>
      have hkept := session_kept (r := r) hallows hsession
      exact absurd (h.symm.trans hkept) (by simp)
  · rw [Function.update_of_ne hj] at h
    exact h

theorem session_after {j : ThreadId} {session : SessionState} (hallows : allows settings i (phases settings evs i) a)
    (h : (phases settings (evs ++ [.act i a r]) j).session = some session) :
    (phases settings evs j).session = some session ∨ j = i ∧ a = .sessionsInsert session.clientId session := by
  rw [phases, Observer.ghosts_act] at h
  by_cases hj : j = i
  · subst hj
    rw [Function.update_self] at h
    cases session_next (phases settings evs j) a r with
    | inl hsame => exact .inl (hsame.symm.trans h)
    | inr hinsert =>
      obtain ⟨clientId, session', rfl, hsession⟩ := hinsert
      obtain rfl : session' = session := Option.some.inj (hsession.symm.trans h)
      exact .inr ⟨rfl, by rw [(sessionsInsert_connection hallows).2.1]⟩
  · rw [Function.update_of_ne hj] at h
    exact .inl h

theorem begun_act {q : Broker Control} (hthread : cfg'.thread = Function.update cfg.thread i (.running q)) {j : ThreadId}
    (h : j ≠ i → cfg.thread j ≠ .fresh) : cfg'.thread j ≠ .fresh := by
  rw [hthread]
  by_cases hj : j = i
  · rw [hj, Function.update_self]
    nofun
  · rw [Function.update_of_ne hj]
    exact h hj

section
variable {q : Broker Control} (hlive : Live cfg i) (hallows : allows settings i (phases settings evs i) a)
  (hthread : cfg'.thread = Function.update cfg.thread i (.running q)) (hgenerate : a ≠ .generateClientId)
include hlive hallows hthread hgenerate

theorem pending_put {j : ThreadId} (hj : Pending settings (evs ++ [.act i a r]) cfg' j clientId) :
    Pending settings evs cfg j clientId where
  assigned := (assigned_kept (given_act hgenerate)).mp hj.assigned
  live := (live_act hlive hthread j).mp hj.live
  session := session_before hallows hj.session

variable (hperform : cfg.shared.perform i a input = some (cfg'.shared, r))
include hperform

theorem harmless_put (h : Harmless settings evs cfg clientId) : Harmless settings (evs ++ [.act i a r]) cfg' clientId where
  passed := by
    rw [(node_performed hperform).1.broker, counter_of_act hgenerate]
    exact h.passed
  apart := fun j hj => h.apart j (pending_put hlive hallows hthread hgenerate hj)

theorem IdsApart.harmless_session (h : IdsApart settings evs cfg) (hok : KeepsApart settings evs cfg (.act i a r) cfg')
    {session : SessionState} (heq : a = .sessionsInsert clientId session) :
    Harmless settings (evs ++ [.act i a r]) cfg' clientId := by
  subst heq
  rcases hok with hown | hchosen
  · obtain ⟨n, hn, rfl⟩ := h.passed i clientId hown hlive
    constructor
    · intro m _ heq
      rw [(node_performed hperform).1.broker, counter_of_act hgenerate, ← anonymousId_inj heq]
      exact hn
    · intro j hj
      have hbefore := pending_put hlive hallows hthread hgenerate hj
      obtain rfl := h.alone j i _ hbefore.assigned hown hbefore.live hlive
      have hmade := hj.session
      rw [phases, Observer.ghosts_act, Function.update_self] at hmade
      cases hmade
  · exact harmless_put hlive hallows hthread hgenerate hperform hchosen

theorem IdsApart.harmless_connection (h : IdsApart settings evs cfg) (heq : a = .connectionsInsert clientId) :
    Harmless settings (evs ++ [.act i a r]) cfg' clientId := by
  subst heq
  cases i with
  | connection k =>
    obtain ⟨session, ⟨hregistered, -⟩, rfl⟩ := id hallows
    exact harmless_put hlive hallows hthread hgenerate hperform (h.registered _ session hlive hregistered)
  | _ => exact hallows.elim

theorem IdsApart.put (hok : KeepsApart settings evs cfg (.act i a r) cfg') (h : IdsApart settings evs cfg) :
    IdsApart settings (evs ++ [.act i a r]) cfg' := by
  have hbroker := (node_performed hperform).1.broker
  have hcounter : cfg'.shared.shared.broker.nextClientId = cfg.shared.shared.broker.nextClientId := by
    rw [hbroker, counter_of_act hgenerate]
  have hsame := live_act hlive hthread
  have hassigned : ∀ j clientId, Assigned (evs ++ [.act i a r]) j clientId ↔ Assigned evs j clientId := fun j clientId =>
    assigned_kept (given_act hgenerate)
  have hsession : ∀ clientId session, a = .sessionsInsert clientId session →
      Harmless settings (evs ++ [.act i a r]) cfg' clientId := fun clientId session heq =>
    h.harmless_session hlive hallows hthread hgenerate hperform hok heq
  have hconnection : ∀ clientId, a = .connectionsInsert clientId →
      Harmless settings (evs ++ [.act i a r]) cfg' clientId := fun clientId heq =>
    h.harmless_connection hlive hallows hthread hgenerate hperform heq
  constructor
  · intro n hn hbound
    rw [hcounter] at hn
    rw [hbroker]
    have hahead : ¬ Harmless settings (evs ++ [.act i a r]) cfg' (anonymousId n) := by
      intro hbehind
      have hlt := hbehind.passed n hbound rfl
      rw [hcounter] at hlt
      omega
    exact unused_of_act (h.ahead n hn hbound) (fun session heq => hahead (hsession _ session heq))
      fun heq => hahead (hconnection _ heq)
  · intro j clientId hassign
    exact begun_act hthread fun _ => h.begun j clientId ((hassigned j clientId).mp hassign)
  · intro j clientId hassign hlive'
    rw [hcounter]
    exact h.passed j clientId ((hassigned j clientId).mp hassign) ((hsame j).mp hlive')
  · intro j j' clientId hassign hassign' hlive' hlive''
    exact h.alone j j' clientId ((hassigned j clientId).mp hassign) ((hassigned j' clientId).mp hassign')
      ((hsame j).mp hlive') ((hsame j').mp hlive'')
  · intro j clientId hj
    rw [hbroker]
    exact unused_of_act (h.pending j clientId (pending_put hlive hallows hthread hgenerate hj))
      (fun session heq => (hsession _ session heq).apart j hj) fun heq => (hconnection _ heq).apart j hj
  · intro j session hlive' hregistered
    rcases session_after hallows hregistered with hbefore | ⟨-, hmade⟩
    · exact harmless_put hlive hallows hthread hgenerate hperform (h.registered j session ((hsame j).mp hlive') hbefore)
    · exact hsession _ session hmade

end

theorem generateClientId_reply {node node' : Node} {clientId : String}
    (h : node.perform i .generateClientId input = some (node', clientId)) :
    clientId = anonymousId node.shared.broker.nextClientId.toNat := by
  obtain ⟨⟨shared, r'⟩, hperform, heq⟩ := Option.map_eq_some_iff.mp h
  cases heq
  cases hperform
  rfl

section
variable {counter : ℕ} {q : Broker Control} (hlive : Live cfg i)
  (hallows : allows settings i (phases settings evs i) .generateClientId)
  (hperform : cfg.shared.perform i .generateClientId input = some (cfg'.shared, clientId))
  (hthread : cfg'.thread = Function.update cfg.thread i (.running q))
  (hstart : cfg.shared.shared.broker.nextClientId.toNat = counter) (hroom : counter + 1 < 2 ^ 64)

include hperform in
theorem broker_give : cfg'.shared.shared.broker = cfg.shared.shared.broker.generateClientId.2 :=
  (node_performed hperform).1.broker

include hperform hstart hroom in
theorem counter_give : cfg'.shared.shared.broker.nextClientId.toNat = counter + 1 := by
  rw [broker_give hperform]
  change (cfg.shared.shared.broker.nextClientId + 1).toNat = _
  rw [UInt64.toNat_add, hstart]
  exact Nat.mod_eq_of_lt hroom

include hperform in
theorem Unused.give {clientId : String} (h : Unused clientId cfg.shared.shared.broker) :
    Unused clientId cfg'.shared.shared.broker := by
  rw [broker_give hperform]
  exact ⟨h.sessions, h.connections⟩

theorem assigned_give {j : ThreadId} {clientId given : String}
    (h : Assigned (evs ++ [.act i .generateClientId given]) j clientId) :
    Assigned evs j clientId ∨ j = i ∧ clientId = given := by
  rw [assigned_snoc] at h
  rcases h with hold | hnew
  · exact .inl hold
  · cases hnew
    exact .inr ⟨rfl, rfl⟩

include hlive hallows hthread in
theorem pending_give {j : ThreadId} {clientId given : String}
    (h : Pending settings (evs ++ [.act i .generateClientId given]) cfg' j clientId) :
    Pending settings evs cfg j clientId ∨ clientId = given := by
  rcases assigned_give h.assigned with hold | ⟨-, hnew⟩
  · exact .inl ⟨hold, (live_act hlive hthread j).mp h.live, session_before hallows h.session⟩
  · exact .inr hnew

theorem IdsApart.not_assigned (h : IdsApart settings evs cfg)
    (hstart : cfg.shared.shared.broker.nextClientId.toNat = counter) {j : ThreadId}
    (hassign : Assigned evs j (anonymousId counter)) : ¬ Live cfg j := by
  intro hlive
  obtain ⟨n, hn, heq⟩ := h.passed j _ hassign hlive
  have hsame := anonymousId_inj heq
  omega

include hlive hallows hperform hthread hstart hroom

theorem harmless_give {given : String} (hgiven : given = anonymousId counter) {clientId : String}
    (h : Harmless settings evs cfg clientId) : Harmless settings (evs ++ [.act i .generateClientId given]) cfg' clientId where
  passed := by
    intro n hbound heq
    rw [counter_give hperform hstart hroom]
    have hlt := h.passed n hbound heq
    omega
  apart := by
    intro j hj
    rcases pending_give hlive hallows hthread hj with hold | heq
    · exact h.apart j hold
    · have hlt := h.passed counter (by omega) (heq.trans hgiven)
      omega

theorem IdsApart.give (h : IdsApart settings evs cfg) :
    IdsApart settings (evs ++ [.act i .generateClientId clientId]) cfg' := by
  obtain rfl : clientId = anonymousId counter := (generateClientId_reply hperform).trans (congrArg anonymousId hstart)
  have hsame := live_act hlive hthread
  have hcounter := counter_give hperform hstart hroom
  constructor
  · intro n hn hbound
    exact (h.ahead n (by omega) hbound).give hperform
  · intro j clientId hassign
    apply begun_act hthread
    intro hj
    rcases assigned_give hassign with hold | ⟨heq, -⟩
    · exact h.begun j clientId hold
    · exact absurd heq hj
  · intro j clientId hassign hlive'
    rw [hcounter]
    rcases assigned_give hassign with hold | ⟨-, heq⟩
    · obtain ⟨n, hn, heq⟩ := h.passed j clientId hold ((hsame j).mp hlive')
      exact ⟨n, by omega, heq⟩
    · exact ⟨counter, Nat.lt_succ_self _, heq⟩
  · intro j j' clientId hassign hassign' hlive' hlive''
    rcases assigned_give hassign with hold | ⟨rfl, heq⟩
    · rcases assigned_give hassign' with hold' | ⟨rfl, heq'⟩
      · exact h.alone j j' clientId hold hold' ((hsame j).mp hlive') ((hsame j').mp hlive'')
      · rw [heq'] at hold
        exact absurd ((hsame j).mp hlive') (h.not_assigned hstart hold)
    · rcases assigned_give hassign' with hold' | ⟨rfl, -⟩
      · rw [heq] at hold'
        exact absurd ((hsame j').mp hlive'') (h.not_assigned hstart hold')
      · rfl
  · intro j clientId hj
    refine Unused.give hperform ?_
    rcases pending_give hlive hallows hthread hj with hold | rfl
    · exact h.pending j clientId hold
    · exact h.ahead counter hstart.le (by omega)
  · intro j session hlive' hregistered
    rcases session_after hallows hregistered with hbefore | ⟨-, hmade⟩
    · have hold := h.registered j session ((hsame j).mp hlive') hbefore
      exact harmless_give hlive hallows hperform hthread hstart hroom rfl hold
    · cases hmade

end

theorem IdsApart.restart (hthread : cfg'.thread = fun i => (cfg.thread i).ended)
    (hshared : cfg'.shared = cfg.shared.restart)
    (hrows : ∀ n, 1 ≤ n → n < 2 ^ 64 → cfg.shared.database.hasPersistent (anonymousId n) = false)
    (h : IdsApart settings evs cfg) : IdsApart settings (evs ++ [.world .restart]) cfg' := by
  have hdead : ∀ j, ¬ Live cfg' j := by
    rintro j ⟨p, hp⟩
    rw [hthread] at hp
    cases hj : cfg.thread j <;> simp [hj, Thread.ended] at hp
  have hbroker : cfg'.shared.shared.broker = (startupCleanup cfg.shared.database.restore).1 := by
    rw [hshared]
    rfl
  obtain ⟨-, -, hconnections, hcounter, -⟩ := startupCleanup_frame cfg.shared.database.restore
  have hcounter : cfg'.shared.shared.broker.nextClientId.toNat = 1 := by
    rw [hbroker, hcounter]
    rfl
  constructor
  · intro n hn hbound
    rw [hcounter] at hn
    constructor
    · have hcleaned := (cleanedUp_startupCleanup cfg.shared.database.restore).after (.router 0)
      rw [hbroker, hcleaned.sessions, hrows n hn hbound]
      rfl
    · rw [hbroker, hconnections]
      rfl
  · intro j clientId hassign hfresh
    apply h.begun j clientId ((assigned_kept rfl).mp hassign)
    rw [hthread] at hfresh
    cases hj : cfg.thread j with
    | fresh => rfl
    | running p => simp [hj, Thread.ended] at hfresh
    | dead => simp [hj, Thread.ended] at hfresh
  · exact fun j _ _ hlive' => absurd hlive' (hdead j)
  · exact fun j _ _ _ _ hlive' _ => absurd hlive' (hdead j)
  · exact fun j _ hj => absurd hj.live (hdead j)
  · exact fun j _ hlive' _ => absurd hlive' (hdead j)

theorem IdsApart.frame {e : BrokerEvent} (h : IdsApart settings evs cfg) (hgiven : given e = none)
    (hregistered : ∀ j session, (phases settings evs j).session = some session → cfg.thread j ≠ .fresh)
    (hphases : phases settings (evs ++ [e]) = phases settings evs)
    (hbroker : cfg'.shared.shared.broker = cfg.shared.shared.broker)
    (hbegun : ∀ j, cfg.thread j ≠ .fresh → cfg'.thread j ≠ .fresh)
    (hlive : ∀ j, cfg.thread j ≠ .fresh → Live cfg' j → Live cfg j) :
    IdsApart settings (evs ++ [e]) cfg' := by
  have hassigned : ∀ j clientId, Assigned (evs ++ [e]) j clientId → Assigned evs j clientId := fun j clientId =>
    (assigned_kept hgiven).mp
  have hthen : ∀ j clientId, Assigned (evs ++ [e]) j clientId → Live cfg' j → Live cfg j := by
    intro j clientId hassign
    exact hlive j (h.begun j clientId (hassigned j clientId hassign))
  have hpending : ∀ j clientId, Pending settings (evs ++ [e]) cfg' j clientId → Pending settings evs cfg j clientId := by
    intro j clientId ⟨hassign, hlive', hnone⟩
    rw [hphases] at hnone
    exact ⟨hassigned j clientId hassign, hthen j clientId hassign hlive', hnone⟩
  constructor
  · rw [hbroker]
    exact h.ahead
  · exact fun j clientId hassign => hbegun j (h.begun j clientId (hassigned j clientId hassign))
  · intro j clientId hassign hlive'
    rw [hbroker]
    exact h.passed j clientId (hassigned j clientId hassign) (hthen j clientId hassign hlive')
  · intro j j' clientId hassign hassign' hlive' hlive''
    exact h.alone j j' clientId (hassigned j clientId hassign) (hassigned j' clientId hassign')
      (hthen j clientId hassign hlive') (hthen j' clientId hassign' hlive'')
  · intro j clientId hj
    rw [hbroker]
    exact h.pending j clientId (hpending j clientId hj)
  · intro j session hlive' hsession
    rw [hphases] at hsession
    obtain ⟨hpassed, hapart⟩ := h.registered j session (hlive j (hregistered j session hsession) hlive') hsession
    refine ⟨?_, fun j' hj' => hapart j' (hpending j' _ hj')⟩
    rw [hbroker]
    exact hpassed

theorem idsApart_initial : IdsApart settings [] initial := by
  constructor
  · exact fun _ _ _ => ⟨rfl, rfl⟩
  · exact fun _ _ hassign => absurd hassign List.not_mem_nil
  · exact fun _ _ hassign => absurd hassign List.not_mem_nil
  · exact fun _ _ _ hassign => absurd hassign List.not_mem_nil
  · exact fun _ _ hj => absurd hj.assigned List.not_mem_nil
  · exact fun _ _ ⟨_, hp⟩ => by cases hp

theorem IdsApart.step {e : BrokerEvent} (run : (brokerSystem settings).RunWhere (KeepsApart settings) initial evs cfg)
    (step : (brokerSystem settings).Step cfg e cfg') (ok : KeepsApart settings evs cfg e cfg')
    (hallows : ∀ i a r, e = .act i a r → allows settings i (phases settings evs i) a) (h : IdsApart settings evs cfg) :
    IdsApart settings (evs ++ [e]) cfg' := by
  have hregistered : ∀ j session, (phases settings evs j).session = some session → cfg.thread j ≠ .fresh := by
    intro j session hsession hfresh
    have hstart : phases settings evs j = Phase.start := Observer.ghosts_of_fresh run hfresh
    rw [hstart] at hsession
    cases hsession
  cases step with
  | @spawn i c hfresh hstart =>
    refine h.frame rfl hregistered (Observer.ghosts_spawn (fun _ _ => rfl) run hfresh) rfl ?_ ?_
    · intro j hj
      by_cases hij : j = i
      · subst hij
        exact absurd hfresh hj
      · change Function.update cfg.thread i _ j ≠ .fresh
        rw [Function.update_of_ne hij]
        exact hj
    · rintro j hj ⟨p, hp⟩
      by_cases hij : j = i
      · subst hij
        exact absurd hfresh hj
      · exact ⟨p, (Function.update_of_ne hij _ _).symm.trans hp⟩
  | @act i p a k input s r hrunning hnext hperform =>
    have hallow := hallows i a r rfl
    by_cases hgenerate : a = .generateClientId
    · subst hgenerate
      have hgive : cfg.shared.perform i .generateClientId input = some (s, r) := hperform
      exact h.give ⟨p, hrunning⟩ hallow hgive rfl rfl ok
    · exact h.put ⟨p, hrunning⟩ hallow rfl hgenerate hperform ok
  | @world w s ends hworld =>
    cases w with
    | commit n =>
      cases hworld
      exact h.frame rfl hregistered (Observer.ghosts_world _) rfl (fun _ hj => hj) fun _ _ hj => hj
    | restart =>
      obtain ⟨rfl, rfl⟩ := restart_of_world hworld
      exact h.restart rfl rfl ok

theorem idsApart_of_run (hrun : (brokerSystem settings).RunWhere (KeepsApart settings) initial evs cfg) :
    IdsApart settings evs cfg :=
  (covers settings).induction (fun _ => rfl) (J := IdsApart settings) idsApart_initial
    (fun run step ok hallows h => h.step run step ok hallows) hrun

end

/-- In a run whose steps keep the ids apart, the id that would be given next is the key of no session and of no
    connection, and neither is an id that was given when its task makes the session for it. -/
theorem freshIds {settings : Settings} {evs : List BrokerEvent} {cfg : BrokerConfigState}
    (hrun : (brokerSystem settings).RunWhere (KeepsApart settings) initial evs cfg) :
    Unused cfg.shared.shared.broker.generateClientId.1 cfg.shared.shared.broker ∧
      ∀ i clientId session cfg', Assigned evs i clientId →
        (brokerSystem settings).Step cfg (.act i (.sessionsInsert clientId session) ()) cfg' →
          Unused clientId cfg.shared.shared.broker := by
  have hapart := idsApart_of_run hrun
  refine ⟨hapart.ahead _ le_rfl (UInt64.toNat_lt _), ?_⟩
  intro i clientId session cfg' hassign hstep
  cases hstep with
  | @act _ p _ k input s r hrunning hnext hperform =>
    have hallows : allows settings i (phases settings evs i) (.sessionsInsert clientId session) :=
      (covers settings).allows (fun _ => rfl) hrun hrunning hnext
    cases i with
    | connection k => exact hapart.pending _ clientId ⟨hassign, ⟨p, hrunning⟩, hallows.1⟩
    | _ => exact hallows.elim

/-- The check of a step for a run in which every client takes the id that it is given. -/
def keepsApart (evs : List BrokerEvent) (cfg : BrokerConfigState) : BrokerEvent → Bool
  | .act i (.sessionsInsert clientId _) _ => decide (Assigned evs i clientId)
  | .act _ .generateClientId _ => decide (cfg.shared.shared.broker.nextClientId.toNat + 1 < 2 ^ 64)
  | .world _ => false
  | _ => true

theorem keepsApart_sound {settings : Settings} {evs : List BrokerEvent} {cfg cfg' : BrokerConfigState} {e : BrokerEvent}
    (h : keepsApart evs cfg e = true) : KeepsApart settings evs cfg e cfg' := by
  cases e with
  | act i a r =>
    cases a with
    | sessionsInsert clientId session => exact .inl (of_decide_eq_true h)
    | generateClientId =>
      have hroom := of_decide_eq_true h
      exact hroom
    | _ => trivial
  | spawn i c => trivial
  | world w => cases h

theorem freshIds_two : ∃ evs cfg, (brokerSystem openSettings).Run initial evs cfg ∧
    Assigned evs (.connection 0) "anonymous_1" ∧ Assigned evs (.connection 1) "anonymous_2" ∧
    Unused "anonymous_3" cfg.shared.shared.broker := by
  have hrun : ((brokerSystem openSettings).execWhere (fun evs cfg e _ => keepsApart evs cfg e) [] initial
      (joinMoves 0 "" true ++ joinMoves 1 "" true)).map
        (fun r => (r.2.shared.shared.broker.generateClientId.1, decide (Assigned r.1 (.connection 0) "anonymous_1"),
          decide (Assigned r.1 (.connection 1) "anonymous_2"))) = some ("anonymous_3", true, true) := by decide +kernel
  obtain ⟨⟨evs, cfg⟩, hexec, heq⟩ := Option.map_eq_some_iff.mp hrun
  simp only [Prod.mk.injEq, decide_eq_true_eq] at heq
  obtain ⟨hid, hfirst, hsecond⟩ := heq
  have hwhere : (brokerSystem openSettings).RunWhere (KeepsApart openSettings) initial evs cfg :=
    System.execWhere_run _ (fun _ _ _ _ => keepsApart_sound) .nil hexec
  have hfresh := (freshIds hwhere).1
  rw [hid] at hfresh
  exact ⟨evs, cfg, hwhere.mono _ fun _ _ _ _ _ => trivial, hfirst, hsecond, hfresh⟩

def takenOver : BrokerEvent → Option (ThreadId × String)
  | .act i (.sessionsSetDisconnected clientId) true => some (i, clientId)
  | _ => none

/-- A client has chosen the first id of the broker, and the client that is given it takes its session; and a client that
    was given it before a restart is still known by it after. -/
theorem freshIds_taken : (∃ evs cfg, (brokerSystem openSettings).Run initial evs cfg ∧
      Assigned evs (.connection 1) "anonymous_1" ∧ (.connection 1, "anonymous_1") ∈ evs.filterMap takenOver) ∧
    ¬ ∀ evs cfg, (brokerSystem openSettings).Run initial evs cfg →
      Unused cfg.shared.shared.broker.generateClientId.1 cfg.shared.shared.broker := by
  constructor
  · have hrun : (execute openSettings (joinMoves 0 "anonymous_1" true ++ joinMoves 1 "" true)).map (fun r =>
        (decide (Assigned r.1 (.connection 1) "anonymous_1"), decide ((.connection 1, "anonymous_1") ∈ r.1.filterMap takenOver))) =
        some (true, true) := by decide +kernel
    obtain ⟨⟨evs, cfg⟩, hexec, heq⟩ := Option.map_eq_some_iff.mp hrun
    simp only [Prod.mk.injEq, decide_eq_true_eq] at heq
    exact ⟨evs, cfg, execute_run hexec, heq.1, heq.2⟩
  · intro hall
    have hrun : (execute openSettings (joinMoves 0 "" false ++ [.world (.commit 1), .world .restart])).map (fun r =>
        (r.2.shared.shared.broker.generateClientId.1, (r.2.shared.shared.broker.sessions.lookup "anonymous_1").isSome)) =
        some ("anonymous_1", true) := by decide +kernel
    obtain ⟨⟨evs, cfg⟩, hexec, heq⟩ := Option.map_eq_some_iff.mp hrun
    simp only [Prod.mk.injEq] at heq
    have hfresh := (hall evs cfg (execute_run hexec)).sessions
    rw [heq.1] at hfresh
    rw [hfresh] at heq
    cases heq.2

end AtomMqtt
