import AtomMqtt.DashboardAccess
import AtomMqtt.StartupRecovery

set_option autoImplicit false

/-! What a web session holds. The list of a session and the tree change together, so between two turns they say
the same, as long as nobody else goes by the session's id. -/
namespace AtomMqtt
open Programs

/-- What a session has done: the filters that it has left in the tree, and whether its channel is known. -/
structure SessionTrail where
  subscriberId : String
  filters : List String
  entered : Bool

def SessionTrail.next (g : SessionTrail) : Action → SessionTrail
  | .subscribe _ filter _ =>
    { g with filters := if g.filters.contains filter then g.filters else g.filters ++ [filter] }
  | .unsubscribe _ filter => { g with filters := g.filters.filter (· != filter) }
  | .webSubscribersInsert _ => { g with entered := true }
  | .webSubscribersRemove _ => { g with entered := false }
  | _ => g

theorem SessionTrail.next_id (g : SessionTrail) (a : Action) : (g.next a).subscriberId = g.subscriberId := by
  cases a <;> rfl

def trailMonitor : ThreadId → Monitor Action Reply SessionTrail
  | .web _ => { allows := fun g a => SessionMay g.subscriberId a, next := fun g a _ => g.next a }
  | _ => { allows := fun _ _ => True, next := fun g _ _ => g }

def Control.trail : Control → SessionTrail
  | .webSession subscriberId _ => { subscriberId, filters := [], entered := false }
  | _ => { subscriberId := "", filters := [], entered := false }

def trailObserver : Observer ThreadId Action Reply Control SessionTrail where
  monitor := trailMonitor
  begin := fun _ c => c.trail

/-- Between two turns the list of a session is what it holds, and after the last one it holds nothing. -/
def OnTrail : ThreadId → SessionTrail → Control → Prop
  | .web _, g, .webSession subscriberId activeSubscriptions =>
    g.subscriberId = subscriberId ∧ g.filters = activeSubscriptions
  | .web _, g, .exited _ => g.filters = [] ∧ g.entered = false
  | .web _, _, _ => False
  | _, _, _ => True

section
variable {k : WebId} {g : SessionTrail}

theorem trail_run {a : Action} {f : Unit → Broker Control} (hmay : SessionMay g.subscriberId a)
    (h : Meets (trailMonitor (.web k)) (OnTrail (.web k)) (g.next a) (f ())) :
    Meets (trailMonitor (.web k)) (OnTrail (.web k)) g (run a >>= f) := .act hmay fun _ => h

theorem trail_ask {a : Action} {f : Reply a → Broker Control} (hmay : SessionMay g.subscriberId a)
    (h : ∀ r, Meets (trailMonitor (.web k)) (OnTrail (.web k)) (g.next a) (f r)) :
    Meets (trailMonitor (.web k)) (OnTrail (.web k)) g (ask a >>= f) := .act hmay h

theorem trail_going : Meets (trailMonitor (.web k)) (OnTrail (.web k)) g
    (return .webSession g.subscriberId g.filters) := .ret ⟨rfl, rfl⟩

theorem webSubscribe_trail (topicFilter : String) (qosVal : ℕ) : Meets (trailMonitor (.web k)) (OnTrail (.web k)) g
    (webSubscribe g.subscriberId g.filters topicFilter qosVal) := by
  unfold webSubscribe
  cases topicFilter.isEmpty with
  | true =>
    apply trail_run (a := .text _)
    · trivial
    exact trail_going
  | false =>
    apply trail_run (a := .subscribe g.subscriberId topicFilter _)
    · rfl
    apply trail_ask (a := .webSubscribersContains g.subscriberId)
    · rfl
    intro contained
    cases contained with
    | true =>
      apply trail_run (a := .text _)
      · trivial
      exact trail_going
    | false =>
      apply trail_run (a := .webSubscribersInsert g.subscriberId)
      · rfl
      apply trail_run (a := .text _)
      · trivial
      exact trail_going

theorem webUnsubscribe_trail (topicFilter : String) : Meets (trailMonitor (.web k)) (OnTrail (.web k)) g
    (webUnsubscribe g.subscriberId g.filters topicFilter) := by
  unfold webUnsubscribe
  cases topicFilter.isEmpty with
  | true => exact trail_going
  | false =>
    apply trail_run (a := .unsubscribe g.subscriberId topicFilter)
    · rfl
    apply trail_run (a := .text _)
    · trivial
    exact trail_going

theorem webCommand_trail (command : WebCommand) : Meets (trailMonitor (.web k)) (OnTrail (.web k)) g
    (webCommand g.subscriberId g.filters command) := by
  cases command with
  | subscribe topicFilter qosVal => exact webSubscribe_trail topicFilter qosVal
  | unsubscribe topicFilter => exact webUnsubscribe_trail topicFilter
  | invalid | ping | unknown =>
    apply trail_run (a := .text _)
    · trivial
    exact trail_going

theorem unsubscribes_trail {id : String} {filters : List String} (hid : g.subscriberId = id)
    (hsub : g.filters ⊆ filters) : Meets (trailMonitor (.web k)) (fun g' _ => g'.subscriberId = id ∧ g'.filters = []) g
      (filters.forM fun filter => run (.unsubscribe id filter)) := by
  induction filters generalizing g with
  | nil => exact .ret ⟨hid, List.subset_nil.mp hsub⟩
  | cons filter filters ih =>
    change Meets _ _ g
      (run (.unsubscribe id filter) >>= fun _ => filters.forM fun filter => run (.unsubscribe id filter))
    refine .act (o := Action.unsubscribe id filter) hid.symm fun _ => ?_
    apply ih (g := g.next (.unsubscribe id filter)) hid
    intro f hf
    obtain ⟨hmem, hne⟩ := List.mem_filter.mp hf
    cases List.mem_cons.mp (hsub hmem) with
    | inl heq => simp [heq] at hne
    | inr hmem => exact hmem

theorem webCleanup_trail : Meets (trailMonitor (.web k)) (OnTrail (.web k)) g
    (webCleanup g.subscriberId g.filters) := by
  unfold webCleanup
  apply (unsubscribes_trail rfl (List.Subset.refl _)).seq
  rintro g' _ ⟨hid, hfilters⟩
  exact .act (o := Action.webSubscribersRemove g.subscriberId) hid.symm fun _ => .ret ⟨hfilters, rfl⟩

theorem handleWsSession_trail : Meets (trailMonitor (.web k)) (OnTrail (.web k)) g
    (handleWsSession g.subscriberId g.filters) := by
  unfold handleWsSession
  apply trail_ask
  · trivial
  intro event
  match event with
  | .frame (.text command) => exact webCommand_trail command
  | .frame (.ping bytes) =>
    apply trail_run (a := .pong bytes)
    · trivial
    exact trail_going
  | .frame .close => exact webCleanup_trail
  | .frame .other => exact trail_going
  | .closed => exact webCleanup_trail
  | .forwarded message =>
    apply trail_ask (a := .text message)
    · trivial
    intro sent
    cases sent with
    | true => exact trail_going
    | false => exact webCleanup_trail

end

theorem trails_cover (settings : Settings) : trailObserver.Covers (brokerSystem settings) OnTrail where
  start := by
    intro node i c h
    cases i with
    | web k =>
      cases c with
      | webSession subscriberId activeSubscriptions => exact ⟨rfl, (List.isEmpty_iff.mp h).symm⟩
      | _ => cases h
    | _ => trivial
  body := by
    intro i g c h
    cases i with
    | web k =>
      cases c with
      | webSession subscriberId activeSubscriptions =>
        obtain ⟨rfl, rfl⟩ := h
        exact handleWsSession_trail
      | exited ok => exact trail_run (a := .dropReceiver) trivial (.ret h)
      | _ => exact h.elim
    | _ => exact (Meets.any (fun _ _ => trivial) g _).mono fun _ _ _ => trivial

/-- The action goes by this id, as that of a client or of a web session. -/
def Action.Uses (id : String) : Action → Prop
  | .subscribe clientId _ _ | .unsubscribe clientId _ | .unsubscribeAll clientId | .connectionsInsert clientId
  | .webSubscribersContains clientId | .webSubscribersInsert clientId | .webSubscribersRemove clientId
  | .sendEvent (.SaveSubscription clientId _ _) => clientId = id
  | _ => False

/-- The web session `k` begins under this id, and nobody else uses it. -/
structure Alone (k : WebId) (id : String) (e : BrokerEvent) : Prop where
  session : ∀ c, e = .spawn (.web k) c → c = .webSession id []
  others : ∀ i a r, e = .act i a r → i ≠ .web k → ¬ a.Uses id

/-- No row of the database is about this id. -/
def Database.Unaware (db : Database) (id : String) : Prop := ∀ filter, db.row (.subscription id filter) = none

/-- What the state says of an id that web session `k` alone may use. -/
structure HeldBy (k : WebId) (id : String) (node : Node) (filters : List String) (entered : Bool) : Prop where
  held : node.shared.broker.subscriptions.Held
  has : ∀ filter, node.shared.broker.subscriptions.Has id filter ↔ filter ∈ filters
  nodup : filters.Nodup
  entry : node.shared.broker.webSubscribers.lookup id = if entered then some k else none
  connection : node.shared.broker.connections.lookup id = none
  rows : node.database.Unaware id
  events : ∀ event ∈ node.shared.events, ∀ filter qos, event.2 ≠ .SaveSubscription id filter qos

section
variable {k : WebId} {id : String} {node node' : Node} {filters : List String} {entered : Bool}

theorem saves_of_tells {event : PersistEvent} {filter : String} {row : Row}
    (h : event.tells (.subscription id filter) = some (some row)) : ∃ qos, event = .SaveSubscription id filter qos := by
  cases event with
  | SaveSubscription clientId filter' qos =>
    simp only [PersistEvent.tells, Option.ite_none_right_eq_some] at h
    cases h.1
    exact ⟨qos, rfl⟩
  | _ => simp [PersistEvent.tells] at h

theorem Database.Unaware.execute {db : Database} (h : db.Unaware id) {sender : ThreadId} {event : PersistEvent}
    (hevent : ∀ filter qos, event ≠ .SaveSubscription id filter qos) : (db.execute sender event).Unaware id := by
  intro filter
  rw [execute_row, h filter]
  cases htells : event.tells (.subscription id filter) with
  | none => rfl
  | some told =>
    cases told with
    | none => rfl
    | some row =>
      obtain ⟨qos, heq⟩ := saves_of_tells htells
      exact absurd heq (hevent filter qos)

theorem Database.Unaware.startup {db : Database} (h : db.Unaware id) (filter : String) :
    ¬ (startupCleanup db.restore).1.subscriptions.Has id filter := by
  let Without (state : BrokerState) : Prop := state.subscriptions.Held ∧ ¬ state.subscriptions.Has id filter
  have hstep : ∀ state clientId, Without state → (state.subscriptions.unsubscribeAll clientId).Held ∧
      ¬ (state.subscriptions.unsubscribeAll clientId).Has id filter := by
    rintro state clientId ⟨hheld, hnone⟩
    exact ⟨hheld.step (.unsubscribeAll clientId), fun hhas => hnone ((has_unsubscribeAll_iff hheld clientId).mp hhas).1⟩
  have hrestored : Without db.restore := by
    refine ⟨held_of_restore db, fun hhas => ?_⟩
    have hentry := (held_of_restore db).mem_support.mpr hhas
    rw [SubscriptionMap.support, Set.mem_ofPred_eq, restore_subscriptions, Option.isSome_map] at hentry
    have hrow := h filter
    rw [Database.row, Option.map_eq_none_iff] at hrow
    rw [hrow] at hentry
    cases hentry
  have hafter : Without (startupCleanup db.restore).1 := by
    unfold startupCleanup
    apply List.foldlRecOn (motive := Without)
    · apply List.foldlRecOn (motive := Without) _ _ hrestored
      intro state hstate clientId _
      exact hstep state clientId hstate
    · intro state hstate clientId _
      exact hstep state clientId hstate
  exact hafter.2

namespace HeldBy

theorem restart (h : node.database.Unaware id) : HeldBy k id node.restart [] false where
  held := held_of_startupCleanup (held_of_restore _)
  has := by
    intro filter
    exact iff_of_false (h.startup filter) List.not_mem_nil
  nodup := List.nodup_nil
  entry := by
    change (startupCleanup node.database.restore).1.webSubscribers.lookup id = none
    rw [(startupCleanup_frame _).webSubscribers]
    rfl
  connection := by
    change (startupCleanup node.database.restore).1.connections.lookup id = none
    rw [(startupCleanup_frame _).connections]
    rfl
  rows := h
  events := by
    intro event hevent filter qos heq
    obtain ⟨removal, hremoval, rfl⟩ := List.mem_map.mp hevent
    obtain ⟨clientId, hclear | hclear⟩ := startupCleanup_events hremoval
    · cases hclear.symm.trans heq
    · cases hclear.symm.trans heq

theorem commit (h : HeldBy k id node filters entered) (n : ℕ) : HeldBy k id (node.commit n) filters entered :=
  { h with
    rows := by
      change ((node.shared.events.take n).foldl (fun db event => db.execute event.1 event.2) node.database).Unaware id
      apply List.foldlRecOn (motive := fun db : Database => db.Unaware id) _ _ h.rows
      intro db hdb event hevent
      exact hdb.execute (h.events event (List.mem_of_mem_take hevent))
    events := fun event hevent => h.events event (List.mem_of_mem_drop hevent) }

theorem own (h : HeldBy k id node filters entered) {a : Action} {input : Input} {r : Reply a} (hmay : SessionMay id a)
    (hperform : node.perform (.web k) a input = some (node', r)) :
    HeldBy k id node' (SessionTrail.next ⟨id, filters, entered⟩ a).filters
      (SessionTrail.next ⟨id, filters, entered⟩ a).entered := by
  obtain ⟨⟨hbroker, -, hevents⟩, hdatabase, -⟩ := node_performed hperform
  have hrows : node'.database.Unaware id := hdatabase ▸ h.rows
  have hkept : ∀ event ∈ node'.shared.events, ∀ filter qos, event.2 ≠ .SaveSubscription id filter qos := by
    have hsame : a.onEvents (.web k) node.shared.events = node.shared.events := by
      cases a <;> first | rfl | cases hmay
    rw [hevents, hsame]
    exact h.events
  obtain ⟨⟨broker', queue', channels', dropped', webChannels', events'⟩, database', life'⟩ := node'
  obtain rfl : broker' = a.onBroker (.web k) node.shared.broker := hbroker
  cases a with
  | subscribe clientId filter qos =>
    obtain rfl : clientId = id := hmay
    refine ⟨h.held.step (.subscribe clientId filter qos), ?_, ?_, h.entry, h.connection, hrows, hkept⟩
    · intro f
      change (node.shared.broker.subscriptions.subscribe clientId filter qos).Has clientId f ↔ _
      rw [has_subscribe_iff h.held, h.has]
      simp only [Prod.mk.injEq, true_and, SessionTrail.next, List.contains_iff_mem]
      split_ifs with hmem
      · exact ⟨fun hf => hf.elim (fun heq => heq ▸ hmem) id, .inr⟩
      · rw [List.mem_append, List.mem_singleton, or_comm]
    · simp only [SessionTrail.next, List.contains_iff_mem]
      split_ifs with hmem
      · exact h.nodup
      · rw [← List.concat_eq_append]
        exact h.nodup.concat hmem
  | unsubscribe clientId filter =>
    obtain rfl : clientId = id := hmay
    refine ⟨h.held.step (.unsubscribe clientId filter), ?_, h.nodup.filter _, h.entry, h.connection, hrows, hkept⟩
    intro f
    change (node.shared.broker.subscriptions.unsubscribe clientId filter).Has clientId f ↔ _
    rw [has_unsubscribe_iff h.held, h.has]
    simp [SessionTrail.next]
  | webSubscribersInsert clientId =>
    obtain rfl : clientId = id := hmay
    exact ⟨h.held, h.has, h.nodup, AList.lookup_insert _, h.connection, hrows, hkept⟩
  | webSubscribersRemove clientId =>
    obtain rfl : clientId = id := hmay
    exact ⟨h.held, h.has, h.nodup, AList.lookup_erase _ _, h.connection, hrows, hkept⟩
  | webSubscribersContains clientId | selectWeb | text message | pong bytes | dropReceiver =>
    exact ⟨h.held, h.has, h.nodup, h.entry, h.connection, hrows, hkept⟩
  | _ => cases hmay

theorem other (h : HeldBy k id node filters entered) {i : ThreadId} {a : Action} {input : Input} {r : Reply a}
    (huses : ¬ a.Uses id) (hperform : node.perform i a input = some (node', r)) :
    HeldBy k id node' filters entered := by
  obtain ⟨⟨hbroker, -, hevents⟩, hdatabase, -⟩ := node_performed hperform
  have hrows : node'.database.Unaware id := hdatabase ▸ h.rows
  have hkept : ∀ event ∈ node'.shared.events, ∀ filter qos, event.2 ≠ .SaveSubscription id filter qos := by
    rw [hevents]
    cases a with
    | sendEvent event =>
      intro sent hsent filter qos heq
      cases List.mem_append.mp hsent with
      | inl hold => exact h.events sent hold filter qos heq
      | inr hnew =>
        cases List.mem_singleton.mp hnew
        subst heq
        exact huses rfl
    | _ => exact h.events
  obtain ⟨⟨broker', queue', channels', dropped', webChannels', events'⟩, database', life'⟩ := node'
  obtain rfl : broker' = a.onBroker i node.shared.broker := hbroker
  cases a with
  | subscribe clientId filter qos =>
    refine ⟨h.held.step (.subscribe clientId filter qos), ?_, h.nodup, h.entry, h.connection, hrows, hkept⟩
    intro f
    change (node.shared.broker.subscriptions.subscribe clientId filter qos).Has id f ↔ _
    rw [has_subscribe_iff h.held, ← h.has]
    refine or_iff_right fun heq => huses ?_
    exact (Prod.mk.inj heq).1.symm
  | unsubscribe clientId filter =>
    refine ⟨h.held.step (.unsubscribe clientId filter), ?_, h.nodup, h.entry, h.connection, hrows, hkept⟩
    intro f
    change (node.shared.broker.subscriptions.unsubscribe clientId filter).Has id f ↔ _
    rw [has_unsubscribe_iff h.held, ← h.has]
    refine and_iff_left fun heq => huses ?_
    exact (Prod.mk.inj heq).1.symm
  | unsubscribeAll clientId =>
    refine ⟨h.held.step (.unsubscribeAll clientId), ?_, h.nodup, h.entry, h.connection, hrows, hkept⟩
    intro f
    change (node.shared.broker.subscriptions.unsubscribeAll clientId).Has id f ↔ _
    rw [has_unsubscribeAll_iff h.held, ← h.has]
    exact and_iff_left fun heq => huses heq.symm
  | connectionsInsert clientId =>
    have hne : clientId ≠ id := huses
    cases i with
    | connection j =>
      have hconnection : (node.shared.broker.connections.insert clientId j).lookup id = none := by
        rw [DashMap.lookup_insert, if_neg hne]
        exact h.connection
      exact ⟨h.held, h.has, h.nodup, h.entry, hconnection, hrows, hkept⟩
    | _ => exact ⟨h.held, h.has, h.nodup, h.entry, h.connection, hrows, hkept⟩
  | connectionsRemove clientId =>
    have hconnection : (node.shared.broker.connections.erase clientId).lookup id = none := by
      rw [DashMap.lookup_erase, h.connection, ite_self]
    exact ⟨h.held, h.has, h.nodup, h.entry, hconnection, hrows, hkept⟩
  | webSubscribersInsert clientId =>
    have hne : clientId ≠ id := huses
    cases i with
    | web j =>
      have hentry : (node.shared.broker.webSubscribers.insert clientId j).lookup id =
          if entered then some k else none := by
        rw [DashMap.lookup_insert, if_neg hne]
        exact h.entry
      exact ⟨h.held, h.has, h.nodup, hentry, h.connection, hrows, hkept⟩
    | _ => exact ⟨h.held, h.has, h.nodup, h.entry, h.connection, hrows, hkept⟩
  | webSubscribersRemove clientId =>
    have hne : clientId ≠ id := huses
    have hentry : (node.shared.broker.webSubscribers.erase clientId).lookup id = if entered then some k else none := by
      rw [DashMap.lookup_erase, if_neg hne]
      exact h.entry
    exact ⟨h.held, h.has, h.nodup, hentry, h.connection, hrows, hkept⟩
  | _ => exact ⟨h.held, h.has, h.nodup, h.entry, h.connection, hrows, hkept⟩

end HeldBy

end

def trails (evs : List BrokerEvent) : ThreadId → SessionTrail :=
  trailObserver.ghosts (fun _ => { subscriberId := "", filters := [], entered := false }) evs

/-- While session `k` runs, the state says of its id what the session has done; before and after, nothing. -/
structure InStep (k : WebId) (id : String) (evs : List BrokerEvent) (cfg : BrokerConfigState) : Prop where
  running : ∀ p, cfg.thread (.web k) = .running p → (trails evs (.web k)).subscriberId = id ∧
    HeldBy k id cfg.shared (trails evs (.web k)).filters (trails evs (.web k)).entered
  absent : (∀ p, cfg.thread (.web k) ≠ .running p) → HeldBy k id cfg.shared [] false

section
variable {settings : Settings} {db : Database} {k : WebId} {id : String} {evs : List BrokerEvent}
  {cfg cfg' : BrokerConfigState}

theorem InStep.frame {e : BrokerEvent} (h : InStep k id evs cfg)
    (hthread : cfg'.thread (.web k) = cfg.thread (.web k)) (htrail : trails (evs ++ [e]) (.web k) = trails evs (.web k))
    (hheld : ∀ filters entered, HeldBy k id cfg.shared filters entered → HeldBy k id cfg'.shared filters entered) :
    InStep k id (evs ++ [e]) cfg' where
  running := by
    intro p hp
    rw [hthread] at hp
    rw [htrail]
    obtain ⟨hid, hheldBy⟩ := h.running p hp
    exact ⟨hid, hheld _ _ hheldBy⟩
  absent := by
    rw [hthread]
    exact fun hnone => hheld _ _ (h.absent hnone)

theorem InStep.heldBy (h : InStep k id evs cfg) : ∃ filters entered, HeldBy k id cfg.shared filters entered := by
  by_cases hrunning : ∃ p, cfg.thread (.web k) = .running p
  · obtain ⟨p, hp⟩ := hrunning
    exact ⟨_, _, (h.running p hp).2⟩
  · exact ⟨_, _, h.absent fun p hp => hrunning ⟨p, hp⟩⟩

theorem InStep.unaware (h : InStep k id evs cfg) : cfg.shared.database.Unaware id := by
  obtain ⟨_, _, hheld⟩ := h.heldBy
  exact hheld.rows

theorem InStep.step {e : BrokerEvent} (h : InStep k id evs cfg)
    (run : (brokerSystem settings).RunWhere (fun _ _ e _ => Alone k id e) (started db) evs cfg)
    (step : (brokerSystem settings).Step cfg e cfg') (halone : Alone k id e) : InStep k id (evs ++ [e]) cfg' := by
  cases step with
  | @spawn j c hfresh _ =>
    by_cases hj : j = .web k
    · subst hj
      have hnone : ∀ p, cfg.thread (.web k) ≠ .running p := by
        intro p hp
        cases hfresh.symm.trans hp
      obtain rfl := halone.session c rfl
      have htrail : trails (evs ++ [.spawn (.web k) (.webSession id [])]) (.web k) = ⟨id, [], false⟩ := by
        rw [trails, Observer.ghosts_snoc]
        exact Function.update_self ..
      refine ⟨fun p _ => ?_, fun hrest => absurd (Function.update_self ..) (hrest _)⟩
      rw [htrail]
      exact ⟨rfl, h.absent hnone⟩
    · refine h.frame (Function.update_of_ne (Ne.symm hj) _ _) ?_ fun _ _ hheld => hheld
      rw [trails, Observer.ghosts_snoc]
      exact Function.update_of_ne (Ne.symm hj) _ _
  | @act i p a f input node r hrunning hnext hperform =>
    by_cases hi : i = .web k
    · subst hi
      obtain ⟨hid, hheld⟩ := h.running p hrunning
      have hmay : SessionMay (trails evs (.web k)).subscriberId a :=
        (trails_cover settings).allows (fun _ => rfl) run hrunning hnext
      have htrail : trails (evs ++ [.act (.web k) a r]) (.web k) = (trails evs (.web k)).next a := by
        rw [trails, Observer.ghosts_act]
        exact Function.update_self ..
      refine ⟨fun p _ => ?_, fun hrest => absurd (Function.update_self ..) (hrest _)⟩
      rw [htrail]
      have hown := hheld.own (hid ▸ hmay) hperform
      have hnext : SessionTrail.next ⟨id, (trails evs (.web k)).filters, (trails evs (.web k)).entered⟩ a =
          (trails evs (.web k)).next a := by
        rw [← hid]
      rw [hnext] at hown
      exact ⟨((trails evs (.web k)).next_id a).trans hid, hown⟩
    · refine h.frame (Function.update_of_ne (Ne.symm hi) _ _) ?_ fun _ _ hheld => ?_
      · rw [trails, Observer.ghosts_act]
        exact Function.update_of_ne (Ne.symm hi) _ _
      · exact hheld.other (halone.others i a r rfl hi) hperform
  | @world w node ends hworld =>
    cases w with
    | commit n =>
      cases hworld
      refine h.frame rfl ?_ fun _ _ hheld => hheld.commit n
      rw [trails, Observer.ghosts_world]
      rfl
    | restart =>
      obtain ⟨rfl, rfl⟩ := restart_of_world hworld
      refine ⟨fun p hp => ?_, fun _ => HeldBy.restart h.unaware⟩
      change (cfg.thread (.web k)).ended = .running p at hp
      cases hthread : cfg.thread (.web k) <;> rw [hthread] at hp <;> cases hp

theorem inStep_of_run (hdb : db.Unaware id)
    (hrun : (brokerSystem settings).RunWhere (fun _ _ e _ => Alone k id e) (started db) evs cfg) :
    InStep k id evs cfg := by
  induction hrun with
  | nil =>
    refine ⟨fun p hp => ?_, fun _ => HeldBy.restart hdb⟩
    cases hp
  | snoc run step halone ih => exact ih.step run step halone

/-- A session between two turns. -/
theorem onTrail_of_run (hrun : (brokerSystem settings).RunWhere (fun _ _ e _ => Alone k id e) (started db) evs cfg)
    {c : Control} (hthread : cfg.thread (.web k) = .running (.ret c)) : OnTrail (.web k) (trails evs (.web k)) c := by
  have hmeets : Meets (trailMonitor (.web k)) (OnTrail (.web k)) (trails evs (.web k)) (.ret c) :=
    (trails_cover settings).meets (fun _ => rfl) hrun hthread
  exact hmeets.of_ret

theorem session_holds (hdb : db.Unaware id)
    (hrun : (brokerSystem settings).RunWhere (fun _ _ e _ => Alone k id e) (started db) evs cfg)
    {activeSubscriptions : List String}
    (hthread : cfg.thread (.web k) = .running (.ret (.webSession id activeSubscriptions))) :
    activeSubscriptions.Nodup ∧
      ∀ filter, cfg.shared.shared.broker.subscriptions.Has id filter ↔ filter ∈ activeSubscriptions := by
  obtain ⟨-, hheld⟩ := (inStep_of_run hdb hrun).running _ hthread
  obtain ⟨-, hfilters⟩ := onTrail_of_run hrun hthread
  rw [hfilters] at hheld
  exact ⟨hheld.nodup, hheld.has⟩

theorem session_gone (hdb : db.Unaware id)
    (hrun : (brokerSystem settings).RunWhere (fun _ _ e _ => Alone k id e) (started db) evs cfg) {ok : Bool}
    (hthread : cfg.thread (.web k) = .running (.ret (.exited ok))) :
    (∀ filter, ¬ cfg.shared.shared.broker.subscriptions.Has id filter) ∧
      cfg.shared.shared.broker.webSubscribers.lookup id = none := by
  obtain ⟨-, hheld⟩ := (inStep_of_run hdb hrun).running _ hthread
  obtain ⟨hfilters, hentered⟩ := onTrail_of_run hrun hthread
  rw [hfilters, hentered] at hheld
  exact ⟨fun filter hhas => List.not_mem_nil ((hheld.has filter).mp hhas), hheld.entry⟩

end

end AtomMqtt
