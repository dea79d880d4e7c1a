import AtomMqtt.Restore
import AtomMqtt.DutyRuns
import AtomMqtt.Effects

set_option autoImplicit false

/-! Sessions, subscriptions and wills in the database. Each write of these maps is followed by an event of the
same task about the same row. Tables and maps agree at rest where no event has been overtaken by a later write
of another task. -/
namespace AtomMqtt
open Programs

inductive RowKey where
  | session (clientId : String)
  | subscription (clientId filter : String)
  | will (clientId : String)
  deriving DecidableEq, Repr

inductive Row where
  | session (row : SessionRow)
  | subscription (qos : ℤ)
  | will (row : WillRow)
  deriving DecidableEq, Repr

def SessionState.row (session : SessionState) : SessionRow where
  protocolVersion := match session.protocolVersion with
    | .V5 => 5
    | _ => 4
  cleanSession := session.cleanSession
  keepAlive := session.keepAlive
  username := session.username

def WillMessage.row (will : WillMessage) : WillRow where
  topic := will.topic
  payload := will.payload
  qos := will.qos.toI32
  retain := will.retain
  delayInterval := will.delayInterval

/-- The row that the maps are to have in the database. -/
def BrokerState.row (self : BrokerState) : RowKey → Option Row
  | .session clientId => (self.sessions.lookup clientId).map fun session => .session session.row
  | .subscription clientId filter => (self.subscriptions.entries (clientId, filter)).map fun qos => .subscription qos.toI32
  | .will clientId => (self.wills.lookup clientId).map fun sent => .will sent.2.row

def Database.row (db : Database) : RowKey → Option Row
  | .session clientId => (db.sessions.lookup clientId).map .session
  | .subscription clientId filter => (db.subscriptions.lookup (clientId, filter)).map .subscription
  | .will clientId => (db.willMessages.lookup clientId).map fun saved => .will saved.2

/-- The row that an event leaves under a key, if it is about this key. -/
def PersistEvent.tells (key : RowKey) : PersistEvent → Option (Option Row)
  | .SaveSession clientId protocolVersion cleanSession keepAlive username =>
    if .session clientId = key then some (some (.session { protocolVersion, cleanSession, keepAlive, username })) else none
  | .RemoveSession clientId => if .session clientId = key then some none else none
  | .SaveSubscription clientId filter qos =>
    if .subscription clientId filter = key then some (some (.subscription qos)) else none
  | .RemoveSubscription clientId filter => if .subscription clientId filter = key then some none else none
  | .RemoveClientSubscriptions clientId =>
    match key with
    | .subscription clientId' _ => if clientId' = clientId then some none else none
    | _ => none
  | .SaveWill clientId topic payload qos retain delayInterval =>
    if .will clientId = key then some (some (.will { topic, payload, qos, retain, delayInterval })) else none
  | .RemoveWill clientId => if .will clientId = key then some none else none
  | _ => none

def Action.tells (key : RowKey) : Action → Option (Option Row)
  | .sendEvent event => event.tells key
  | _ => none

/-- The run is one of connections and the router, as far as the key is concerned, of one life of the broker. -/
def ofConnections (key : RowKey) : BrokerEvent → Bool
  | .act (.web _) (.subscribe clientId filter _) _ | .act (.web _) (.unsubscribe clientId filter) _ =>
    key != .subscription clientId filter
  | .world .restart => false
  | _ => true

/-- An event about the key is sent while it is true of the maps, or while another task still owes one. -/
def inOrder (key : RowKey) (evs : List BrokerEvent) (cfg : BrokerConfigState) : BrokerEvent → Bool
  | .act i (.sendEvent event) _ =>
    match event.tells key with
    | some row => othersTell (Action.tells key) evs cfg i || cfg.shared.shared.broker.row key == row
    | none => true
  | _ => true

/-- All events are committed, and no task owes one about the key. -/
def persisted (key : RowKey) (evs : List BrokerEvent) (cfg : BrokerConfigState) : Bool :=
  cfg.shared.shared.events.isEmpty && (actors evs).all fun i => (owed evs cfg i).all fun a => (a.tells key).isNone

theorem lookup_deleteClientRows (clientId : String) (rows : DashMap (String × String) ℤ) (key : String × String) :
    (deleteClientRows clientId rows).lookup key = if key.1 = clientId then none else rows.lookup key := by
  have herase : ∀ (keys : List (String × String)) (rows : DashMap (String × String) ℤ),
      (keys.foldl (fun rows key => rows.erase key) rows).lookup key = if key ∈ keys then none else rows.lookup key := by
    intro keys
    induction keys with
    | nil => exact fun _ => rfl
    | cons first keys ih =>
      intro rows
      rw [List.foldl_cons, ih, DashMap.lookup_erase]
      by_cases hfirst : first = key
      · simp [hfirst]
      · simp [hfirst, Ne.symm hfirst]
  rw [deleteClientRows, herase]
  by_cases hclient : key.1 = clientId
  · rw [if_pos hclient]
    split_ifs with hmem
    · rfl
    · rw [AList.lookup_eq_none]
      intro hkey
      exact hmem (List.mem_filter.mpr ⟨hkey, beq_iff_eq.mpr hclient⟩)
  · rw [if_neg hclient, if_neg]
    intro hmem
    exact hclient (beq_iff_eq.mp (List.mem_filter.mp hmem).2)

theorem execute_row {key : RowKey} (db : Database) (sender : ThreadId) (event : PersistEvent) :
    (db.execute sender event).row key = (event.tells key).getD (db.row key) := by
  cases event with
  | SaveSession clientId protocolVersion cleanSession keepAlive username =>
    cases key with
    | session clientId' =>
      simp only [Database.execute, Database.row, PersistEvent.tells, RowKey.session.injEq, DashMap.lookup_insert]
      split_ifs <;> rfl
    | _ => rfl
  | RemoveSession clientId =>
    cases key with
    | session clientId' =>
      simp only [Database.execute, Database.row, PersistEvent.tells, RowKey.session.injEq, DashMap.lookup_erase]
      split_ifs <;> rfl
    | _ => rfl
  | SaveSubscription clientId filter qos =>
    cases key with
    | subscription clientId' filter' =>
      simp only [Database.execute, Database.row, PersistEvent.tells, RowKey.subscription.injEq, DashMap.lookup_insert,
        Prod.mk.injEq]
      split_ifs <;> rfl
    | _ => rfl
  | RemoveSubscription clientId filter =>
    cases key with
    | subscription clientId' filter' =>
      simp only [Database.execute, Database.row, PersistEvent.tells, RowKey.subscription.injEq, DashMap.lookup_erase,
        Prod.mk.injEq]
      split_ifs <;> rfl
    | _ => rfl
  | RemoveClientSubscriptions clientId =>
    cases key with
    | subscription clientId' filter' =>
      simp only [Database.execute, Database.row, PersistEvent.tells, lookup_deleteClientRows]
      split_ifs <;> rfl
    | _ => rfl
  | SaveWill clientId topic payload qos retain delayInterval =>
    cases key with
    | will clientId' =>
      simp only [Database.execute, Database.row, PersistEvent.tells, RowKey.will.injEq, DashMap.lookup_insert]
      split_ifs <;> rfl
    | _ => rfl
  | RemoveWill clientId =>
    cases key with
    | will clientId' =>
      simp only [Database.execute, Database.row, PersistEvent.tells, RowKey.will.injEq, DashMap.lookup_erase]
      split_ifs <;> rfl
    | _ => rfl
  | _ => cases key <;> rfl

def WritesRow (key : RowKey) : (a : Action) → Reply a → Prop
  | .sessionsInsert clientId _, _ | .sessionsRemove clientId, _ => key = .session clientId
  | .willsInsert clientId _, _ | .willsRemove clientId, some _ => key = .will clientId
  | .subscribe clientId filter _, _ | .unsubscribe clientId filter, _ => key = .subscription clientId filter
  | .unsubscribeAll clientId, _ => ∃ filter, key = .subscription clientId filter
  | _, _ => False

section
variable {key : RowKey} {i : ThreadId} {n : Note} {a : Action} {r : Reply a} {owes owes' : List Action} {node node' : Node}
  {input : Input}

theorem sessionRow_of_act (hperform : node.perform i a input = some (node', r)) {clientId : String}
    (hwrites : ¬ WritesRow (.session clientId) a r) :
    node'.shared.broker.row (.session clientId) = node.shared.broker.row (.session clientId) := by
  simp only [BrokerState.row, (node_perform_effect hperform).1.sessions]
  cases a with
  | sessionsInsert clientId' session =>
    have hne : clientId' ≠ clientId := fun h => hwrites (congrArg _ h.symm)
    simp only [Action.onSessions, DashMap.lookup_insert, if_neg hne]
  | sessionsRemove clientId' =>
    have hne : clientId' ≠ clientId := fun h => hwrites (congrArg _ h.symm)
    simp only [Action.onSessions, DashMap.lookup_erase, if_neg hne]
  | sessionsSetDisconnected clientId' =>
    simp only [Action.onSessions, DashMap.lookup_modify]
    split_ifs
    · rw [Option.map_map]
      rfl
    · rfl
  | _ => rfl

theorem subscriptionRow_of_act (hperform : node.perform i a input = some (node', r))
    (hheld : node.shared.broker.subscriptions.Held) {clientId filter : String}
    (hwrites : ¬ WritesRow (.subscription clientId filter) a r) :
    node'.shared.broker.row (.subscription clientId filter) = node.shared.broker.row (.subscription clientId filter) := by
  simp only [BrokerState.row, (node_perform_effect hperform).1.subscriptions]
  cases a with
  | subscribe clientId' filter' qos =>
    have hentries : (node.shared.broker.subscriptions.subscribe clientId' filter' qos).entries = _ :=
      entries_step hheld (.subscribe clientId' filter' qos)
    rw [Action.onSubscriptions, hentries]
    refine congrArg _ (if_neg ?_)
    intro heq
    cases heq
    exact hwrites rfl
  | unsubscribe clientId' filter' =>
    have hentries : (node.shared.broker.subscriptions.unsubscribe clientId' filter').entries = _ :=
      entries_step hheld (.unsubscribe clientId' filter')
    rw [Action.onSubscriptions, hentries]
    refine congrArg _ (if_neg ?_)
    intro heq
    cases heq
    exact hwrites rfl
  | unsubscribeAll clientId' =>
    have hentries : (node.shared.broker.subscriptions.unsubscribeAll clientId').entries = _ :=
      entries_step hheld (.unsubscribeAll clientId')
    rw [Action.onSubscriptions, hentries]
    refine congrArg _ (if_neg ?_)
    intro heq
    cases heq
    exact hwrites ⟨filter, rfl⟩
  | _ => rfl

theorem willRow_of_act (hperform : node.perform i a input = some (node', r)) {clientId : String}
    (hwrites : ¬ WritesRow (.will clientId) a r) :
    node'.shared.broker.row (.will clientId) = node.shared.broker.row (.will clientId) := by
  simp only [BrokerState.row, (node_perform_effect hperform).1.wills]
  cases a with
  | willsInsert clientId' will =>
    have hne : clientId' ≠ clientId := fun h => hwrites (congrArg _ h.symm)
    simp only [Action.onWills, DashMap.lookup_insert, if_neg hne]
  | willsRemove clientId' =>
    simp only [Action.onWills, DashMap.lookup_erase]
    split_ifs with hclient
    · subst hclient
      cases r with
      | none => rw [willsRemove_reply hperform]
      | some sent => exact absurd rfl hwrites
    · rfl
  | _ => rfl

theorem row_of_act (hperform : node.perform i a input = some (node', r)) (hheld : node.shared.broker.subscriptions.Held)
    (hwrites : ¬ WritesRow key a r) : node'.shared.broker.row key = node.shared.broker.row key := by
  cases key with
  | session clientId => exact sessionRow_of_act hperform hwrites
  | subscription clientId filter => exact subscriptionRow_of_act hperform hheld hwrites
  | will clientId => exact willRow_of_act hperform hwrites

def Clears (key : RowKey) (i : ThreadId) (a : Action) : Prop :=
  match i, a with
  | .router _, .unsubscribeAll clientId => ∃ filter, key = .subscription clientId filter
  | .router _, .sessionsRemove clientId => key = .session clientId
  | _, _ => False

theorem follows_clears (i : ThreadId) (n : Note) (a : Action) (r : Reply a) :
    FollowedBy (Clears key i) (fun b => (b.tells key).isSome = true) (follows i n a r) := by
  cases i with
  | router life =>
    cases a with
    | recvRouter =>
      obtain ⟨sender, message⟩ := r
      cases message with
      | Publish topic payload qos retain sourceClient =>
        cases retain <;> simp [FollowedBy, follows, routerFollows, retains, Clears]
      | ClientDisconnected clientId cleanSession =>
        cases cleanSession with
        | false => simp [FollowedBy, follows, routerFollows, Clears]
        | true =>
          refine ⟨fun h => h.elim, ?_, fun h => h.elim, ?_, fun h => h.elim, trivial⟩
          · intro h
            obtain ⟨filter, rfl⟩ := h
            exact ⟨_, List.mem_cons_self, by simp [Action.tells, PersistEvent.tells]⟩
          · intro h
            cases h
            exact ⟨_, List.mem_cons_self, by simp [Action.tells, PersistEvent.tells]⟩
    | willsRemove clientId =>
      cases r with
      | none => trivial
      | some sent =>
        cases hretain : sent.2.retain <;> simp [FollowedBy, follows, routerFollows, retains, hretain, Clears]
    | lookup topic =>
      apply FollowedBy.of_none
      intro b hb
      obtain ⟨_, _, rfl⟩ | ⟨_, _, rfl⟩ := mem_forwards hb
      · exact id
      · exact id
    | _ => trivial
  | _ => exact FollowedBy.of_none fun _ _ h => h.elim

theorem told_of_clears (hacts : Acts i n owes a r owes')
    (hfollowed : FollowedBy (Clears key i) (fun b => (b.tells key).isSome = true) owes) (hlisted : a.listed = true)
    (howable : Owable i a) (hclears : Clears key i a) : ∃ b ∈ owes', (b.tells key).isSome = true := by
  obtain ⟨rest, howes, howes'⟩ := hacts.owed hlisted howable
  rw [howes] at hfollowed
  obtain ⟨b, hb, htells⟩ := hfollowed.1 hclears
  exact ⟨b, howes' ▸ List.mem_append_right _ hb, htells⟩

theorem told_of_follows (hacts : Acts i n owes a r owes') {event : PersistEvent}
    (hevent : .sendEvent event ∈ follows i (n.next a r) a r) (hlisted : a.listed = true)
    (htells : (event.tells key).isSome = true) : ∃ b ∈ owes', (b.tells key).isSome = true := by
  refine ⟨.sendEvent event, ?_, htells⟩
  by_cases howable : Owable i a
  · obtain ⟨rest, -, howes'⟩ := hacts.owed hlisted howable
    exact howes' ▸ List.mem_append_left _ hevent
  · rw [(hacts.begun hlisted howable).2.2]
    exact hevent

theorem told_of_writes (hacts : Acts i n owes a r owes')
    (hfollowed : FollowedBy (Clears key i) (fun b => (b.tells key).isSome = true) owes)
    (hconnections : ofConnections key (.act i a r) = true) (hwrites : WritesRow key a r) :
    ∃ b ∈ owes', (b.tells key).isSome = true := by
  cases a with
  | sessionsInsert clientId session =>
    obtain rfl : key = .session clientId := hwrites
    cases i with
    | connection k =>
      have hevent : .sendEvent (savedSession clientId session) ∈
          follows (.connection k) (n.next (.sessionsInsert clientId session) r) (.sessionsInsert clientId session) r :=
        List.mem_append_right _ List.mem_cons_self
      exact told_of_follows hacts hevent rfl (by simp [savedSession, PersistEvent.tells])
    | _ => exact (hacts.never rfl id id).elim
  | sessionsRemove clientId =>
    cases i with
    | router life => exact told_of_clears hacts hfollowed rfl trivial hwrites
    | _ => exact (hacts.never rfl id id).elim
  | willsInsert clientId will =>
    obtain rfl : key = .will clientId := hwrites
    cases i with
    | connection k =>
      have htells : (PersistEvent.tells (.will clientId) (savedWill clientId will)).isSome = true := by
        simp [savedWill, PersistEvent.tells]
      exact told_of_follows hacts List.mem_cons_self rfl htells
    | _ => exact (hacts.never rfl id id).elim
  | willsRemove clientId =>
    cases r with
    | none => exact hwrites.elim
    | some sent =>
      obtain rfl : key = .will clientId := hwrites
      have htells : (PersistEvent.tells (.will clientId) (.RemoveWill clientId)).isSome = true := by
        simp [PersistEvent.tells]
      cases i with
      | router life =>
        refine told_of_follows hacts ?_ rfl htells
        exact List.mem_cons_of_mem _ (List.mem_append_right _ List.mem_cons_self)
      | connection k => exact told_of_follows hacts List.mem_cons_self rfl htells
      | _ => exact (hacts.never rfl id id).elim
  | subscribe clientId filter qos =>
    obtain rfl : key = .subscription clientId filter := hwrites
    cases i with
    | connection k =>
      exact told_of_follows hacts List.mem_cons_self rfl (by simp [PersistEvent.tells])
    | web k => simp [ofConnections] at hconnections
    | _ => exact (hacts.never rfl id id).elim
  | unsubscribe clientId filter =>
    obtain rfl : key = .subscription clientId filter := hwrites
    cases i with
    | connection k =>
      exact told_of_follows hacts List.mem_cons_self rfl (by simp [PersistEvent.tells])
    | web k => simp [ofConnections] at hconnections
    | _ => exact (hacts.never rfl id id).elim
  | unsubscribeAll clientId =>
    cases i with
    | router life => exact told_of_clears hacts hfollowed rfl trivial hwrites
    | _ => exact (hacts.never rfl id id).elim
  | _ => exact hwrites.elim

theorem told_row (hperform : node.perform i a input = some (node', r)) :
    node'.written.row key = (a.tells key).getD (node.written.row key) := by
  obtain ⟨hperformed, hdatabase, -⟩ := node_performed hperform
  rw [Node.written, hperformed.events, hdatabase]
  cases a with
  | sendEvent event =>
    rw [Action.onEvents, List.foldl_append]
    exact execute_row _ _ _
  | _ => rfl

theorem row_of_tells {row : Option Row} (hperform : node.perform i a input = some (node', r))
    (hrow : a.tells key = some row) : node'.shared.broker.row key = node.shared.broker.row key := by
  cases a with
  | sendEvent event =>
    rw [(node_performed hperform).1.broker]
    rfl
  | _ => cases hrow

end

theorem row_of_run {settings : Settings} {key : RowKey} {evs : List BrokerEvent} {cfg : BrokerConfigState}
    (hrun : (brokerSystem settings).RunWhere
      (fun evs cfg e _ => ofConnections key e = true ∧ inOrder key evs cfg e = true) initial evs cfg) :
    (∀ j, Silent (Action.tells key) (owed evs cfg j)) → cfg.shared.shared.broker.row key = cfg.shared.written.row key := by
  apply owed_induction (J := fun _ node owes => (∀ j, Silent (Action.tells key) (owes j)) →
    node.shared.broker.row key = node.written.row key) _ _ _ _ _ hrun
  · intro _
    cases key <;> rfl
  · exact fun _ _ _ _ ih => ih
  · intro evs cfg cfg' i a r input owes' run _ hstep hlife hacts hperform ih
    apply agree_step ih hacts.kept
    · intro row hrow
      refine ⟨row_of_tells hperform hrow, ?_, ?_⟩
      · rw [told_row hperform, hrow]
        rfl
      · intro hothers
        cases a with
        | sendEvent event =>
          have hevent : event.tells key = some row := hrow
          simpa [inOrder, hevent, othersTell_false hothers] using hstep.2
        | _ => cases hrow
    · intro hnone
      refine ⟨?_, ?_⟩
      · rw [told_row hperform, hnone]
        rfl
      · intro _ hsilent
        apply row_of_act hperform (held_of_run .new run)
        intro hwrites
        obtain ⟨b, hb, htells⟩ := told_of_writes hacts (followedBy_of_run follows_clears run i) hstep.1 hwrites
        rw [hsilent b hb] at htells
        cases htells
  · intro evs node owes m ih
    rw [written_commit]
    exact ih
  · intro evs cfg cfg' _ hstep _
    cases hstep.1

/-- Where no event is overtaken, each row of the three tables is at rest what the maps hold under its key. -/
theorem rows_durable {settings : Settings} {key : RowKey} {evs : List BrokerEvent} {cfg : BrokerConfigState}
    (hrun : (brokerSystem settings).RunWhere
      (fun evs cfg e _ => ofConnections key e = true ∧ inOrder key evs cfg e = true) initial evs cfg)
    (hpersisted : persisted key evs cfg = true) :
    cfg.shared.database.row key = cfg.shared.shared.broker.row key := by
  obtain ⟨hevents, hnone⟩ := Bool.and_eq_true_iff.mp hpersisted
  have hwritten : cfg.shared.written = cfg.shared.database := by
    rw [Node.written, List.isEmpty_iff.mp hevents]
    rfl
  rw [row_of_run hrun, hwritten]
  intro j b hb
  by_cases hactor : j ∈ actors evs
  · exact Option.isNone_iff_eq_none.mp (List.all_eq_true.mp (List.all_eq_true.mp hnone j hactor) b hb)
  · rw [owed_of_idle hactor] at hb
    cases hb

def returnMoves (n : ℕ) : List BrokerMove :=
  [.spawn (.router 0) .router, .spawn (.connection 0) .tcp, .spawn (.connection 1) .tcp,
    .act (.connection 0) (.received (.data (sentBytes (.V311 (.Connect (plainConnectV3 "c" true none))))))] ++
  turns (.connection 0) 8 ++ [.act (.connection 0) (.received .closed)] ++ turns (.connection 0) 4 ++
  turns (.router 0) n ++
  [.act (.connection 1) (.received (.data (sentBytes (.V311 (.Connect (plainConnectV3 "c" true none))))))] ++
  turns (.connection 1) 8 ++ turns (.router 0) (7 - n) ++ [.world (.commit 5)]

def returnedRow : Row :=
  .session { protocolVersion := 4, cleanSession := true, keepAlive := 60, username := some "anonymous" }

theorem rows_durable_returned : ∃ evs cfg, (brokerSystem openSettings).Run initial evs cfg ∧
    cfg.shared.shared.broker.connections.lookup "c" = some 1 ∧
    cfg.shared.database.row (.session "c") = some returnedRow := by
  have hrun : ((brokerSystem openSettings).execWhere
      (fun evs cfg e _ => ofConnections (.session "c") e && inOrder (.session "c") evs cfg e) [] initial
      (returnMoves 7)).map (fun r => (persisted (.session "c") r.1 r.2, r.2.shared.shared.broker.connections.lookup "c",
        r.2.shared.shared.broker.row (.session "c"))) = some (true, some 1, some returnedRow) := by decide +kernel
  obtain ⟨⟨evs, cfg⟩, hexec, heq⟩ := Option.map_eq_some_iff.mp hrun
  simp only [Prod.mk.injEq] at heq
  obtain ⟨hpersisted, hconnection, hrow⟩ := heq
  refine ⟨evs, cfg, System.execWhere_run _ (fun _ _ _ _ _ => trivial) .nil hexec, hconnection, ?_⟩
  have hwhere : (brokerSystem openSettings).RunWhere (fun evs cfg e _ => ofConnections (.session "c") e = true ∧
      inOrder (.session "c") evs cfg e = true) initial evs cfg :=
    System.execWhere_run _ (fun _ _ _ _ h => Bool.and_eq_true_iff.mp h) .nil hexec
  rw [rows_durable hwhere hpersisted, hrow]

/-- The client registers between the removal of its old session and the event of the removal. -/
theorem rows_lost : ¬ ∀ evs cfg key, (brokerSystem openSettings).RunWhere (fun _ _ e _ => ofConnections key e = true)
      initial evs cfg → persisted key evs cfg = true →
    cfg.shared.database.row key = cfg.shared.shared.broker.row key := by
  have hrun : ((brokerSystem openSettings).execWhere (fun _ _ e _ => ofConnections (.session "c") e) [] initial
      (returnMoves 5)).map (fun r => (persisted (.session "c") r.1 r.2, r.2.shared.shared.broker.row (.session "c"),
        r.2.shared.database.row (.session "c"))) = some (true, some returnedRow, none) := by decide +kernel
  obtain ⟨⟨evs, cfg⟩, hexec, heq⟩ := Option.map_eq_some_iff.mp hrun
  simp only [Prod.mk.injEq] at heq
  obtain ⟨hpersisted, hmemory, hdatabase⟩ := heq
  intro hdurable
  have h := hdurable evs cfg _ (System.execWhere_run _ (fun _ _ _ _ h => h) .nil hexec) hpersisted
  rw [hmemory, hdatabase] at h
  cases h

end AtomMqtt
