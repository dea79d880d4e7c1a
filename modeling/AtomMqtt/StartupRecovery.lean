import AtomMqtt.SessionDurability

set_option autoImplicit false

/-! The startup: restore and cleanup. The cleanup leaves the sessions that are not clean with their
subscriptions, in memory and in the tables, in whatever order it takes the clients. What it leaves, the next
startup restores as it is. -/
namespace AtomMqtt

theorem entries_subscribes {entries : List ((_ : String × String) × ℤ)} (hentries : entries.NodupKeys)
    {tree : SubscriptionTree} (h : tree.Held) (key : String × String) :
    ((entries.map fun ⟨(clientId, filter), qos⟩ => ({ clientId, filter, qos := qosOfI32 qos } : Subscription)).foldl
      (fun tree s => tree.subscribe s.clientId s.filter s.qos) tree).entries key =
      ((entries.dlookup key).map qosOfI32).or (tree.entries key) := by
  induction entries generalizing tree with
  | nil => rfl
  | cons entry entries ih =>
    obtain ⟨⟨clientId, filter⟩, qos⟩ := entry
    rw [List.nodupKeys_cons] at hentries
    have hstep := h.step (.subscribe clientId filter (qosOfI32 qos))
    have hfirst := entries_step h (.subscribe clientId filter (qosOfI32 qos))
    rw [List.map_cons, List.foldl_cons]
    refine (ih hentries.2 hstep).trans ?_
    rw [hfirst]
    by_cases hkey : key = (clientId, filter)
    · subst hkey
      rw [List.dlookup_cons_eq, List.dlookup_eq_none.mpr hentries.1]
      exact if_pos rfl
    · rw [List.dlookup_cons_ne _ _ hkey]
      congr 1
      exact if_neg hkey

theorem restore_subscriptions (db : Database) (key : String × String) :
    db.restore.subscriptions.entries key = (db.subscriptions.lookup key).map qosOfI32 := by
  refine (entries_subscribes db.subscriptions.nodupKeys SubscriptionTree.Held.new key).trans ?_
  have hempty : Represents SubscriptionMap.empty SubscriptionTree.new.root := Represents.empty
  rw [hempty.entries_eq]
  exact Option.or_none

/-- `load_sessions`, for one row. -/
def SessionRow.load (clientId : String) (row : SessionRow) : SessionState where
  clientId := clientId
  protocolVersion := if row.protocolVersion = 5 then .V5 else .V311
  cleanSession := row.cleanSession
  keepAlive := row.keepAlive
  connected := false
  username := row.username

theorem restore_sessions (db : Database) (clientId : String) :
    db.restore.sessions.lookup clientId = (db.sessions.lookup clientId).map (SessionRow.load clientId) :=
  lookup_restored (fun entry : (_ : String) × SessionRow => entry.2.load entry.1) SessionState.clientId (fun _ => rfl) _ _

def staleClients (state : BrokerState) : List String :=
  (state.sessions.values.filter fun session => session.cleanSession).map (·.clientId)

def removeStale (stale : List String) (state : BrokerState) : BrokerState :=
  stale.foldl (fun state clientId =>
    { state with subscriptions := state.subscriptions.unsubscribeAll clientId,
                 sessions := state.sessions.erase clientId }) state

def orphanClients (state : BrokerState) : List String :=
  ((state.subscriptions.allSubscriptions.filter fun s => (state.sessions.lookup s.clientId).isNone).map
    (·.clientId)).dedup

def removeOrphans (orphans : List String) (state : BrokerState) : BrokerState :=
  orphans.foldl (fun state clientId => { state with subscriptions := state.subscriptions.unsubscribeAll clientId }) state

def removalEvents (stale orphans : List String) : List PersistEvent :=
  (stale.flatMap fun clientId => [.RemoveClientSubscriptions clientId, .RemoveSession clientId]) ++
    orphans.map .RemoveClientSubscriptions

def countSubscriptions (state : BrokerState) : BrokerState :=
  { state with metrics := { state.metrics with subscriptionsActive := state.subscriptions.count } }

/-- A result of the cleanup. The map and the set that it goes over have an order of their own. -/
inductive CleanedUp (state : BrokerState) : BrokerState → List PersistEvent → Prop
  | intro {stale orphans : List String} (hstale : stale.Perm (staleClients state))
      (horphans : orphans.Perm (orphanClients (removeStale stale state))) :
      CleanedUp state (countSubscriptions (removeOrphans orphans (removeStale stale state))) (removalEvents stale orphans)

theorem cleanedUp_startupCleanup (state : BrokerState) :
    CleanedUp state (startupCleanup state).1 (startupCleanup state).2 :=
  .intro (List.Perm.refl _) (List.Perm.refl _)

theorem removeStale_sessions (stale : List String) (state : BrokerState) (clientId : String) :
    (removeStale stale state).sessions.lookup clientId =
      if clientId ∈ stale then none else state.sessions.lookup clientId := by
  induction stale generalizing state with
  | nil => rfl
  | cons first stale ih =>
    refine (ih _).trans ?_
    rw [DashMap.lookup_erase]
    by_cases hfirst : first = clientId
    · simp [hfirst]
    · simp [hfirst, Ne.symm hfirst]

theorem entries_unsubscribes {σ : Type} (tree : σ → SubscriptionTree) (step : σ → String → σ)
    (hstep : ∀ s clientId, tree (step s clientId) = (tree s).unsubscribeAll clientId) (clients : List String) (s : σ)
    (h : (tree s).Held) : (tree (clients.foldl step s)).Held ∧ ∀ key, (tree (clients.foldl step s)).entries key =
      if key.1 ∈ clients then none else (tree s).entries key := by
  induction clients generalizing s with
  | nil => exact ⟨h, fun _ => rfl⟩
  | cons first clients ih =>
    have hnext : (tree (step s first)).Held := by
      rw [hstep]
      exact h.step (.unsubscribeAll first)
    obtain ⟨hheld, hentries⟩ := ih (step s first) hnext
    refine ⟨hheld, ?_⟩
    intro key
    have hfirst : (tree (step s first)).entries key = if key.1 = first then none else (tree s).entries key := by
      rw [hstep]
      exact congrFun (entries_step h (.unsubscribeAll first)) key
    rw [List.foldl_cons, hentries, hfirst]
    by_cases hkey : key.1 = first
    · simp [hkey]
    · simp [hkey]

theorem removeStale_entries (stale : List String) {state : BrokerState} (h : state.subscriptions.Held) :
    (removeStale stale state).subscriptions.Held ∧ ∀ key, (removeStale stale state).subscriptions.entries key =
      if key.1 ∈ stale then none else state.subscriptions.entries key :=
  entries_unsubscribes BrokerState.subscriptions _ (fun _ _ => rfl) stale state h

theorem removeOrphans_entries (orphans : List String) {state : BrokerState} (h : state.subscriptions.Held) :
    (removeOrphans orphans state).subscriptions.Held ∧ ∀ key, (removeOrphans orphans state).subscriptions.entries key =
      if key.1 ∈ orphans then none else state.subscriptions.entries key :=
  entries_unsubscribes BrokerState.subscriptions _ (fun _ _ => rfl) orphans state h

theorem removeOrphans_sessions (orphans : List String) (state : BrokerState) :
    (removeOrphans orphans state).sessions = state.sessions := by
  apply List.foldlRecOn (motive := fun state' : BrokerState => state'.sessions = state.sessions) _ _ rfl
  intro state' h clientId _
  exact h

def OwnKeys (state : BrokerState) : Prop :=
  ∀ clientId session, state.sessions.lookup clientId = some session → session.clientId = clientId

theorem mem_staleClients {state : BrokerState} (h : OwnKeys state) (clientId : String) :
    clientId ∈ staleClients state ↔ ∃ session, state.sessions.lookup clientId = some session ∧ session.cleanSession = true := by
  simp only [staleClients, DashMap.values, List.mem_map, List.mem_filter]
  constructor
  · rintro ⟨session, ⟨⟨⟨key, session'⟩, hentry, rfl⟩, hclean⟩, rfl⟩
    have hlookup := AList.mem_lookup_iff.mpr hentry
    have hkey := h key session' hlookup
    exact ⟨session', hkey ▸ hlookup, hclean⟩
  · rintro ⟨session, hlookup, hclean⟩
    exact ⟨session, ⟨⟨⟨clientId, session⟩, AList.mem_lookup_iff.mp hlookup, rfl⟩, hclean⟩, h clientId session hlookup⟩

theorem mem_allSubscriptions {tree : SubscriptionTree} (h : tree.Held) (s : Subscription) :
    s ∈ tree.allSubscriptions ↔ tree.entries s.key = some s.qos := by
  obtain ⟨M, hM⟩ := h
  rw [hM.allSubscriptions_eq, hM.mem_flat, hM.entries_eq]

theorem mem_orphanClients {state : BrokerState} (h : state.subscriptions.Held) (clientId : String) :
    clientId ∈ orphanClients state ↔
      state.sessions.lookup clientId = none ∧ ∃ filter, (state.subscriptions.entries (clientId, filter)).isSome := by
  simp only [orphanClients, List.mem_dedup, List.mem_map, List.mem_filter, mem_allSubscriptions h, Option.isNone_iff_eq_none]
  constructor
  · rintro ⟨s, ⟨hentry, hnone⟩, rfl⟩
    exact ⟨hnone, s.filter, Option.isSome_iff_exists.mpr ⟨s.qos, hentry⟩⟩
  · rintro ⟨hnone, filter, hsome⟩
    obtain ⟨qos, hqos⟩ := Option.isSome_iff_exists.mp hsome
    exact ⟨{ clientId, filter, qos }, ⟨hqos, hnone⟩, rfl⟩

theorem removed_rows (sender : ThreadId) (events : List PersistEvent) : ∀ db : Database,
    (∀ event ∈ events, ∃ clientId, event = .RemoveClientSubscriptions clientId ∨ event = .RemoveSession clientId) →
    (∀ clientId, (events.foldl (fun db event => db.execute sender event) db).sessions.lookup clientId =
      if .RemoveSession clientId ∈ events then none else db.sessions.lookup clientId) ∧
    ∀ key, (events.foldl (fun db event => db.execute sender event) db).subscriptions.lookup key =
      if .RemoveClientSubscriptions key.1 ∈ events then none else db.subscriptions.lookup key := by
  induction events with
  | nil => exact fun _ _ => ⟨fun _ => rfl, fun _ => rfl⟩
  | cons event events ih =>
    intro db hevents
    rw [List.forall_mem_cons] at hevents
    obtain ⟨⟨clientId, hevent⟩, hrest⟩ := hevents
    obtain ⟨hsessions, hsubscriptions⟩ := ih (db.execute sender event) hrest
    rw [List.foldl_cons]
    cases hevent with
    | inl hevent =>
      subst hevent
      constructor
      · intro clientId'
        rw [hsessions]
        simp [Database.execute]
      · intro key
        rw [hsubscriptions]
        by_cases hkey : key.1 = clientId
        · simp [Database.execute, lookup_deleteClientRows, hkey]
        · simp [Database.execute, lookup_deleteClientRows, hkey]
    | inr hevent =>
      subst hevent
      constructor
      · intro clientId'
        rw [hsessions]
        by_cases hclient : clientId' = clientId
        · simp [Database.execute, DashMap.lookup_erase, hclient]
        · simp [Database.execute, AList.lookup_erase_ne hclient, hclient]
      · intro key
        rw [hsubscriptions]
        simp [Database.execute]

theorem mem_removalEvents (stale orphans : List String) : (∀ clientId,
    (PersistEvent.RemoveSession clientId ∈ removalEvents stale orphans ↔ clientId ∈ stale) ∧
    (PersistEvent.RemoveClientSubscriptions clientId ∈ removalEvents stale orphans ↔ clientId ∈ stale ∨ clientId ∈ orphans)) ∧
    ∀ event ∈ removalEvents stale orphans, ∃ clientId,
      event = .RemoveClientSubscriptions clientId ∨ event = .RemoveSession clientId := by
  refine ⟨fun clientId => ⟨?_, ?_⟩, ?_⟩
  · simp [removalEvents]
  · simp [removalEvents]
  · intro event hevent
    simp only [removalEvents, List.mem_append, List.mem_flatMap, List.mem_map, List.mem_cons, List.not_mem_nil,
      or_false] at hevent
    rcases hevent with ⟨clientId, -, hevent⟩ | ⟨clientId, -, rfl⟩
    · exact ⟨clientId, hevent⟩
    · exact ⟨clientId, .inl rfl⟩

/-- There is a session of the client that is not clean. -/
def Database.hasPersistent (db : Database) (clientId : String) : Bool :=
  (db.sessions.lookup clientId).any fun row => !row.cleanSession

def Database.apply (db : Database) (sender : ThreadId) (events : List PersistEvent) : Database :=
  events.foldl (fun db event => db.execute sender event) db

/-- What the state and the tables have after the cleanup, row by row. -/
structure AfterCleanup (db : Database) (state : BrokerState) (db' : Database) : Prop where
  sessions : ∀ clientId, state.sessions.lookup clientId =
    if db.hasPersistent clientId then (db.sessions.lookup clientId).map (SessionRow.load clientId) else none
  held : state.subscriptions.Held
  entries : ∀ key, state.subscriptions.entries key =
    if db.hasPersistent key.1 then (db.subscriptions.lookup key).map qosOfI32 else none
  sessionRows : ∀ clientId, db'.sessions.lookup clientId =
    if db.hasPersistent clientId then db.sessions.lookup clientId else none
  subscriptionRows : ∀ key, db'.subscriptions.lookup key =
    if db.hasPersistent key.1 then db.subscriptions.lookup key else none

section
variable {db : Database} {state : BrokerState} {events : List PersistEvent}

theorem ownKeys_restore (db : Database) : OwnKeys db.restore := by
  intro clientId session h
  rw [restore_sessions] at h
  obtain ⟨row, -, rfl⟩ := Option.map_eq_some_iff.mp h
  rfl

theorem mem_stale_restore (db : Database) (clientId : String) : clientId ∈ staleClients db.restore ↔
    (db.sessions.lookup clientId).isSome ∧ db.hasPersistent clientId = false := by
  rw [mem_staleClients (ownKeys_restore db), restore_sessions, Database.hasPersistent]
  cases db.sessions.lookup clientId with
  | none => simp
  | some row => simp [SessionRow.load]

theorem mem_orphans_restore {stale : List String} (hstale : ∀ clientId, clientId ∈ stale ↔ clientId ∈ staleClients db.restore)
    (clientId : String) : clientId ∈ orphanClients (removeStale stale db.restore) ↔
      db.sessions.lookup clientId = none ∧ ∃ filter, (db.subscriptions.lookup (clientId, filter)).isSome := by
  obtain ⟨hheld, hentries⟩ := removeStale_entries stale (held_of_restore db)
  rw [mem_orphanClients hheld, removeStale_sessions]
  simp only [hentries, hstale, mem_stale_restore, restore_sessions, restore_subscriptions]
  cases hlookup : db.sessions.lookup clientId with
  | none => simp
  | some row => cases hpersistent : db.hasPersistent clientId <;> simp

theorem hasPersistent_of_none {clientId : String} (h : db.sessions.lookup clientId = none) :
    db.hasPersistent clientId = false := by
  rw [Database.hasPersistent, h]
  rfl

/-- The subscriptions of clients that are neither stale nor orphans are those of the persistent sessions. -/
theorem kept_rows {stale orphans : List String}
    (hstale : ∀ clientId, clientId ∈ stale ↔ (db.sessions.lookup clientId).isSome ∧ db.hasPersistent clientId = false)
    (horphans : ∀ clientId, clientId ∈ orphans ↔
      db.sessions.lookup clientId = none ∧ ∃ filter, (db.subscriptions.lookup (clientId, filter)).isSome)
    (key : String × String) :
    (if key.1 ∈ stale ∨ key.1 ∈ orphans then none else db.subscriptions.lookup key) =
      if db.hasPersistent key.1 then db.subscriptions.lookup key else none := by
  cases hpersistent : db.hasPersistent key.1 with
  | true =>
    have hsome : db.sessions.lookup key.1 ≠ none := fun hlookup => by
      simp [hasPersistent_of_none hlookup] at hpersistent
    have hkeep : ¬ (key.1 ∈ stale ∨ key.1 ∈ orphans) := by
      rw [hstale, horphans]
      simp [hpersistent, hsome]
    rw [if_neg hkeep]
    rfl
  | false =>
    by_cases hgone : key.1 ∈ stale ∨ key.1 ∈ orphans
    · rw [if_pos hgone]
      rfl
    · rw [if_neg hgone]
      cases hlookup : db.sessions.lookup key.1 with
      | some row => exact absurd (.inl ((hstale _).mpr ⟨by simp [hlookup], hpersistent⟩)) hgone
      | none =>
        cases hrow : db.subscriptions.lookup key with
        | none => rfl
        | some q => exact absurd (.inr ((horphans _).mpr ⟨hlookup, key.2, by simp [hrow]⟩)) hgone

theorem CleanedUp.after (h : CleanedUp db.restore state events) (sender : ThreadId) :
    AfterCleanup db state (db.apply sender events) := by
  obtain ⟨hstale, horphans⟩ := h
  rename_i stale orphans
  have hmem : ∀ clientId, clientId ∈ stale ↔ clientId ∈ staleClients db.restore := fun _ => hstale.mem_iff
  have hstale : ∀ clientId, clientId ∈ stale ↔ (db.sessions.lookup clientId).isSome ∧ db.hasPersistent clientId = false :=
    fun clientId => (hmem clientId).trans (mem_stale_restore db clientId)
  have horphans : ∀ clientId, clientId ∈ orphans ↔
      db.sessions.lookup clientId = none ∧ ∃ filter, (db.subscriptions.lookup (clientId, filter)).isSome :=
    fun clientId => horphans.mem_iff.trans (mem_orphans_restore hmem clientId)
  obtain ⟨hheld, hentries⟩ := removeStale_entries stale (held_of_restore db)
  obtain ⟨hheld', hentries'⟩ := removeOrphans_entries orphans hheld
  obtain ⟨hevents, hremovals⟩ := mem_removalEvents stale orphans
  obtain ⟨hrows, hrows'⟩ := removed_rows sender (removalEvents stale orphans) db hremovals
  constructor
  · intro clientId
    change (removeOrphans orphans (removeStale stale db.restore)).sessions.lookup clientId = _
    rw [removeOrphans_sessions, removeStale_sessions, restore_sessions]
    simp only [hstale]
    cases hlookup : db.sessions.lookup clientId with
    | none => simp
    | some row => cases hpersistent : db.hasPersistent clientId <;> simp
  · exact hheld'
  · intro key
    change (removeOrphans orphans (removeStale stale db.restore)).subscriptions.entries key = _
    have hmap := congrArg (Option.map qosOfI32) (kept_rows hstale horphans key)
    rw [apply_ite (Option.map qosOfI32), apply_ite (Option.map qosOfI32), Option.map_none] at hmap
    rw [hentries', hentries, restore_subscriptions, ← hmap]
    by_cases hs : key.1 ∈ stale <;> by_cases ho : key.1 ∈ orphans <;> simp [hs, ho]
  · intro clientId
    rw [Database.apply, hrows]
    simp only [(hevents _).1, hstale]
    cases hlookup : db.sessions.lookup clientId with
    | none => simp
    | some row => cases hpersistent : db.hasPersistent clientId <;> simp
  · intro key
    rw [Database.apply, hrows']
    simp only [(hevents _).2]
    exact kept_rows hstale horphans key

theorem CleanedUp.active (h : CleanedUp db.restore state events) :
    state.metrics.subscriptionsActive = state.subscriptions.count := by
  cases h
  rfl

theorem AfterCleanup.hasPersistent {db' : Database} (h : AfterCleanup db state db') (clientId : String) :
    db'.hasPersistent clientId = db.hasPersistent clientId := by
  rw [Database.hasPersistent, h.sessionRows]
  cases hpersistent : db.hasPersistent clientId with
  | true => exact hpersistent
  | false => rfl

theorem CleanedUp.events_eq_nil (h : CleanedUp db.restore state events)
    (hsessions : ∀ clientId, (db.sessions.lookup clientId).isSome → db.hasPersistent clientId = true)
    (hsubscriptions : ∀ key : String × String, (db.subscriptions.lookup key).isSome → db.hasPersistent key.1 = true) :
    events = [] := by
  obtain ⟨hstale, horphans⟩ := h
  rename_i stale orphans
  have hmem : ∀ clientId, clientId ∈ stale ↔ clientId ∈ staleClients db.restore := fun _ => hstale.mem_iff
  have hnone : stale = [] := by
    apply List.eq_nil_iff_forall_not_mem.mpr
    intro clientId hclient
    obtain ⟨hsome, hclean⟩ := (mem_stale_restore db clientId).mp ((hmem clientId).mp hclient)
    rw [hsessions clientId hsome] at hclean
    cases hclean
  have hnone' : orphans = [] := by
    apply List.eq_nil_iff_forall_not_mem.mpr
    intro clientId hclient
    obtain ⟨hlookup, filter, hsome⟩ := (mem_orphans_restore hmem clientId).mp (horphans.mem_iff.mp hclient)
    have hpersistent := hsubscriptions (clientId, filter) hsome
    rw [Database.hasPersistent, hlookup] at hpersistent
    cases hpersistent
  rw [hnone, hnone']
  rfl

end

/-- Rows as they are saved. -/
structure Database.Saved (db : Database) : Prop where
  sessions : ∀ clientId row, db.sessions.lookup clientId = some row → ∃ session : SessionState, row = session.row
  subscriptions : ∀ key qos, db.subscriptions.lookup key = some qos → ∃ saved : QoS, qos = saved.toI32

/-- The state that a startup is to make of the tables. -/
structure Recovered (db : Database) (state : BrokerState) : Prop where
  sessions : ∀ clientId session, state.sessions.lookup clientId = some session ↔
    ∃ row, db.sessions.lookup clientId = some row ∧ row.cleanSession = false ∧ session = row.load clientId
  subscriptions : ∀ clientId filter qos, { clientId, filter, qos } ∈ state.subscriptions.allSubscriptions ↔
    db.hasPersistent clientId = true ∧ db.subscriptions.lookup (clientId, filter) = some qos.toI32
  once : (state.subscriptions.allSubscriptions.map Subscription.key).Nodup
  active : state.metrics.subscriptionsActive = state.subscriptions.count

/-- The two tables have the rows of the state and no others. -/
structure StateRows (db : Database) (state : BrokerState) : Prop where
  sessions : ∀ clientId, db.row (.session clientId) = state.row (.session clientId)
  subscriptions : ∀ clientId filter, db.row (.subscription clientId filter) = state.row (.subscription clientId filter)

structure SameState (state state' : BrokerState) : Prop where
  sessions : ∀ clientId, state.sessions.lookup clientId = state'.sessions.lookup clientId
  subscriptions : state.subscriptions.entries = state'.subscriptions.entries
  active : state.metrics.subscriptionsActive = state'.metrics.subscriptionsActive

theorem load_row (session : SessionState) (clientId : String) : (session.row.load clientId).row = session.row := by
  obtain ⟨_, version, _, _, _, _⟩ := session
  cases version <;> rfl

theorem hasPersistent_iff {db : Database} {clientId : String} : db.hasPersistent clientId = true ↔
    ∃ row, db.sessions.lookup clientId = some row ∧ row.cleanSession = false := by
  rw [Database.hasPersistent]
  cases db.sessions.lookup clientId <;> simp

section
variable {db : Database} {state : BrokerState} {db' : Database}

theorem AfterCleanup.recovered (h : AfterCleanup db state db') (hsaved : db.Saved)
    (hactive : state.metrics.subscriptionsActive = state.subscriptions.count) : Recovered db state := by
  obtain ⟨M, hM⟩ := h.held
  refine ⟨?_, ?_, ?_, hactive⟩
  · intro clientId session
    rw [h.sessions]
    cases hpersistent : db.hasPersistent clientId with
    | true =>
      obtain ⟨row, hrow, hclean⟩ := hasPersistent_iff.mp hpersistent
      rw [if_pos rfl, hrow]
      constructor
      · intro hsession
        cases hsession
        exact ⟨row, rfl, hclean, rfl⟩
      · rintro ⟨row', hrow', -, rfl⟩
        cases hrow'
        rfl
    | false =>
      constructor
      · intro hsession
        cases hsession
      · rintro ⟨row, hrow, hclean, -⟩
        rw [hasPersistent_iff.mpr ⟨row, hrow, hclean⟩] at hpersistent
        cases hpersistent
  · intro clientId filter qos
    rw [mem_allSubscriptions h.held, h.entries]
    change (if db.hasPersistent clientId = true then _ else none) = some qos ↔ _
    cases db.hasPersistent clientId with
    | false => simp
    | true =>
      change Option.map qosOfI32 (db.subscriptions.lookup (clientId, filter)) = some qos ↔ _
      cases hrow : db.subscriptions.lookup (clientId, filter) with
      | none => simp
      | some q =>
        obtain ⟨saved, rfl⟩ := hsaved.subscriptions _ q hrow
        rw [Option.map_some, qosOfI32_toI32]
        cases saved <;> cases qos <;> decide
  · rw [hM.allSubscriptions_eq]
    exact hM.flat_keys_nodup

theorem AfterCleanup.stateRows (h : AfterCleanup db state db') (hsaved : db.Saved) : StateRows db' state := by
  constructor
  · intro clientId
    rw [Database.row, BrokerState.row, h.sessionRows, h.sessions]
    cases db.hasPersistent clientId with
    | false => rfl
    | true =>
      cases hrow : db.sessions.lookup clientId with
      | none => rfl
      | some row =>
        obtain ⟨session, rfl⟩ := hsaved.sessions clientId row hrow
        exact congrArg (fun row => some (Row.session row)) (load_row session clientId).symm
  · intro clientId filter
    rw [Database.row, BrokerState.row, h.subscriptionRows, h.entries]
    cases db.hasPersistent clientId with
    | false => rfl
    | true =>
      cases hrow : db.subscriptions.lookup (clientId, filter) with
      | none => rfl
      | some q =>
        obtain ⟨saved, rfl⟩ := hsaved.subscriptions _ q hrow
        exact congrArg (fun qos => some (Row.subscription (QoS.toI32 qos))) (qosOfI32_toI32 saved).symm

end

/-- The startup keeps the stored sessions that are not clean with their subscriptions, leaves the tables with these once
    its events are applied, and the next startup finds the same state and sends no events. -/
theorem startup_recovers (db : Database) (sender : ThreadId) {state : BrokerState} {events : List PersistEvent}
    (hsaved : db.Saved) (h : CleanedUp db.restore state events) :
    Recovered db state ∧ StateRows (db.apply sender events) state ∧ ∀ state' events',
      CleanedUp (db.apply sender events).restore state' events' → events' = [] ∧ SameState state' state := by
  have hafter := h.after sender
  refine ⟨hafter.recovered hsaved h.active, hafter.stateRows hsaved, ?_⟩
  intro state' events' h'
  have hafter' := h'.after sender
  refine ⟨h'.events_eq_nil ?_ ?_, ?_⟩
  · intro clientId hsome
    rw [hafter.hasPersistent]
    rw [hafter.sessionRows] at hsome
    split_ifs at hsome with hpersistent
    · exact hpersistent
    · cases hsome
  · intro key hsome
    rw [hafter.hasPersistent]
    rw [hafter.subscriptionRows] at hsome
    split_ifs at hsome with hpersistent
    · exact hpersistent
    · cases hsome
  · have hentries : state'.subscriptions.entries = state.subscriptions.entries := by
      funext key
      rw [hafter'.entries, hafter.hasPersistent, hafter.subscriptionRows, hafter.entries]
      cases db.hasPersistent key.1 <;> rfl
    refine ⟨?_, hentries, ?_⟩
    · intro clientId
      rw [hafter'.sessions, hafter.hasPersistent, hafter.sessionRows, hafter.sessions]
      cases db.hasPersistent clientId <;> rfl
    · rw [h'.active, h.active, count_eq_ncard hafter'.held, count_eq_ncard hafter.held, hentries]

def leftOver : Database :=
  { Database.empty with
    sessions := ((∅ : DashMap String SessionRow).insert "a"
      { protocolVersion := 4, cleanSession := false, keepAlive := 60, username := none }).insert "b"
      { protocolVersion := 5, cleanSession := true, keepAlive := 60, username := some "u" }
    subscriptions := (((∅ : DashMap (String × String) ℤ).insert ("a", "x/+") 1).insert ("b", "#") 0).insert ("c", "x") 2 }

theorem leftOver_saved : leftOver.Saved := by
  constructor
  · intro clientId row h
    simp only [leftOver, DashMap.lookup_insert] at h
    split_ifs at h
    · cases h
      exact ⟨.new "b" .V5 true 60 (some "u"), rfl⟩
    · cases h
      exact ⟨.new "a" .V311 false 60 none, rfl⟩
    · cases h
  · intro key qos h
    simp only [leftOver, DashMap.lookup_insert] at h
    split_ifs at h
    · cases h
      exact ⟨.ExactlyOnce, rfl⟩
    · cases h
      exact ⟨.AtMostOnce, rfl⟩
    · cases h
      exact ⟨.AtLeastOnce, rfl⟩
    · cases h

theorem startup_recovers_leftOver :
    Recovered leftOver (startupCleanup leftOver.restore).1 ∧
    StateRows (leftOver.apply (.router 0) (startupCleanup leftOver.restore).2) (startupCleanup leftOver.restore).1 ∧
    (startupCleanup leftOver.restore).2 =
      [.RemoveClientSubscriptions "b", .RemoveSession "b", .RemoveClientSubscriptions "c"] := by
  have h := startup_recovers leftOver (.router 0) leftOver_saved (cleanedUp_startupCleanup leftOver.restore)
  exact ⟨h.1, h.2.1, by decide +kernel⟩

end AtomMqtt
