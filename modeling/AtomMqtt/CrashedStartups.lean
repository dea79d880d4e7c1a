import AtomMqtt.StartupRecovery

set_option autoImplicit false

/-! Startups that are cut off. The broker may be killed while the writer is still at the removals of the
cleanup, any number of times. No removal is of a client whose session is kept, so the next startup makes the
same of what is left. -/
namespace AtomMqtt
open Programs

/-- The second tables have all that a startup keeps of the first. -/
structure Database.Preserves (db db' : Database) : Prop where
  persistent : ∀ clientId, db'.hasPersistent clientId = db.hasPersistent clientId
  sessions : ∀ clientId, db.hasPersistent clientId = true → db'.sessions.lookup clientId = db.sessions.lookup clientId
  subscriptions : ∀ key : String × String, db.hasPersistent key.1 = true →
    db'.subscriptions.lookup key = db.subscriptions.lookup key
  retainedMessages : db'.retainedMessages = db.retainedMessages
  willMessages : db'.willMessages = db.willMessages

/-- The removal of a client whose session is not kept. -/
def Database.Sheds (db : Database) (event : PersistEvent) : Prop :=
  ∃ clientId, db.hasPersistent clientId = false ∧
    (event = .RemoveClientSubscriptions clientId ∨ event = .RemoveSession clientId)

/-- The state after a startup, as far as the tables determine it. -/
structure SameStartup (state state' : BrokerState) : Prop where
  same : SameState state state'
  retained : ∀ topic, state.retained.lookup topic = state'.retained.lookup topic
  wills : ∀ clientId, state.wills.lookup clientId = state'.wills.lookup clientId

structure SameRows (db db' : Database) : Prop where
  sessions : ∀ clientId, db.sessions.lookup clientId = db'.sessions.lookup clientId
  subscriptions : ∀ key, db.subscriptions.lookup key = db'.subscriptions.lookup key
  retainedMessages : db.retainedMessages = db'.retainedMessages
  willMessages : db.willMessages = db'.willMessages

section
variable {db db' : Database} {sender : ThreadId} {event : PersistEvent} {events : List PersistEvent} {state state' : BrokerState}

theorem Database.Preserves.refl (db : Database) : db.Preserves db :=
  ⟨fun _ => rfl, fun _ _ => rfl, fun _ _ => rfl, rfl, rfl⟩

theorem Database.Preserves.execute (h : db.Preserves db') (hevent : db.Sheds event) :
    db.Preserves (db'.execute sender event) := by
  obtain ⟨clientId, hclean, rfl | rfl⟩ := hevent
  · refine ⟨h.persistent, h.sessions, ?_, h.retainedMessages, h.willMessages⟩
    intro key hkey
    have hne : key.1 ≠ clientId := by
      intro heq
      rw [heq, hclean] at hkey
      cases hkey
    rw [← h.subscriptions key hkey]
    simp [Database.execute, lookup_deleteClientRows, hne]
  · have hsessions : ∀ other, other ≠ clientId →
        (db'.execute sender (.RemoveSession clientId)).sessions.lookup other = db'.sessions.lookup other :=
      fun other hne => AList.lookup_erase_ne hne
    refine ⟨?_, ?_, h.subscriptions, h.retainedMessages, h.willMessages⟩
    · intro other
      by_cases hother : other = clientId
      · rw [hother, hclean]
        exact hasPersistent_of_none (AList.lookup_erase _ _)
      · rw [← h.persistent, Database.hasPersistent, hsessions other hother]
        rfl
    · intro other hkept
      have hne : other ≠ clientId := by
        intro heq
        rw [heq, hclean] at hkept
        cases hkept
      rw [hsessions other hne, h.sessions other hkept]

theorem Database.Preserves.apply (h : db.Preserves db') (hevents : ∀ event ∈ events, db.Sheds event) :
    db.Preserves (db'.apply sender events) := by
  induction events generalizing db' with
  | nil => exact h
  | cons event events ih =>
    obtain ⟨hfirst, hrest⟩ := List.forall_mem_cons.mp hevents
    exact ih (h.execute hfirst) hrest

theorem CleanedUp.sheds (h : CleanedUp db.restore state events) : ∀ event ∈ events, db.Sheds event := by
  obtain ⟨hstale, horphans⟩ := h
  rename_i stale orphans
  have hmem : ∀ clientId, clientId ∈ stale ↔ clientId ∈ staleClients db.restore := fun _ => hstale.mem_iff
  have hunkept : ∀ clientId, clientId ∈ stale ∨ clientId ∈ orphans → db.hasPersistent clientId = false := by
    intro clientId hclient
    cases hclient with
    | inl hclient => exact ((mem_stale_restore db clientId).mp ((hmem clientId).mp hclient)).2
    | inr hclient =>
      exact hasPersistent_of_none ((mem_orphans_restore hmem clientId).mp (horphans.mem_iff.mp hclient)).1
  obtain ⟨hevents, hremovals⟩ := mem_removalEvents stale orphans
  intro event hevent
  obtain ⟨clientId, rfl | rfl⟩ := hremovals event hevent
  · exact ⟨clientId, hunkept clientId ((hevents clientId).2.mp hevent), .inl rfl⟩
  · exact ⟨clientId, hunkept clientId (.inl ((hevents clientId).1.mp hevent)), .inr rfl⟩

theorem Database.Preserves.sheds (h : db.Preserves db') (hevent : db'.Sheds event) : db.Sheds event := by
  obtain ⟨clientId, hclean, hremoval⟩ := hevent
  exact ⟨clientId, (h.persistent clientId).symm.trans hclean, hremoval⟩

theorem CleanedUp.besides (h : CleanedUp db.restore state events) :
    state.retained = db.restore.retained ∧ state.wills = db.restore.wills := by
  obtain ⟨hstale, horphans⟩ := h
  rename_i stale orphans
  have hremoved : ∀ state : BrokerState,
      (removeStale stale state).retained = state.retained ∧ (removeStale stale state).wills = state.wills := by
    intro state
    apply List.foldlRecOn (motive := fun state' : BrokerState => state'.retained = state.retained ∧ state'.wills = state.wills)
      _ _ ⟨rfl, rfl⟩
    intro _ h _ _
    exact h
  have hremoved' : ∀ state : BrokerState,
      (removeOrphans orphans state).retained = state.retained ∧ (removeOrphans orphans state).wills = state.wills := by
    intro state
    apply List.foldlRecOn (motive := fun state' : BrokerState => state'.retained = state.retained ∧ state'.wills = state.wills)
      _ _ ⟨rfl, rfl⟩
    intro _ h _ _
    exact h
  exact ⟨(hremoved' _).1.trans (hremoved _).1, (hremoved' _).2.trans (hremoved _).2⟩

theorem Database.Preserves.startup (h : db.Preserves db') {events' : List PersistEvent} {sender' : ThreadId}
    (hclean : CleanedUp db.restore state events) (hclean' : CleanedUp db'.restore state' events') :
    SameStartup state' state ∧ SameRows (db'.apply sender' events') (db.apply sender events) := by
  have hafter := hclean.after sender
  have hafter' := hclean'.after sender'
  have hkept : db.Preserves (db.apply sender events) := (Database.Preserves.refl db).apply hclean.sheds
  have hkept' : db.Preserves (db'.apply sender' events') := h.apply fun event hevent => h.sheds (hclean'.sheds event hevent)
  have hentries : state'.subscriptions.entries = state.subscriptions.entries := by
    funext key
    rw [hafter'.entries, hafter.entries, h.persistent]
    cases hpersistent : db.hasPersistent key.1 with
    | false => rfl
    | true => rw [h.subscriptions key hpersistent]
  have hactive : state'.metrics.subscriptionsActive = state.metrics.subscriptionsActive := by
    rw [hclean'.active, hclean.active, count_eq_ncard hafter'.held, count_eq_ncard hafter.held, hentries]
  refine ⟨⟨⟨?_, hentries, hactive⟩, ?_, ?_⟩, ⟨?_, ?_, ?_, ?_⟩⟩
  · intro clientId
    rw [hafter'.sessions, hafter.sessions, h.persistent]
    cases hpersistent : db.hasPersistent clientId with
    | false => rfl
    | true => rw [h.sessions clientId hpersistent]
  · intro topic
    rw [hclean'.besides.1, hclean.besides.1, restore_retained, restore_retained, h.retainedMessages]
  · intro clientId
    rw [hclean'.besides.2, hclean.besides.2, restore_wills, restore_wills, h.willMessages]
  · intro clientId
    rw [hafter'.sessionRows, hafter.sessionRows, h.persistent]
    cases hpersistent : db.hasPersistent clientId with
    | false => rfl
    | true => rw [h.sessions clientId hpersistent]
  · intro key
    rw [hafter'.subscriptionRows, hafter.subscriptionRows, h.persistent]
    cases hpersistent : db.hasPersistent key.1 with
    | false => rfl
    | true => rw [h.subscriptions key hpersistent]
  · rw [hkept'.retainedMessages, hkept.retainedMessages]
  · rw [hkept'.willMessages, hkept.willMessages]

end

/-- Startups one after the other, each from what the writer had done of the removals of the one before. -/
inductive Restarted (db : Database) : Database → BrokerState → List PersistEvent → Prop
  | first {state : BrokerState} {events : List PersistEvent} (h : CleanedUp db.restore state events) :
      Restarted db db state events
  | again {db' : Database} {state state' : BrokerState} {events part events' : List PersistEvent} {sender : ThreadId}
      (h : Restarted db db' state events) (hpart : part <+: events)
      (h' : CleanedUp (db'.apply sender part).restore state' events') : Restarted db (db'.apply sender part) state' events'

section
variable {db db' : Database} {state state' : BrokerState} {events events' : List PersistEvent}

theorem Restarted.cleanedUp (h : Restarted db db' state events) : CleanedUp db'.restore state events := by
  cases h with
  | first h => exact h
  | again _ _ h' => exact h'

theorem Restarted.preserves (h : Restarted db db' state events) : db.Preserves db' := by
  induction h with
  | first _ => exact .refl db
  | again h hpart _ ih => exact ih.apply fun event hevent => ih.sheds (h.cleanedUp.sheds event (hpart.subset hevent))

/-- However often the broker is killed during its startup and whatever the writer has done each time, it comes up as if
    the first startup had not been cut off, and the tables end up with the same rows. -/
theorem Restarted.sameStartup (sender sender' : ThreadId) (hclean : CleanedUp db.restore state events)
    (h : Restarted db db' state' events') :
    SameStartup state' state ∧ SameRows (db'.apply sender' events') (db.apply sender events) :=
  h.preserves.startup hclean h.cleanedUp

end

theorem sameStartup_leftOver :
    let events := (startupCleanup leftOver.restore).2
    let db' := leftOver.apply (.router 1) (events.take 2)
    (startupCleanup db'.restore).2 ≠ events ∧ SameStartup (startupCleanup db'.restore).1 (startupCleanup leftOver.restore).1 ∧
      SameRows (db'.apply (.router 2) (startupCleanup db'.restore).2) (leftOver.apply (.router 1) events) := by
  refine ⟨by decide +kernel, ?_⟩
  exact Restarted.sameStartup (.router 1) (.router 2) (cleanedUp_startupCleanup leftOver.restore)
    (.again (.first (cleanedUp_startupCleanup leftOver.restore)) (List.take_prefix 2 _) (cleanedUp_startupCleanup _))

section
variable {settings : Settings} {db : Database} {evs : List BrokerEvent} {cfg : BrokerConfigState}

/-- The writer has done the first of the removals that the last startup has sent. -/
def Recovering (db : Database) (node : Node) : Prop :=
  ∃ db' events n, Restarted db db' node.shared.broker events ∧
    node.database = db'.apply (.router node.life) (events.take n) ∧
    node.shared.events = (events.drop n).map fun event => (.router node.life, event)

theorem recovering_restart {node : Node}
    (h : ∀ events, CleanedUp node.database.restore (startupCleanup node.database.restore).1 events →
    Restarted db node.database (startupCleanup node.database.restore).1 events) : Recovering db node.restart :=
  ⟨node.database, (startupCleanup node.database.restore).2, 0, h _ (cleanedUp_startupCleanup _), rfl, rfl⟩

theorem Recovering.restart {node : Node} (h : Recovering db node) : Recovering db node.restart := by
  obtain ⟨db', events, n, hrestarted, hdatabase, -⟩ := h
  apply recovering_restart
  intro events' hclean
  rw [hdatabase] at hclean ⊢
  exact .again hrestarted (List.take_prefix n events) hclean

theorem Recovering.commit {node : Node} (h : Recovering db node) (m : ℕ) : Recovering db (node.commit m) := by
  obtain ⟨db', events, n, hrestarted, hdatabase, hevents⟩ := h
  refine ⟨db', events, n + m, hrestarted, ?_, ?_⟩
  · change (node.shared.events.take m).foldl _ node.database = _
    rw [hevents, hdatabase, ← List.map_take, List.foldl_map, List.take_add, Database.apply, Database.apply, List.foldl_append]
    rfl
  · change node.shared.events.drop m = _
    rw [hevents, ← List.map_drop, List.drop_drop]
    rfl

theorem recovering_of_run (hrun : (brokerSystem settings).RunWhere (fun _ _ e _ => ∃ w, e = .world w) (started db) evs cfg) :
    Recovering db cfg.shared := by
  induction hrun with
  | nil => exact recovering_restart fun _ hclean => .first hclean
  | @snoc evs cfg cfg' e run step ok ih =>
    obtain ⟨w, rfl⟩ := ok
    cases step with
    | @world w node ends hworld =>
      cases w with
      | commit n =>
        cases hworld
        exact ih.commit n
      | restart =>
        obtain ⟨rfl, rfl⟩ := restart_of_world hworld
        exact ih.restart

end

end AtomMqtt
