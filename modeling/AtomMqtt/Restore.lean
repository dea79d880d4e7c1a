import AtomMqtt.BrokerSystem

set_option autoImplicit false

/-! What the writer and the restore make of the maps. The tables as they will be when all queued events are
committed, and the maps that are made of them. -/
namespace AtomMqtt
open Programs

/-- The tables once the writer has committed the queued events. -/
def Node.written (node : Node) : Database :=
  node.shared.events.foldl (fun db event => db.execute event.1 event.2) node.database

theorem written_commit (node : Node) (n : ℕ) : (node.commit n).written = node.written := by
  unfold Node.written
  conv_rhs => rw [← List.take_append_drop n node.shared.events, List.foldl_append]
  rfl

section
variable {K V W : Type} [DecidableEq K]

theorem lookup_inserts {f : (_ : K) × V → W} {key : W → K} (hkey : ∀ entry, key (f entry) = entry.1)
    {entries : List ((_ : K) × V)} (hentries : entries.NodupKeys) (map : DashMap K W) (k : K) :
    ((entries.map f).foldl (fun map w => map.insert (key w) w) map).lookup k =
      ((entries.dlookup k).map fun v => f ⟨k, v⟩).or (map.lookup k) := by
  induction entries generalizing map with
  | nil => rfl
  | cons entry entries ih =>
    obtain ⟨k', v⟩ := entry
    rw [List.nodupKeys_cons] at hentries
    rw [List.map_cons, List.foldl_cons, ih hentries.2, hkey]
    by_cases hk : k = k'
    · subst hk
      rw [List.dlookup_cons_eq, List.dlookup_eq_none.mpr hentries.1, AList.lookup_insert]
      rfl
    · rw [List.dlookup_cons_ne _ _ hk, AList.lookup_insert_ne hk]

theorem lookup_restored (f : (_ : K) × V → W) (key : W → K) (hkey : ∀ entry, key (f entry) = entry.1)
    (map : DashMap K V) (k : K) :
    ((map.entries.map f).foldl (fun map w => map.insert (key w) w) (∅ : DashMap K W)).lookup k =
      (map.lookup k).map fun v => f ⟨k, v⟩ := by
  rw [lookup_inserts hkey map.nodupKeys]
  exact Option.or_none

end

theorem restore_retained (db : Database) (topic : String) :
    db.restore.retained.lookup topic = (db.retainedMessages.lookup topic).map fun row =>
      { topic, payload := row.payload, qos := qosOfI32 row.qos } :=
  lookup_restored (fun entry : (_ : String) × RetainedRow =>
    { topic := entry.1, payload := entry.2.payload, qos := qosOfI32 entry.2.qos }) RetainedMessage.topic (fun _ => rfl) _ _

theorem restore_wills (db : Database) (clientId : String) :
    db.restore.wills.lookup clientId = (db.willMessages.lookup clientId).map fun saved =>
      (saved.1, { clientId, topic := saved.2.topic, payload := saved.2.payload, qos := qosOfI32 saved.2.qos,
                  retain := saved.2.retain, delayInterval := saved.2.delayInterval }) :=
  lookup_restored (fun entry : (_ : String) × ThreadId × WillRow => ((entry.2.1,
    { clientId := entry.1, topic := entry.2.2.topic, payload := entry.2.2.payload,
      qos := qosOfI32 entry.2.2.qos, retain := entry.2.2.retain,
      delayInterval := entry.2.2.delayInterval }) : ThreadId × WillMessage))
    (fun sent => sent.2.clientId) (fun _ => rfl) _ _

theorem qosOfI32_toI32 (qos : QoS) : qosOfI32 qos.toI32 = qos := by
  cases qos <;> rfl

/-- What two states share that differ in sessions and subscriptions. -/
structure SameBesides (state state' : BrokerState) : Prop where
  wills : state'.wills = state.wills
  retained : state'.retained = state.retained
  connections : state'.connections = state.connections
  nextClientId : state'.nextClientId = state.nextClientId
  webSubscribers : state'.webSubscribers = state.webSubscribers

theorem startupCleanup_frame (state : BrokerState) : SameBesides state (startupCleanup state).1 := by
  have hstart : SameBesides state state := ⟨rfl, rfl, rfl, rfl, rfl⟩
  have hcounted : ∀ state', SameBesides state state' → SameBesides state
      { state' with metrics := { state'.metrics with subscriptionsActive := state'.subscriptions.count } } :=
    fun _ h => ⟨h.wills, h.retained, h.connections, h.nextClientId, h.webSubscribers⟩
  unfold startupCleanup
  apply hcounted
  apply List.foldlRecOn (motive := SameBesides state)
  · apply List.foldlRecOn (motive := SameBesides state) _ _ hstart
    intro state' h clientId _
    exact ⟨h.wills, h.retained, h.connections, h.nextClientId, h.webSubscribers⟩
  · intro state' h clientId _
    exact ⟨h.wills, h.retained, h.connections, h.nextClientId, h.webSubscribers⟩

theorem startupCleanup_events {state : BrokerState} {event : PersistEvent} (h : event ∈ (startupCleanup state).2) :
    ∃ clientId, event = .RemoveClientSubscriptions clientId ∨ event = .RemoveSession clientId := by
  unfold startupCleanup at h
  cases List.mem_append.mp h with
  | inl h =>
    obtain ⟨clientId, _, h⟩ := List.mem_flatMap.mp h
    simp only [List.mem_cons, List.not_mem_nil, or_false] at h
    exact ⟨clientId, h⟩
  | inr h =>
    obtain ⟨clientId, _, rfl⟩ := List.mem_map.mp h
    exact ⟨clientId, .inl rfl⟩

end AtomMqtt
