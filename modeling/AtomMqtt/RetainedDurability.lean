import AtomMqtt.Restore
import AtomMqtt.RetainedStore

set_option autoImplicit false

/-! Retained messages in the database. The map of retained messages is kept in a table by events, and not every
write of the map has one. Where each event is true of the map when it is sent, map and table agree at rest. -/
namespace AtomMqtt
open Programs

/-- The row of a retained message; an empty payload is not to have one. -/
def RetainedMessage.row (message : RetainedMessage) : Option RetainedRow :=
  if message.payload.isEmpty then none else some { payload := message.payload, qos := message.qos.toI32 }

/-- The row that an event leaves under a topic, if it is about this topic. -/
def PersistEvent.tellsRetained (topic : String) : PersistEvent → Option (Option RetainedRow)
  | .SaveRetained topic' payload qos => if topic' = topic then some (some { payload, qos }) else none
  | .RemoveRetained topic' => if topic' = topic then some none else none
  | _ => none

def Action.tellsRetained (topic : String) : Action → Option (Option RetainedRow)
  | .sendEvent event => event.tellsRetained topic
  | _ => none

def outlookRow (owed : ThreadId → List Action) (node : Node) (topic : String) : Option RetainedRow :=
  ((outlook owed node).lookup topic).bind RetainedMessage.row

/-- While no other task owes an event of the topic, the step leaves the table right: an event is true of
    the map to come, and what no event will follow (a POST with the flag, its second write, a will with the
    flag) leaves the map to come as it is. -/
def told (topic : String) (evs : List BrokerEvent) (cfg : BrokerConfigState) : BrokerEvent → Bool
  | .act i (.sendEvent event) _ =>
    match event.tellsRetained topic with
    | some row => othersTell (Action.tellsRetained topic) evs cfg i || outlookRow (owed evs cfg) cfg.shared topic == row
    | none => true
  | .act (.request m) (.sendRouter (.Publish topic' payload qos true _)) _ =>
    topic' != topic || othersTell (Action.tellsRetained topic) evs cfg (.request m) ||
      outlookRow (owed evs cfg) cfg.shared topic == RetainedMessage.row { topic, payload, qos }
  | .act (.request m) (.retainedInsert topic' message) _ =>
    topic' != topic || othersTell (Action.tellsRetained topic) evs cfg (.request m) || waits (owed evs cfg) cfg.shared topic ||
      outlookRow (owed evs cfg) cfg.shared topic == message.row
  | .act (.router life) (.willsRemove _) (some (_, will)) =>
    !will.retain || will.topic != topic || othersTell (Action.tellsRetained topic) evs cfg (.router life) ||
      waits (owed evs cfg) cfg.shared topic || outlookRow (owed evs cfg) cfg.shared topic == will.retained.row
  | _ => true

/-- The queue is empty, all events are committed, and no task owes a write of the topic or an event of it. -/
def atRest (topic : String) (evs : List BrokerEvent) (cfg : BrokerConfigState) : Bool :=
  cfg.shared.shared.queue.isEmpty && cfg.shared.shared.events.isEmpty &&
    (actors evs).all fun i => (owed evs cfg i).all fun a =>
      a.retainedTopic != some topic && (a.tellsRetained topic).isNone

def IsRow (row : RetainedRow) : Prop := ∃ message : RetainedMessage, message.row = some row

section
variable {topic : String}

theorem execute_retained (db : Database) (sender : ThreadId) (event : PersistEvent) :
    (db.execute sender event).retainedMessages.lookup topic =
      (event.tellsRetained topic).getD (db.retainedMessages.lookup topic) := by
  cases event with
  | SaveRetained topic' payload qos =>
    simp only [Database.execute, PersistEvent.tellsRetained, DashMap.lookup_insert]
    split_ifs <;> rfl
  | RemoveRetained topic' =>
    simp only [Database.execute, PersistEvent.tellsRetained, DashMap.lookup_erase]
    split_ifs <;> rfl
  | _ => rfl

theorem IsRow.restored {row : RetainedRow} (h : IsRow row) :
    RetainedMessage.row { topic, payload := row.payload, qos := qosOfI32 row.qos } = some row := by
  obtain ⟨message, hrow⟩ := h
  unfold RetainedMessage.row at hrow
  split_ifs at hrow with hempty
  cases hrow
  simp only [RetainedMessage.row, qosOfI32_toI32, if_neg hempty]

theorem isRow_of_events {events : List (ThreadId × PersistEvent)} {db : Database}
    (hevents : ∀ sent ∈ events, ∀ row, sent.2.tellsRetained topic = some (some row) → IsRow row)
    (hdb : ∀ row, db.retainedMessages.lookup topic = some row → IsRow row) : ∀ row,
      (events.foldl (fun db event => db.execute event.1 event.2) db).retainedMessages.lookup topic = some row →
        IsRow row := by
  induction events generalizing db with
  | nil => exact hdb
  | cons event events ih =>
    rw [List.forall_mem_cons] at hevents
    apply ih hevents.2
    intro row hrow
    rw [execute_retained] at hrow
    cases htells : event.2.tellsRetained topic with
    | none =>
      rw [htells] at hrow
      exact hdb row hrow
    | some told =>
      rw [htells, Option.getD_some] at hrow
      exact hevents.1 row (hrow ▸ htells)

theorem execute_untold {events : List (ThreadId × PersistEvent)} {db : Database}
    (hevents : ∀ sent ∈ events, sent.2.tellsRetained topic = none) :
    (events.foldl (fun db event => db.execute event.1 event.2) db).retainedMessages.lookup topic =
      db.retainedMessages.lookup topic := by
  induction events generalizing db with
  | nil => rfl
  | cons event events ih =>
    rw [List.forall_mem_cons] at hevents
    rw [List.foldl_cons, ih hevents.2, execute_retained, hevents.1]
    rfl

/-- The writes that an event of the topic is to follow. -/
def Told (topic : String) (i : ThreadId) (a : Action) : Prop :=
  match i, a with
  | .connection _, .retainedInsert topic' _ | .connection _, .retainedRemove topic' => topic' = topic
  | .request _, .retainedRemove topic' => topic' = topic
  | _, _ => False

theorem Told.writes {i : ThreadId} {a : Action} (h : Told topic i a) : a.retainedTopic = some topic := by
  cases i <;> cases a <;> first | exact congrArg some h | exact h.elim

theorem follows_told (i : ThreadId) (n : Note) (a : Action) (r : Reply a) :
    FollowedBy (Told topic i) (fun b => (b.tellsRetained topic).isSome = true) (follows i n a r) := by
  by_cases hoperation : retainedOperation (.act i a r) = none
  · apply FollowedBy.of_none
    intro b hb htold
    cases hi : i.isRouter with
    | true =>
      cases i with
      | router life => exact htold
      | _ => cases hi
    | false =>
      obtain ⟨entry, hsome⟩ := operation_of_follows hi hb htold.writes
      rw [hoperation] at hsome
      cases hsome
  · cases a with
    | sendRouter message =>
      cases message with
      | ClientDisconnected clientId cleanSession => exact absurd rfl hoperation
      | Publish topic' payload qos retain sourceClient =>
        cases retain with
        | false => exact absurd rfl hoperation
        | true =>
          cases i with
          | connection k =>
            simp only [follows, connectionFollows]
            split_ifs <;> simp [FollowedBy, Told, Action.tellsRetained, PersistEvent.tellsRetained]
          | request m =>
            apply FollowedBy.of_none
            intro b hb htold
            simp only [follows, requestFollows] at hb
            split_ifs at hb
            · cases hb
            · rw [List.mem_singleton.mp hb] at htold
              exact htold
          | _ => trivial
    | retainedContains topic' =>
      cases i with
      | request m =>
        cases r with
        | false => trivial
        | true => simp [follows, requestFollows, FollowedBy, Told, Action.tellsRetained, PersistEvent.tellsRetained]
      | _ => trivial
    | _ => exact absurd rfl hoperation

theorem routerFollows_untold {n : Note} {a : Action} {r : Reply a} : Silent (Action.tellsRetained topic) (routerFollows n a r) := by
  cases a with
  | recvRouter =>
    obtain ⟨sender, message⟩ := r
    cases message with
    | Publish topic' payload qos retain sourceClient =>
      cases retain <;> simp [Silent, routerFollows, retains, Action.tellsRetained]
    | ClientDisconnected clientId cleanSession =>
      cases cleanSession <;> simp [Silent, routerFollows, Action.tellsRetained, PersistEvent.tellsRetained]
  | willsRemove clientId =>
    cases r with
    | none => exact List.forall_mem_nil _
    | some sent =>
      cases hretain : sent.2.retain <;>
        simp [Silent, routerFollows, retains, hretain, Action.tellsRetained, PersistEvent.tellsRetained]
  | lookup topic' =>
    intro b hb
    obtain ⟨_, _, rfl⟩ | ⟨_, _, rfl⟩ := mem_forwards hb
    · rfl
    · rfl
  | _ => exact List.forall_mem_nil _

theorem connectionFollows_rows {n : Note} {a : Action} {r : Reply a} {row : RetainedRow} :
    ∀ b ∈ connectionFollows n a r, b.tellsRetained topic = some (some row) → IsRow row := by
  intro b hb htells
  cases a with
  | sendRouter message =>
    cases message with
    | ClientDisconnected clientId cleanSession => cases hb
    | Publish topic' payload qos retain sourceClient =>
      cases retain with
      | false => cases hb
      | true =>
        simp only [connectionFollows] at hb
        split_ifs at hb with hempty
        · simp only [List.mem_cons, List.not_mem_nil, or_false] at hb
          obtain rfl | rfl := hb
          · cases htells
          · simp [Action.tellsRetained, PersistEvent.tellsRetained] at htells
        · simp only [List.mem_cons, List.not_mem_nil, or_false] at hb
          obtain rfl | rfl := hb
          · cases htells
          · simp only [Action.tellsRetained, PersistEvent.tellsRetained] at htells
            split_ifs at htells
            cases htells
            exact ⟨{ topic := topic', payload, qos }, if_neg hempty⟩
  | sessionsInsert clientId session =>
    simp only [connectionFollows, List.mem_append, List.mem_map, List.mem_singleton] at hb
    obtain ⟨will, _, rfl⟩ | rfl := hb
    · cases htells
    · cases htells
  | retainedIter =>
    obtain ⟨item, _, rfl⟩ := List.mem_map.mp hb
    cases htells
  | subscribe clientId filter qos =>
    simp only [connectionFollows, List.mem_cons, List.not_mem_nil, or_false] at hb
    obtain rfl | rfl := hb <;> cases htells
  | willsInsert clientId will | willsRemove clientId | unsubscribe clientId filter =>
    cases List.mem_singleton.mp hb
    cases htells
  | _ => cases hb

theorem requestFollows_rows {a : Action} {r : Reply a} {row : RetainedRow} :
    ∀ b ∈ requestFollows a r, b.tellsRetained topic ≠ some (some row) := by
  intro b hb htells
  cases a with
  | sendRouter message =>
    cases message with
    | ClientDisconnected clientId cleanSession => cases hb
    | Publish topic' payload qos retain sourceClient =>
      cases retain with
      | false => cases hb
      | true =>
        simp only [requestFollows] at hb
        split_ifs at hb
        · cases hb
        · cases List.mem_singleton.mp hb
          cases htells
  | retainedContains topic' =>
    cases r with
    | false => cases hb
    | true =>
      simp only [requestFollows, List.mem_cons, List.not_mem_nil, or_false] at hb
      obtain rfl | rfl := hb
      · cases htells
      · simp [Action.tellsRetained, PersistEvent.tellsRetained] at htells
  | _ => cases hb

theorem follows_rows {i : ThreadId} {n : Note} {a : Action} {r : Reply a} {row : RetainedRow} : ∀ b ∈ follows i n a r,
    b.tellsRetained topic = some (some row) → IsRow row := by
  intro b hb htells
  cases i with
  | router life =>
    rw [routerFollows_untold b hb] at htells
    cases htells
  | connection k => exact connectionFollows_rows b hb htells
  | request m => exact absurd htells (requestFollows_rows b hb)
  | web k => cases hb

end

/-- What holds under a topic in every state of such a run. -/
structure Recorded (topic : String) (node : Node) (owes : ThreadId → List Action) : Prop where
  agrees : (∀ j, Silent (Action.tellsRetained topic) (owes j)) →
    outlookRow owes node topic = node.written.retainedMessages.lookup topic
  owedRows : ∀ j, ∀ b ∈ owes j, ∀ row, b.tellsRetained topic = some (some row) → IsRow row
  queuedRows : ∀ sent ∈ node.shared.events, ∀ row, sent.2.tellsRetained topic = some (some row) → IsRow row
  savedRows : ∀ row, node.database.retainedMessages.lookup topic = some row → IsRow row

section
variable {topic : String} {evs : List BrokerEvent} {cfg : BrokerConfigState} {node' : Node} {i : ThreadId} {n : Note}
  {a : Action} {r : Reply a} {input : Input} {owes' : List Action}

theorem written_act (hperform : cfg.shared.perform i a input = some (node', r)) :
    node'.written.retainedMessages.lookup topic =
      (a.tellsRetained topic).getD (cfg.shared.written.retainedMessages.lookup topic) := by
  obtain ⟨hperformed, hdatabase, -⟩ := node_performed hperform
  rw [Node.written, hperformed.events, hdatabase]
  cases a with
  | sendEvent event =>
    rw [Action.onEvents, List.foldl_append]
    exact execute_retained _ _ _
  | _ => rfl

theorem Told.not_silent (h : Told topic i a)
    (hfollowed : FollowedBy (Told topic i) (fun b => (b.tellsRetained topic).isSome = true) (owed evs cfg i))
    (hacts : Acts i n (owed evs cfg i) a r owes') : ¬ Silent (Action.tellsRetained topic) owes' := by
  intro hsilent
  have hlisted : a.listed = true := by
    cases a <;> first | rfl | cases h.writes
  have howable : Owable i a := by
    cases i <;> cases a <;> trivial
  obtain ⟨rest, howes, howes'⟩ := hacts.owed hlisted howable
  rw [howes] at hfollowed
  obtain ⟨b, hb, htells⟩ := hfollowed.1 h
  rw [hsilent b (howes' ▸ List.mem_append_right _ hb)] at htells
  cases htells

theorem publish_not_silent {k : ConnId} {payload : Bytes} {qos : QoS} {sourceClient : String} {r : Unit}
    (hacts : Acts (.connection k) n (owed evs cfg (.connection k)) (.sendRouter (.Publish topic payload qos true sourceClient))
      r owes') : ¬ Silent (Action.tellsRetained topic) owes' := by
  intro hsilent
  have howes' := (hacts.begun rfl (by exact id)).2.2
  simp only [follows, connectionFollows] at howes'
  have htells : ∃ b ∈ owes', (b.tellsRetained topic).isSome = true := by
    rw [howes']
    split_ifs <;> simp [Action.tellsRetained, PersistEvent.tellsRetained]
  obtain ⟨b, hb, hsome⟩ := htells
  rw [hsilent b hb] at hsome
  cases hsome

theorem outlookRow_untold (hlife : ∀ life, i = .router life → life = cfg.shared.life)
    (hfollowed : FollowedBy (Told topic i) (fun b => (b.tellsRetained topic).isSome = true) (owed evs cfg i))
    (hacts : Acts i n (owed evs cfg i) a r owes') (hperform : cfg.shared.perform i a input = some (node', r))
    (htold : told topic evs cfg (.act i a r) = true)
    (hothers : ∀ j, j ≠ i → Silent (Action.tellsRetained topic) (owed evs cfg j))
    (hsilent : Silent (Action.tellsRetained topic) owes') :
    outlookRow (Function.update (owed evs cfg) i owes') node' topic = outlookRow (owed evs cfg) cfg.shared topic := by
  have hnobody := othersTell_false hothers
  have hnotTold : ¬ Told topic i a := fun h => h.not_silent hfollowed hacts hsilent
  have hout : outlookRow (Function.update (owed evs cfg) i owes') node' topic =
      (outlookAfter (waits (owed evs cfg) cfg.shared topic) topic ((outlook (owed evs cfg) cfg.shared).lookup topic)
        i a r).bind RetainedMessage.row := by
    rw [outlookRow, outlook_act hlife hacts hperform]
  rw [hout]
  cases a with
  | willsRemove clientId =>
    cases r with
    | none => cases i <;> rfl
    | some sent =>
      cases i with
      | router life =>
        simp only [outlookAfter]
        split_ifs with hwrites
        · simp only [told, hnobody, Bool.or_false] at htold
          simp only [Bool.and_eq_true, Bool.not_eq_true', beq_iff_eq] at hwrites
          have hrow : outlookRow (owed evs cfg) cfg.shared topic = sent.2.retained.row := by
            simpa [hwrites] using htold
          exact hrow.symm
        · rfl
      | _ => rfl
  | sendRouter message =>
    cases message with
    | ClientDisconnected clientId cleanSession => rfl
    | Publish topic' payload qos retain sourceClient =>
      cases retain with
      | false => rfl
      | true =>
        simp only [outlookAfter]
        split_ifs with htopic
        · subst htopic
          cases i with
          | connection k => exact absurd hsilent (publish_not_silent hacts)
          | request m =>
            simp only [told, hnobody, Bool.or_false] at htold
            have hrow : outlookRow (owed evs cfg) cfg.shared topic' =
                RetainedMessage.row { topic := topic', payload, qos } := by
              simpa using htold
            exact hrow.symm
          | router life => exact (hacts.never rfl id id).elim
          | web k => exact (hacts.never rfl id id).elim
        · rfl
  | retainedInsert topic' message =>
    cases i with
    | router life => rfl
    | connection k =>
      have htopic : topic' ≠ topic := hnotTold
      simp [outlookAfter, htopic, outlookRow]
    | request m =>
      simp only [outlookAfter]
      split_ifs with hwrites
      · simp only [told, hnobody, Bool.or_false] at htold
        simp only [Bool.and_eq_true, Bool.not_eq_true', decide_eq_true_eq] at hwrites
        have hrow : outlookRow (owed evs cfg) cfg.shared topic = message.row := by
          simpa [hwrites] using htold
        exact hrow.symm
      · rfl
    | web k => exact (hacts.never rfl id id).elim
  | retainedRemove topic' =>
    cases i with
    | connection k | request m =>
      have htopic : topic' ≠ topic := hnotTold
      simp [outlookAfter, htopic, outlookRow]
    | router life | web k => exact (hacts.never rfl id id).elim
  | _ => rfl

theorem outlookRow_event {row : Option RetainedRow} (hlife : ∀ life, i = .router life → life = cfg.shared.life)
    (hacts : Acts i n (owed evs cfg i) a r owes') (hperform : cfg.shared.perform i a input = some (node', r))
    (hrow : a.tellsRetained topic = some row) :
    outlookRow (Function.update (owed evs cfg) i owes') node' topic = outlookRow (owed evs cfg) cfg.shared topic := by
  rw [outlookRow, outlook_act hlife hacts hperform]
  cases a with
  | sendEvent event => rfl
  | _ => cases hrow

theorem event_true {row : Option RetainedRow} (htold : told topic evs cfg (.act i a r) = true)
    (hothers : ∀ j, j ≠ i → Silent (Action.tellsRetained topic) (owed evs cfg j))
    (hrow : a.tellsRetained topic = some row) : outlookRow (owed evs cfg) cfg.shared topic = row := by
  cases a with
  | sendEvent event =>
    have hevent : event.tellsRetained topic = some row := hrow
    simpa [told, hevent, othersTell_false hothers] using htold
  | _ => cases hrow

theorem Recorded.act (h : Recorded topic cfg.shared (owed evs cfg))
    (hlife : ∀ life, i = .router life → life = cfg.shared.life)
    (hfollowed : FollowedBy (Told topic i) (fun b => (b.tellsRetained topic).isSome = true) (owed evs cfg i))
    (hacts : Acts i n (owed evs cfg i) a r owes') (hperform : cfg.shared.perform i a input = some (node', r))
    (htold : told topic evs cfg (.act i a r) = true) :
    Recorded topic node' (Function.update (owed evs cfg) i owes') := by
  obtain ⟨hperformed, hdatabase, -⟩ := node_performed hperform
  constructor
  · apply agree_step h.agrees hacts.kept
    · intro row hrow
      refine ⟨outlookRow_event hlife hacts hperform hrow, ?_, ?_⟩
      · rw [written_act hperform, hrow]
        rfl
      · intro hothers
        exact event_true htold hothers hrow
    · intro hnone
      refine ⟨?_, fun hothers hsilent => outlookRow_untold hlife hfollowed hacts hperform htold hothers hsilent⟩
      rw [written_act hperform, hnone]
      rfl
  · intro j b hb row hrow
    by_cases hj : j = i
    · subst hj
      rw [Function.update_self, hacts.owes'] at hb
      cases Agenda.mem_next hb with
      | inl hfollows => exact follows_rows b hfollows hrow
      | inr hold => exact h.owedRows j b hold row hrow
    · rw [Function.update_of_ne hj] at hb
      exact h.owedRows j b hb row hrow
  · intro sent hsent row hrow
    rw [hperformed.events] at hsent
    cases a with
    | sendEvent event =>
      cases List.mem_append.mp hsent with
      | inl hold => exact h.queuedRows sent hold row hrow
      | inr hnew =>
        cases List.mem_singleton.mp hnew
        obtain ⟨rest, howes, -⟩ := hacts.owed rfl hacts.sendEvent_owable
        exact h.owedRows i (.sendEvent event) (howes ▸ List.mem_cons_self) row hrow
    | _ => exact h.queuedRows sent hsent row hrow
  · rw [hdatabase]
    exact h.savedRows

theorem Recorded.commit {node : Node} {owes : ThreadId → List Action} (h : Recorded topic node owes) (m : ℕ) :
    Recorded topic (node.commit m) owes where
  agrees := by
    rw [written_commit]
    exact h.agrees
  owedRows := h.owedRows
  queuedRows := fun sent hsent => h.queuedRows sent (List.mem_of_mem_drop hsent)
  savedRows := isRow_of_events (fun sent hsent => h.queuedRows sent (List.mem_of_mem_take hsent)) h.savedRows

theorem Recorded.restart {node : Node} {owes : ThreadId → List Action} (h : Recorded topic node owes) :
    Recorded topic node.restart fun _ => [] := by
  have huntold : ∀ sent ∈ node.restart.shared.events, sent.2.tellsRetained topic = none := by
    intro sent hsent
    obtain ⟨event, hevent, rfl⟩ := List.mem_map.mp hsent
    obtain ⟨clientId, rfl | rfl⟩ := startupCleanup_events hevent
    · rfl
    · rfl
  have hretained : node.restart.shared.broker.retained = node.database.restore.retained := (startupCleanup_frame _).retained
  constructor
  · intro _
    rw [Node.written, execute_untold huntold]
    change (node.restart.shared.broker.retained.lookup topic).bind RetainedMessage.row = _
    rw [hretained, restore_retained]
    change _ = node.database.retainedMessages.lookup topic
    cases hrow : node.database.retainedMessages.lookup topic with
    | none => rfl
    | some row => exact (h.savedRows row hrow).restored
  · exact fun _ => List.forall_mem_nil _
  · intro sent hsent row hrow
    rw [huntold sent hsent] at hrow
    cases hrow
  · exact h.savedRows

end

theorem recorded_of_run {settings : Settings} {topic : String} {evs : List BrokerEvent} {cfg : BrokerConfigState}
    (hrun : (brokerSystem settings).RunWhere (fun evs cfg e _ => told topic evs cfg e = true) initial evs cfg) :
    Recorded topic cfg.shared (owed evs cfg) := by
  apply owed_induction (J := fun _ node owes => Recorded topic node owes) _ _ _ _ _ hrun
  · constructor
    · exact fun _ => rfl
    · exact fun _ => List.forall_mem_nil _
    · exact List.forall_mem_nil _
    · exact fun _ hrow => by cases hrow
  · exact fun _ _ _ _ ih => ih
  · intro evs cfg cfg' i a r input owes' run _ hstep hlife hacts hperform ih
    exact ih.act hlife (followedBy_of_run follows_told run i) hacts hperform hstep
  · exact fun m ih => ih.commit m
  · exact fun _ _ ih => ih.restart

theorem mem_loadRetained {db : Database} {topic : String} {payload : Bytes} {qos : QoS} :
    { topic, payload, qos } ∈ db.loadRetained ↔
      ∃ row, db.retainedMessages.lookup topic = some row ∧ row.payload = payload ∧ qosOfI32 row.qos = qos := by
  rw [Database.loadRetained, List.mem_map]
  constructor
  · intro h
    obtain ⟨⟨topic', row⟩, hentry, heq⟩ := h
    cases heq
    exact ⟨row, AList.mem_lookup_iff.mpr hentry, rfl, rfl⟩
  · intro h
    obtain ⟨row, hrow, rfl, rfl⟩ := h
    exact ⟨⟨topic, row⟩, AList.mem_lookup_iff.mp hrow, rfl⟩

theorem RetainedMessage.row_eq_some {message : RetainedMessage} {row : RetainedRow} :
    message.row = some row ↔
      message.payload.isEmpty = false ∧ row = { payload := message.payload, qos := message.qos.toI32 } := by
  unfold RetainedMessage.row
  cases message.payload.isEmpty <;> simp [eq_comm]

/-- At rest the map is what it is to be, and the table as well. -/
theorem row_of_atRest {topic : String} {evs : List BrokerEvent} {cfg : BrokerConfigState}
    (h : Recorded topic cfg.shared (owed evs cfg)) (hrest : atRest topic evs cfg = true) :
    cfg.shared.database.retainedMessages.lookup topic =
      (cfg.shared.shared.broker.retained.lookup topic).bind RetainedMessage.row := by
  obtain ⟨hempty, hnone⟩ := Bool.and_eq_true_iff.mp hrest
  obtain ⟨hqueue, hevents⟩ := Bool.and_eq_true_iff.mp hempty
  have howed : ∀ j, ∀ b ∈ owed evs cfg j, b.retainedTopic ≠ some topic ∧ b.tellsRetained topic = none := by
    intro j b hb
    by_cases hactor : j ∈ actors evs
    · have hb' := List.all_eq_true.mp (List.all_eq_true.mp hnone j hactor) b hb
      rw [Bool.and_eq_true, bne_iff_ne, Option.isNone_iff_eq_none] at hb'
      exact hb'
    · rw [owed_of_idle hactor] at hb
      cases hb
  have hwaits : (backlog (owed evs cfg) cfg.shared).any (fun entry => entry.1 == topic) = false := by
    rw [backlog, List.isEmpty_iff.mp hqueue, List.filterMap_nil, List.append_nil, List.any_eq_false]
    intro entry hentry htopic
    obtain ⟨b, hb, hretains⟩ := List.mem_filterMap.mp hentry
    have hb' := (howed _ b hb).1
    rw [onRetained_of_retains hretains] at hb'
    exact hb' (congrArg some (beq_iff_eq.mp htopic))
  have hwritten : cfg.shared.written = cfg.shared.database := by
    rw [Node.written, List.isEmpty_iff.mp hevents]
    rfl
  have hagrees := h.agrees fun j b hb => (howed j b hb).2
  rw [hwritten, outlookRow, outlook, caughtUp_absent hwaits] at hagrees
  exact hagrees.symm

/-- Where all that is told is true of the map to come, the table loads at rest exactly the entries of the
    map that have a payload, also over restarts. -/
theorem retained_durable {settings : Settings} {topic : String} {evs : List BrokerEvent} {cfg : BrokerConfigState}
    (hrun : (brokerSystem settings).RunWhere (fun evs cfg e _ => told topic evs cfg e = true) initial evs cfg)
    (hrest : atRest topic evs cfg = true) (payload : Bytes) (qos : QoS) :
    { topic, payload, qos } ∈ cfg.shared.database.loadRetained ↔
      payload.isEmpty = false ∧ ∃ message, cfg.shared.shared.broker.retained.lookup topic = some message ∧
        message.payload = payload ∧ message.qos = qos := by
  rw [mem_loadRetained, row_of_atRest (recorded_of_run hrun) hrest]
  constructor
  · intro h
    obtain ⟨row, hrow, rfl, rfl⟩ := h
    obtain ⟨message, hmessage, hrow⟩ := Option.bind_eq_some_iff.mp hrow
    obtain ⟨hpayload, rfl⟩ := RetainedMessage.row_eq_some.mp hrow
    exact ⟨hpayload, message, hmessage, rfl, (qosOfI32_toI32 message.qos).symm⟩
  · intro h
    obtain ⟨hpayload, message, hmessage, rfl, rfl⟩ := h
    refine ⟨_, Option.bind_eq_some_iff.mpr ⟨message, hmessage, RetainedMessage.row_eq_some.mpr ⟨hpayload, rfl⟩⟩, rfl, ?_⟩
    exact qosOfI32_toI32 message.qos

def restartedMoves : List BrokerMove :=
  [.spawn (.router 0) .router, .spawn (.connection 0) .tcp,
    .act (.connection 0) (.received (.data (sentBytes (.V311 (.Connect (plainConnectV3 "c" true none))))))] ++
  turns (.connection 0) 8 ++
  [.act (.connection 0) (.received (.data (sentBytes (.V311 (.Publish (retainedPublish [0x78]))))))] ++
  turns (.connection 0) 6 ++ turns (.router 0) 4 ++
  [.world (.commit 2), .world .restart, .spawn (.router 1) .router,
    .spawn (.request 0) (.publishRequest "t" "x" 0 true)] ++
  turns (.request 0) 4 ++ turns (.router 1) 4 ++ [.world (.commit 2)]

theorem retained_durable_restarted : ∃ evs cfg, (brokerSystem openSettings).Run initial evs cfg ∧ cfg.shared.life = 1 ∧
    { topic := "t", payload := [0x78], qos := .AtMostOnce } ∈ cfg.shared.database.loadRetained := by
  have hrun : ((brokerSystem openSettings).execWhere (fun evs cfg e _ => told "t" evs cfg e) [] initial
      restartedMoves).map (fun r => (atRest "t" r.1 r.2, r.2.shared.life,
        r.2.shared.shared.broker.retained.lookup "t")) =
      some (true, 1, some { topic := "t", payload := [0x78], qos := .AtMostOnce }) := by decide +kernel
  obtain ⟨⟨evs, cfg⟩, hexec, heq⟩ := Option.map_eq_some_iff.mp hrun
  simp only [Prod.mk.injEq] at heq
  obtain ⟨hrest, hlife, hretained⟩ := heq
  have hwhere : (brokerSystem openSettings).RunWhere (fun evs cfg e _ => told "t" evs cfg e = true) initial evs cfg :=
    System.execWhere_run _ (fun _ _ _ _ h => h) .nil hexec
  refine ⟨evs, cfg, System.execWhere_run _ (fun _ _ _ _ _ => trivial) .nil hexec, hlife, ?_⟩
  exact (retained_durable hwhere hrest [0x78] .AtMostOnce).mpr ⟨rfl, _, hretained, rfl, rfl⟩

/-- A POST with the flag is in the map and in no table. -/
theorem retained_lost : ¬ ∀ evs cfg topic payload qos, (brokerSystem openSettings).Run initial evs cfg →
    atRest topic evs cfg = true → ({ topic, payload, qos } ∈ cfg.shared.database.loadRetained ↔
      payload.isEmpty = false ∧ ∃ message, cfg.shared.shared.broker.retained.lookup topic = some message ∧
        message.payload = payload ∧ message.qos = qos) := by
  have hrun : (execute openSettings ([.spawn (.router 0) .router,
      .spawn (.request 0) (.publishRequest "t" "x" 0 true)] ++ turns (.request 0) 4 ++ turns (.router 0) 4)).map
      (fun r => (atRest "t" r.1 r.2, r.2.shared.shared.broker.retained.lookup "t", r.2.shared.database.loadRetained)) =
      some (true, some { topic := "t", payload := [0x78], qos := .AtMostOnce }, []) := by decide +kernel
  obtain ⟨⟨evs, cfg⟩, hexec, heq⟩ := Option.map_eq_some_iff.mp hrun
  simp only [Prod.mk.injEq] at heq
  obtain ⟨hrest, hretained, hloaded⟩ := heq
  intro hdurable
  have h := (hdurable evs cfg "t" [0x78] .AtMostOnce (execute_run hexec) hrest).mpr ⟨rfl, _, hretained, rfl, rfl⟩
  rw [hloaded] at h
  cases h

end AtomMqtt
