import AtomMqtt.PacketTraces
import AtomMqtt.Routing
import AtomMqtt.TaskSpec

set_option autoImplicit false

/-! Whose will is published. The wills are stored by client id alone. While a disconnection of the client waits
for the router, the stored will is that of the first connection to be dismissed, and the others have none. -/
namespace AtomMqtt
open Programs

/-- The CONNECT that a connection has read from its TCP stream, the will that this announced when the client
    was registered, and whether a DISCONNECT has cancelled it since. -/
structure Testament where
  connect : Option ConnectFields
  announced : Option WillMessage
  cancelled : Bool

namespace Testament

def start : Testament := { connect := none, announced := none, cancelled := false }

def next (t : Testament) : (a : Action) → Reply a → Testament
  | .read, received => { t with connect := connectRead received }
  | .sessionsInsert clientId _, _ =>
    { t with
      announced := (t.connect.bind fun c => c.will).map fun will => { will with clientId }
      cancelled := false }
  | .willsRemove _, _ => { t with cancelled := true }
  | _, _ => t

/-- The will that the broker is to publish for the connection. -/
def due (t : Testament) : Option WillMessage := if t.cancelled then none else t.announced

end Testament

def testamentObserver : Observer ThreadId Action Reply Control Testament where
  monitor := fun _ => { allows := fun _ _ => True, next := Testament.next }
  begin := fun _ _ => Testament.start

def testaments (evs : List BrokerEvent) : ThreadId → Testament :=
  testamentObserver.ghosts (fun _ => Testament.start) evs

/-- The connection that has registered the client last in this life of the broker. -/
def current (clientId : String) (evs : List BrokerEvent) : Option ThreadId :=
  evs.foldl (fun last e =>
    match e with
    | .act i (.sessionsInsert clientId' _) _ => if clientId' = clientId then some i else last
    | .world .restart => none
    | _ => last) none

def hasEnded : Thread Action Reply Control → Bool
  | .running (.ret (.exited _)) | .dead => true
  | _ => false

/-- A client registers over TCP, and only when its last connection has ended. -/
def apart (clientId : String) (evs : List BrokerEvent) (cfg : BrokerConfigState) : BrokerEvent → Bool
  | .act i (.sessionsInsert clientId' _) _ =>
    clientId' != clientId ||
      ((testaments evs i).connect.isSome && (current clientId evs).all fun j => hasEnded (cfg.thread j))
  | _ => true

def dismissal (clientId : String) : ThreadId × BrokerMessage → Option ThreadId
  | (sender, .ClientDisconnected clientId' _) => if clientId' = clientId then some sender else none
  | _ => none

/-- The connections of the client whose disconnection is still to take a will out of the map. -/
def dismissals (clientId : String) (evs : List BrokerEvent) (node : Node) (owes : ThreadId → List Action) :
    List ThreadId :=
  (if .willsRemove clientId ∈ owes (.router node.life) then (duties evs (.router node.life)).note.message.toList
    else []).filterMap (dismissal clientId) ++ node.shared.queue.filterMap (dismissal clientId)

/-- A connection stores its will or takes it back only when no disconnection of the client is on the way, and
    one that has none leaves only when no will is stored that nobody else is to take. -/
def undisturbed (clientId : String) (evs : List BrokerEvent) (cfg : BrokerConfigState) : BrokerEvent → Bool
  | .act _ (.willsInsert clientId' _) _ =>
    clientId' != clientId || (dismissals clientId evs cfg.shared (owed evs cfg)).isEmpty
  | .act (.connection _) (.willsRemove clientId') _ =>
    clientId' != clientId || (dismissals clientId evs cfg.shared (owed evs cfg)).isEmpty ||
      (cfg.shared.shared.broker.wills.lookup clientId).isNone
  | .act i (.sendRouter (.ClientDisconnected clientId' _)) _ =>
    clientId' != clientId || (testaments evs i).due.isSome ||
      !(dismissals clientId evs cfg.shared (owed evs cfg)).isEmpty ||
      (cfg.shared.shared.broker.wills.lookup clientId).isNone
  | _ => true

/-- The messages by which a will reaches the subscribers, and the retained map if it says so. -/
def willPublication (clientId : String) (will : WillMessage) (subscribers : List Subscription) : List Action :=
  forwardAll (publishPacket will.topic will.payload will.retain)
    (.Will will.topic will.payload will.qos.toU8 clientId) subscribers ++ retains will.retain will.retained

/-- What the router hands on for the disconnection of a connection: this will, or nothing. -/
def HandsOn (clientId : String) (due : Option WillMessage) (owes : List Action) (w : Work) : Prop :=
  match due with
  | none => w.published = []
  | some will =>
    (w.published = [] ∧ owes ≠ []) ∨
      ∃ subscribers, w.looked = some (will.topic, subscribers) ∧
        w.published ++ owes.filter Action.publishes = willPublication clientId will subscribers

def MqttPacket.cancelsWill : MqttPacket → Bool
  | .V311 .Disconnect => true
  | .V5 (.Disconnect p) => p.reasonCode != .DisconnectWithWillMessage
  | _ => false

section
variable {clientId : String} {evs : List BrokerEvent}

theorem current_snoc (e : BrokerEvent) : current clientId (evs ++ [e]) =
    match e with
    | .act i (.sessionsInsert clientId' _) _ => if clientId' = clientId then some i else current clientId evs
    | .world .restart => none
    | _ => current clientId evs := by
  rw [current, List.foldl_append]
  rfl

theorem current_act {i : ThreadId} {a : Action} {r : Reply a} (h : ∀ session, a ≠ .sessionsInsert clientId session) :
    current clientId (evs ++ [.act i a r]) = current clientId evs := by
  rw [current_snoc]
  cases a with
  | sessionsInsert clientId' session =>
    have hne : clientId' ≠ clientId := by
      intro heq
      exact h session (heq ▸ rfl)
    exact if_neg hne
  | _ => rfl

end

section
variable {settings : Settings} {P : List BrokerEvent → BrokerConfigState → BrokerEvent → BrokerConfigState → Prop}
  {evs : List BrokerEvent} {cfg cfg' : BrokerConfigState} {i : ThreadId} {a : Action} {r : Reply a}

theorem allows_of_step (hrun : (brokerSystem settings).RunWhere P initial evs cfg)
    (hstep : (brokerSystem settings).Step cfg (.act i a r) cfg') : allows settings i (phases settings evs i) a := by
  cases hstep with
  | act hrunning hnext _ => exact (covers settings).allows (fun _ => rfl) hrun hrunning hnext

theorem over_of_step (hstep : (brokerSystem settings).Step cfg (.act i a r) cfg') :
    hasEnded (cfg.thread i) = false ∨ (a = .dropReceiver ∧ hasEnded (cfg'.thread i) = true) := by
  cases hstep with
  | @act _ p _ k _ _ _ hrunning hnext _ =>
    rw [hrunning]
    cases p with
    | act o k => exact .inl rfl
    | ret c =>
      cases c with
      | exited ok =>
        cases hnext
        refine .inr ⟨rfl, ?_⟩
        simp only [Function.update_self]
        rfl
      | _ => exact .inl rfl

theorem phases_act (i : ThreadId) (a : Action) (r : Reply a) :
    phases settings (evs ++ [.act i a r]) = Function.update (phases settings evs) i ((phases settings evs i).next a r) :=
  Observer.ghosts_act i a r

theorem current_of_session_act {clientId : String} (run : (brokerSystem settings).RunWhere P initial evs cfg) {i : ThreadId}
    {a : Action} {r : Reply a} (step : (brokerSystem settings).Step cfg (.act i a r) cfg')
    (hapart : apart clientId evs cfg (.act i a r) = true) {j : ThreadId} {session : SessionState}
    (hcurrent : (phases settings evs j).session = some session → hasEnded (cfg.thread j) = false →
      current clientId evs = some j)
    (hsession : (phases settings (evs ++ [.act i a r]) j).session = some session) (hclient : session.clientId = clientId)
    (hover : hasEnded (cfg'.thread j) = false) : current clientId (evs ++ [.act i a r]) = some j := by
  have hallows := allows_of_step run step
  rw [phases_act] at hsession
  by_cases hj : j = i
  · subst hj
    rw [Function.update_self] at hsession
    cases session_next (phases settings evs j) a r with
    | inl hsame =>
      rw [hsame] at hsession
      have hgoing := (over_of_step step).resolve_right fun h => Bool.false_ne_true (hover.symm.trans h.2)
      rw [current_act, hcurrent hsession hgoing]
      rintro session' rfl
      rw [(sessionsInsert_connection hallows).1] at hsession
      cases hsession
    | inr hinsert =>
      obtain ⟨clientId', session', rfl, hnew⟩ := hinsert
      rw [hnew] at hsession
      cases hsession
      rw [current_snoc]
      exact if_pos ((sessionsInsert_connection hallows).2.1.symm.trans hclient)
  · rw [Function.update_of_ne hj] at hsession
    have hgoing : hasEnded (cfg.thread j) = false := by
      cases step with
      | act _ _ _ => simpa only [Function.update_of_ne hj] using hover
    have hnow := hcurrent hsession hgoing
    rw [current_act, hnow]
    rintro session' rfl
    simp only [apart, bne_self_eq_false, Bool.false_or, Bool.and_eq_true, hnow, Option.all_some] at hapart
    rw [hgoing] at hapart
    cases hapart.2

/-- Of the connections that have registered the client only the last may not have ended. -/
theorem current_of_session {clientId : String} (hapart : ∀ {evs cfg e cfg'}, P evs cfg e cfg' → apart clientId evs cfg e = true)
    (hrun : (brokerSystem settings).RunWhere P initial evs cfg) {j : ThreadId} {session : SessionState}
    (hsession : (phases settings evs j).session = some session) (hclient : session.clientId = clientId)
    (hover : hasEnded (cfg.thread j) = false) : current clientId evs = some j := by
  induction hrun with
  | nil => cases hsession
  | @snoc evs cfg cfg' e run step ok ih =>
    have hstep := step
    cases step with
    | @spawn i c hfresh hstart =>
      have hphases : phases settings (evs ++ [.spawn i c]) = phases settings evs :=
        Observer.ghosts_spawn (fun _ _ => rfl) run hfresh
      rw [hphases] at hsession
      rw [current_snoc]
      apply ih hsession
      by_cases hj : j = i
      · subst hj
        rw [hfresh]
        rfl
      · simpa only [Function.update_of_ne hj] using hover
    | act _ _ _ => exact current_of_session_act run hstep (hapart ok) ih hsession hclient hover
    | @world w node ends hworld =>
      have hphases : phases settings (evs ++ [.world w]) = phases settings evs := Observer.ghosts_world w
      rw [hphases] at hsession
      cases w with
      | commit n =>
        cases hworld
        rw [current_snoc]
        exact ih hsession hover
      | restart =>
        obtain ⟨rfl, rfl⟩ := restart_of_world hworld
        cases ht : cfg.thread j with
        | fresh =>
          have hstart : phases settings evs j = Phase.start := Observer.ghosts_of_fresh run ht
          rw [hstart] at hsession
          cases hsession
        | running p => simp [ht, Thread.ended, hasEnded] at hover
        | dead => simp [ht, Thread.ended, hasEnded] at hover

end

/-- What a step makes of those who wait for the router. -/
def dismissalsAfter (clientId : String) (line : List ThreadId) (i : ThreadId) : Action → List ThreadId
  | .sendRouter message => line ++ (dismissal clientId (i, message)).toList
  | .willsRemove clientId' => if i.isRouter && clientId' == clientId then line.tail else line
  | _ => line

section
variable {clientId : String} {evs : List BrokerEvent} {node node' : Node} {owes : ThreadId → List Action} {i : ThreadId}
  {n : Note} {a : Action} {r : Reply a} {input : Input} {owes' : List Action} {w : Work}

theorem router_asks (h : Routing n (.willsRemove clientId :: owes') w) : (∀ b ∈ owes', b.plain = true) ∧
    ∃ sender cleanSession, n.message = some (sender, .ClientDisconnected clientId cleanSession) := by
  have hnot : ¬ ∀ b ∈ Action.willsRemove clientId :: owes', b.plain = true := by
    intro hplain
    cases hplain _ List.mem_cons_self
  cases h with
  | asking hmessage howes hplain _ _ =>
    cases howes
    exact ⟨hplain, _, _, hmessage⟩
  | looking _ howes _ _ _ => cases howes
  | sending _ _ hplain _ => exact absurd hplain hnot
  | silent _ hplain _ _ => exact absurd hplain hnot

theorem willsRemove_follows {life : ℕ} (hrecv : a ≠ .recvRouter) : .willsRemove clientId ∉ follows (.router life) n a r := by
  intro hmem
  cases a with
  | recvRouter => exact hrecv rfl
  | lookup topic =>
    obtain ⟨_, _, h⟩ | ⟨_, _, h⟩ := mem_forwards hmem
    · cases h
    · cases h
  | willsRemove clientId' =>
    cases r with
    | none => cases hmem
    | some sent => cases hretain : sent.2.retain <;> simp [follows, routerFollows, retains, hretain] at hmem
  | _ => cases hmem

theorem router_idle (clientId : String) {life : ℕ} (hacts : Acts (.router life) n (owes (.router life)) a r owes')
    (hsend : ∀ message, a ≠ .sendRouter message) (hrecv : a ≠ .recvRouter) (hwill : ∀ clientId, a ≠ .willsRemove clientId)
    (queue : List (ThreadId × BrokerMessage)) : a.onQueue (.router life) queue = queue ∧
      (n.next a r).message = n.message ∧ (.willsRemove clientId ∈ owes' ↔ .willsRemove clientId ∈ owes (.router life)) := by
  refine ⟨?_, ?_, ?_⟩
  · cases a <;> first | rfl | exact absurd rfl (hsend _) | exact absurd rfl hrecv
  · cases a <;> first | rfl | exact absurd rfl hrecv
  · refine hacts.mem_iff (p := fun b => ∃ clientId, b = .willsRemove clientId) ?_ ?_ ⟨clientId, rfl⟩
    · intro b hb hp
      obtain ⟨clientId', rfl⟩ := hp
      exact willsRemove_follows hrecv hb
    · intro hp
      obtain ⟨clientId', rfl⟩ := hp
      exact hwill clientId' rfl

theorem recvRouter_owes {life : ℕ} (sent : ThreadId × BrokerMessage) : .willsRemove clientId ∈
    follows (.router life) (n.next .recvRouter sent) .recvRouter sent ↔ (dismissal clientId sent).isSome = true := by
  obtain ⟨sender, message⟩ := sent
  cases message with
  | Publish topic payload qos retain sourceClient =>
    cases retain <;> simp [follows, routerFollows, retains, dismissal]
  | ClientDisconnected clientId' cleanSession =>
    by_cases hclient : clientId' = clientId
    · cases cleanSession <;> simp [follows, routerFollows, dismissal, hclient]
    · cases cleanSession <;> simp [follows, routerFollows, dismissal, hclient, Ne.symm hclient]

theorem dismissals_router {life : ℕ} (hlife : life = node.life)
    (hacts : Acts (.router life) (duties evs (.router life)).note (owes (.router life)) a r owes')
    (hrouting : Routing (duties evs (.router life)).note (owes (.router life)) w)
    (hperform : node.perform (.router life) a input = some (node', r)) :
    dismissals clientId (evs ++ [.act (.router life) a r]) node' (Function.update owes (.router life) owes') =
      dismissalsAfter clientId (dismissals clientId evs node owes) (.router life) a := by
  subst hlife
  obtain ⟨hperformed, -, hlife⟩ := node_performed hperform
  have hnote : (duties (evs ++ [.act (.router node.life) a r]) (.router node.life)).note =
      (duties evs (.router node.life)).note.next a r := by
    rw [duties_act, Function.update_self]
    rfl
  simp only [dismissals, hlife, Function.update_self, hnote, hperformed.queue]
  cases a with
  | recvRouter =>
    obtain ⟨howes, -, howes'⟩ := hacts.begun rfl (by exact id)
    rw [howes, howes', if_neg List.not_mem_nil, List.filterMap_nil, List.nil_append, recvRouter_reply hperform]
    simp only [recvRouter_owes]
    cases hsent : dismissal clientId r with
    | none => simp [hsent, Action.onQueue, dismissalsAfter]
    | some k => simp [hsent, Note.next, Action.onQueue, dismissalsAfter]
  | willsRemove clientId' =>
    obtain ⟨rest, howes, howes'⟩ := hacts.owed rfl trivial
    rw [howes] at hrouting
    obtain ⟨hplain, sender, cleanSession, hmessage⟩ := router_asks hrouting
    have hrest : Action.willsRemove clientId ∉ rest := by
      intro hmem
      cases hplain _ hmem
    have hnot : Action.willsRemove clientId ∉ owes' := by
      rw [howes', List.mem_append, not_or]
      exact ⟨willsRemove_follows (by simp), hrest⟩
    rw [if_neg hnot, howes, hmessage]
    simp only [List.filterMap_nil, List.nil_append, Action.onQueue, dismissalsAfter, ThreadId.isRouter, Bool.true_and,
      beq_iff_eq, List.mem_cons, hrest, or_false, Action.willsRemove.injEq, Option.toList_some]
    by_cases hclient : clientId = clientId'
    · subst hclient
      simp [dismissal]
    · simp [hclient, Ne.symm hclient]
  | sendRouter message => exact (hacts.never rfl id id).elim
  | _ =>
    obtain ⟨hqueue, hmessage, hmem⟩ := router_idle clientId hacts (by simp) (by simp) (by simp) node.shared.queue
    simp only [hqueue, hmessage, hmem]
    rfl

theorem dismissals_act (hlife : ∀ life, i = .router life → life = node.life)
    (hacts : Acts i (duties evs i).note (owes i) a r owes')
    (hrouting : Routing (duties evs (.router node.life)).note (owes (.router node.life)) w)
    (hperform : node.perform i a input = some (node', r)) :
    dismissals clientId (evs ++ [.act i a r]) node' (Function.update owes i owes') =
      dismissalsAfter clientId (dismissals clientId evs node owes) i a := by
  by_cases hi : .router node.life = i
  · subst hi
    exact dismissals_router rfl hacts hrouting hperform
  · obtain ⟨hperformed, -, hsame⟩ := node_performed hperform
    have hnot : i.isRouter = false := by
      cases i with
      | router life => exact absurd (by rw [hlife life rfl]) hi
      | _ => rfl
    simp only [dismissals, hsame, duties_act, Function.update_of_ne hi, hperformed.queue]
    cases a with
    | sendRouter message =>
      have hlast : [(i, message)].filterMap (dismissal clientId) = (dismissal clientId (i, message)).toList := by
        cases hsent : dismissal clientId (i, message) <;> simp [hsent]
      rw [Action.onQueue, List.filterMap_append, hlast, ← List.append_assoc]
      rfl
    | recvRouter =>
      cases i with
      | router life => cases hnot
      | _ => exact (hacts.never rfl id id).elim
    | willsRemove clientId' => simp [Action.onQueue, dismissalsAfter, hnot]
    | _ => rfl

end

/-- One slot for all who stand in a line: it holds what the first is due, and the others are due nothing. -/
structure Heads {ι V : Type} (slot : Option V) (due : ι → Option V) (line : List ι) : Prop where
  head : ∀ k, line.head? = some k → slot = due k
  later : ∀ k ∈ line.tail, due k = none

namespace Heads
variable {ι V : Type} {slot : Option V} {due due' : ι → Option V} {line : List ι}

theorem nil : Heads slot due [] where
  head := nofun
  later := nofun

theorem congr (h : Heads slot due line) (hdue : ∀ k ∈ line, due' k = due k) : Heads slot due' line where
  head := by
    intro k hk
    rw [hdue k (List.mem_of_mem_head? hk)]
    exact h.head k hk
  later := by
    intro k hk
    rw [hdue k (List.mem_of_mem_tail hk)]
    exact h.later k hk

theorem pop (h : Heads slot due line) : Heads none due line.tail where
  head := fun k hk => (h.later k (List.mem_of_mem_head? hk)).symm
  later := fun k hk => h.later k (List.mem_of_mem_tail hk)

theorem snoc (h : Heads slot due line) {k : ι} (hempty : line = [] → slot = due k) (hrest : line ≠ [] → due k = none) :
    Heads slot due (line ++ [k]) := by
  cases line with
  | nil =>
    refine ⟨?_, nofun⟩
    intro j hj
    cases hj
    exact hempty rfl
  | cons first rest =>
    refine ⟨h.head, ?_⟩
    intro j hj
    cases List.mem_append.mp hj with
    | inl hold => exact h.later j hold
    | inr hlast =>
      rw [List.mem_singleton.mp hlast]
      exact hrest nofun

end Heads

def Gone (settings : Settings) (evs : List BrokerEvent) (sender : ThreadId) : Prop :=
  (∃ k, sender = .connection k) ∧ ((phases settings evs sender).session.isSome = true ∧ (phases settings evs sender).left = true)

structure WillLine (settings : Settings) (clientId : String) (evs : List BrokerEvent) (node : Node)
    (owes : ThreadId → List Action) : Prop where
  gone : ∀ sent ∈ (duties evs (.router node.life)).note.message.toList ++ node.shared.queue, ∀ k,
    dismissal clientId sent = some k → Gone settings evs k
  line : Heads ((node.shared.broker.wills.lookup clientId).map Prod.snd) (fun k => (testaments evs k).due)
    (dismissals clientId evs node owes)
  /-- What the connected client is due is in the map, and nobody is before it. -/
  stored : ∀ k will, current clientId evs = some k → (phases settings evs k).left = false →
    (∀ will', .willsInsert clientId will' ∉ owes k) → (testaments evs k).due = some will →
    dismissals clientId evs node owes = [] ∧ (node.shared.broker.wills.lookup clientId).map Prod.snd = some will
  promised : ∀ k will, .willsInsert clientId will ∈ owes k → (testaments evs k).due = some will
  taken : ∀ k, (duties evs (.router node.life)).note.message.bind (dismissal clientId) = some k →
    .willsRemove clientId ∉ owes (.router node.life) →
    (duties evs (.router node.life)).note.taken.map Prod.snd = (testaments evs k).due

section
variable {settings : Settings} {clientId : String} {evs : List BrokerEvent} {node node' : Node}
  {owes : ThreadId → List Action} {i : ThreadId} {a : Action} {r : Reply a} {input : Input} {owes' : List Action}

theorem WillLine.skip (h : WillLine settings clientId evs node owes) {evs' : List BrokerEvent}
    (hphases : phases settings evs' = phases settings evs) (htestaments : testaments evs' = testaments evs)
    (hduties : duties evs' = duties evs) (hcurrent : current clientId evs' = current clientId evs)
    (hlife : node'.life = node.life) (hqueue : node'.shared.queue = node.shared.queue)
    (hwills : node'.shared.broker.wills = node.shared.broker.wills) : WillLine settings clientId evs' node' owes := by
  have hdismissals : dismissals clientId evs' node' owes = dismissals clientId evs node owes := by
    rw [dismissals, dismissals, hduties, hlife, hqueue]
  constructor
  · rw [hduties, hlife, hqueue]
    simp only [Gone, hphases]
    exact h.gone
  · rw [hwills, htestaments, hdismissals]
    exact h.line
  · rw [hcurrent, hphases, htestaments, hdismissals, hwills]
    exact h.stored
  · rw [htestaments]
    exact h.promised
  · rw [hduties, htestaments, hlife]
    exact h.taken

theorem testaments_act (i : ThreadId) (a : Action) (r : Reply a) :
    testaments (evs ++ [.act i a r]) = Function.update (testaments evs) i ((testaments evs i).next a r) :=
  Observer.ghosts_act i a r

theorem due_next (t : Testament) (a : Action) (r : Reply a) : (t.next a r).due = t.due ∨
    (∃ clientId session, a = .sessionsInsert clientId session) ∨ ∃ clientId, a = .willsRemove clientId := by
  cases a with
  | sessionsInsert clientId session => exact .inr (.inl ⟨clientId, session, rfl⟩)
  | willsRemove clientId => exact .inr (.inr ⟨clientId, rfl⟩)
  | _ => exact .inl rfl

theorem connect_noted (j : ThreadId) : (testaments evs j).connect = (duties evs j).note.connect := by
  induction evs using List.reverseRecOn with
  | nil => rfl
  | append_singleton evs e ih =>
    rw [testaments, duties, Observer.ghosts_snoc, Observer.ghosts_snoc]
    cases e with
    | spawn i c =>
      by_cases hj : j = i
      · subst hj
        simp only [Observer.step, Function.update_self]
        rfl
      · simp only [Observer.step, Function.update_of_ne hj]
        exact ih
    | act i a r =>
      by_cases hj : j = i
      · subst hj
        simp only [Observer.step, Function.update_self]
        cases a <;> first | rfl | exact ih
      · simp only [Observer.step, Function.update_of_ne hj]
        exact ih
    | world w => exact ih

theorem Gone.act {k : ThreadId} (h : Gone settings evs k) : Gone settings (evs ++ [.act i a r]) k := by
  obtain ⟨hk, hsession, hleft⟩ := h
  refine ⟨hk, ?_⟩
  rw [phases_act]
  by_cases hi : k = i
  · subst hi
    rw [Function.update_self]
    constructor
    · cases session_next (phases settings evs k) a r with
      | inl hsame => rwa [hsame]
      | inr hinsert =>
        obtain ⟨_, _, _, hnew⟩ := hinsert
        rw [hnew]
        rfl
    · cases left_next (phases settings evs k) a r with
      | inl hsame => rwa [hsame]
      | inr hleave =>
        obtain ⟨_, _, rfl⟩ := hleave
        rfl
  · rw [Function.update_of_ne hi]
    exact ⟨hsession, hleft⟩

theorem Gone.due {k : ThreadId} (h : Gone settings evs k) (hallows : allows settings i (phases settings evs i) a) :
    (testaments (evs ++ [.act i a r]) k).due = (testaments evs k).due := by
  obtain ⟨⟨c, rfl⟩, hsession, hleft⟩ := h
  rw [testaments_act]
  by_cases hi : .connection c = i
  · subst hi
    rw [Function.update_self]
    obtain hsame | ⟨clientId', session, rfl⟩ | ⟨clientId', rfl⟩ := due_next (testaments evs (.connection c)) a r
    · exact hsame
    · rw [hallows.1] at hsession
      cases hsession
    · obtain ⟨session, howns, _⟩ := hallows
      rw [howns.2] at hleft
      cases hleft
  · rw [Function.update_of_ne hi]

theorem WillLine.gone_of_mem (h : WillLine settings clientId evs node owes) {k : ThreadId}
    (hk : k ∈ dismissals clientId evs node owes) : Gone settings evs k := by
  rw [dismissals, ← List.filterMap_append, List.mem_filterMap] at hk
  obtain ⟨sent, hsent, hdismissal⟩ := hk
  apply h.gone sent _ k hdismissal
  rw [List.mem_append] at hsent ⊢
  refine hsent.imp_left ?_
  intro hmem
  split_ifs at hmem
  · exact hmem
  · cases hmem

end

section
variable {settings : Settings} {clientId : String} {evs : List BrokerEvent} {cfg cfg' : BrokerConfigState}
  {i : ThreadId} {a : Action} {r : Reply a} {input : Input} {owes' : List Action}

theorem acts_for {k : ConnId} {clientId' : String} (hallows : ∃ session, (phases settings evs (.connection k)).Owns session ∧
      session.clientId = clientId')
    (hcurrent : ∀ session, (phases settings evs i).session = some session → session.clientId = clientId →
      current clientId evs = some i) (hi : i = .connection k) (hclient : clientId' = clientId) :
    current clientId evs = some i ∧ (phases settings evs i).left = false := by
  subst hi hclient
  obtain ⟨session, howns, hclient⟩ := hallows
  exact ⟨hcurrent session howns.1 hclient, howns.2⟩

theorem sent_before (hperform : cfg.shared.perform i a input = some (cfg'.shared, r)) :
    ∀ sent ∈ (duties (evs ++ [.act i a r]) (.router cfg'.shared.life)).note.message.toList ++ cfg'.shared.shared.queue,
      sent ∈ (duties evs (.router cfg.shared.life)).note.message.toList ++ cfg.shared.shared.queue ∨
        ∃ message, a = .sendRouter message ∧ sent = (i, message) := by
  obtain ⟨hperformed, -, hsame⟩ := node_performed hperform
  intro sent hsent
  rw [hsame, duties_act, hperformed.queue] at hsent
  have hqueued : sent ∈ a.onQueue i cfg.shared.shared.queue → sent ∈ cfg.shared.shared.queue ∨
      ∃ message, a = .sendRouter message ∧ sent = (i, message) := by
    intro hmem
    cases a with
    | sendRouter message =>
      cases List.mem_append.mp hmem with
      | inl hold => exact .inl hold
      | inr hnew => exact .inr ⟨message, rfl, List.mem_singleton.mp hnew⟩
    | recvRouter => exact .inl (List.mem_of_mem_tail hmem)
    | _ => exact .inl hmem
  rw [List.mem_append] at hsent ⊢
  cases hsent with
  | inr hmem => exact (hqueued hmem).imp_left .inr
  | inl hmem =>
    by_cases hi : .router cfg.shared.life = i
    · subst hi
      rw [Function.update_self] at hmem
      cases a with
      | recvRouter =>
        rw [recvRouter_reply hperform]
        obtain rfl : sent = r := by simpa [Agenda.next, agenda, Note.next] using hmem
        exact .inl (.inr List.mem_cons_self)
      | _ => exact .inl (.inl hmem)
    · rw [Function.update_of_ne hi] at hmem
      exact .inl (.inl hmem)

theorem gone_of_leave {clientId' : String} {cleanSession : Bool} {r : Unit}
    (hallows : allows settings i (phases settings evs i) (.sendRouter (.ClientDisconnected clientId' cleanSession))) :
    Gone settings (evs ++ [.act i (.sendRouter (.ClientDisconnected clientId' cleanSession)) r]) i := by
  cases i with
  | connection k =>
    obtain ⟨session, howns, -, -⟩ := hallows
    refine ⟨⟨k, rfl⟩, ?_⟩
    rw [phases_act, Function.update_self]
    have hsession : ((phases settings evs (.connection k)).next (.sendRouter (.ClientDisconnected clientId' cleanSession))
        r).session = some session := howns.1
    rw [hsession]
    exact ⟨rfl, rfl⟩
  | _ => exact hallows.elim

theorem WillLine.gone_act (h : WillLine settings clientId evs cfg.shared (owed evs cfg))
    (hallows : allows settings i (phases settings evs i) a)
    (hperform : cfg.shared.perform i a input = some (cfg'.shared, r)) :
    ∀ sent ∈ (duties (evs ++ [.act i a r]) (.router cfg'.shared.life)).note.message.toList ++ cfg'.shared.shared.queue,
      ∀ k, dismissal clientId sent = some k → Gone settings (evs ++ [.act i a r]) k := by
  intro sent hsent k hk
  cases sent_before hperform sent hsent with
  | inl hold => exact (h.gone sent hold k hk).act
  | inr hnew =>
    obtain ⟨message, rfl, rfl⟩ := hnew
    cases message with
    | Publish topic payload qos retain sourceClient => cases hk
    | ClientDisconnected clientId' cleanSession =>
      simp only [dismissal] at hk
      split_ifs at hk
      cases hk
      exact gone_of_leave hallows

theorem WillLine.due_of_acts (h : WillLine settings clientId evs cfg.shared (owed evs cfg))
    (hcurrent : current clientId evs = some i ∧ (phases settings evs i).left = false) (howes : owed evs cfg i = []) :
    (testaments evs i).due = none ∨ ∃ will, (testaments evs i).due = some will ∧
      dismissals clientId evs cfg.shared (owed evs cfg) = [] ∧
      (cfg.shared.shared.broker.wills.lookup clientId).map Prod.snd = some will := by
  cases hdue : (testaments evs i).due with
  | none => exact .inl rfl
  | some will =>
    have hnone : ∀ will', Action.willsInsert clientId will' ∉ owed evs cfg i := by
      rw [howes]
      exact fun _ => List.not_mem_nil
    exact .inr ⟨will, rfl, h.stored i will hcurrent.1 hcurrent.2 hnone hdue⟩

section
variable (h : WillLine settings clientId evs cfg.shared (owed evs cfg))
  (hallows : allows settings i (phases settings evs i) a)
  (hundisturbed : undisturbed clientId evs cfg (.act i a r) = true)
  (hperform : cfg.shared.perform i a input = some (cfg'.shared, r))
include h hallows

theorem WillLine.line_before : Heads ((cfg.shared.shared.broker.wills.lookup clientId).map Prod.snd)
    (fun k => (testaments (evs ++ [.act i a r]) k).due) (dismissals clientId evs cfg.shared (owed evs cfg)) :=
  h.line.congr fun _ hk => (h.gone_of_mem hk).due hallows

include hperform

theorem WillLine.line_same
    (hlookup : (a.onWills i cfg.shared.shared.broker.wills).lookup clientId = cfg.shared.shared.broker.wills.lookup clientId)
    (hafter : dismissalsAfter clientId (dismissals clientId evs cfg.shared (owed evs cfg)) i a =
      dismissals clientId evs cfg.shared (owed evs cfg)) :
    Heads ((cfg'.shared.shared.broker.wills.lookup clientId).map Prod.snd)
      (fun k => (testaments (evs ++ [.act i a r]) k).due)
      (dismissalsAfter clientId (dismissals clientId evs cfg.shared (owed evs cfg)) i a) := by
  rw [(node_perform_effect hperform).1.wills, hlookup, hafter]
  exact h.line_before hallows

include hundisturbed

theorem WillLine.line_removes (ha : a = .willsRemove clientId) :
    Heads ((cfg'.shared.shared.broker.wills.lookup clientId).map Prod.snd)
      (fun k => (testaments (evs ++ [.act i a r]) k).due)
      (dismissalsAfter clientId (dismissals clientId evs cfg.shared (owed evs cfg)) i a) := by
  have hline := h.line_before (r := r) hallows
  have hwills := (node_perform_effect hperform).1.wills
  subst ha
  rw [hwills, Action.onWills, DashMap.lookup_erase, if_pos rfl]
  cases i with
  | router life =>
    rw [dismissalsAfter, if_pos (by simp [ThreadId.isRouter])]
    exact hline.pop
  | connection k =>
    simp only [undisturbed, bne_self_eq_false, Bool.false_or, Bool.or_eq_true, List.isEmpty_iff,
      Option.isNone_iff_eq_none] at hundisturbed
    cases hundisturbed with
    | inl hempty =>
      rw [dismissalsAfter, hempty]
      exact .nil
    | inr hnone =>
      rw [hnone] at hline
      exact hline
  | _ => exact hallows.elim

theorem WillLine.line_leaves {cleanSession : Bool} (ha : a = .sendRouter (.ClientDisconnected clientId cleanSession))
    (hacts : Acts i (duties evs i).note (owed evs cfg i) a r owes')
    (hcurrent : ∀ session, (phases settings evs i).session = some session → session.clientId = clientId →
      current clientId evs = some i) :
    Heads ((cfg'.shared.shared.broker.wills.lookup clientId).map Prod.snd)
      (fun k => (testaments (evs ++ [.act i a r]) k).due)
      (dismissalsAfter clientId (dismissals clientId evs cfg.shared (owed evs cfg)) i a) := by
  have hline := h.line_before (r := r) hallows
  have hwills := (node_perform_effect hperform).1.wills
  subst ha
  cases i with
  | connection k =>
    obtain ⟨session, howns, hclient, -⟩ := hallows
    have howes := (hacts.begun rfl (by exact id)).1
    have hdue := h.due_of_acts ⟨hcurrent session howns.1 hclient, howns.2⟩ howes
    have hsent : (testaments (evs ++ [.act (.connection k) (.sendRouter (.ClientDisconnected clientId cleanSession)) r])
        (.connection k)).due = (testaments evs (.connection k)).due := by
      rw [testaments_act, Function.update_self]
      rfl
    rw [hwills, dismissalsAfter, dismissal, if_pos rfl]
    refine hline.snoc ?_ ?_
    · intro hempty
      rw [hsent]
      obtain hnone | ⟨will, hwill, -, hstored⟩ := hdue
      · simp only [undisturbed, hnone, hempty, bne_self_eq_false, Option.isSome_none, List.isEmpty_nil, Bool.not_true,
          Bool.false_or, Option.isNone_iff_eq_none] at hundisturbed
        rw [hnone]
        rw [hundisturbed]
        rfl
      · rw [hwill]
        exact hstored
    · intro hrest
      rw [hsent]
      obtain hnone | ⟨will, -, hempty, -⟩ := hdue
      · exact hnone
      · exact absurd hempty hrest
  | _ => exact hallows.elim

theorem WillLine.line_act (hacts : Acts i (duties evs i).note (owed evs cfg i) a r owes')
    (hcurrent : ∀ session, (phases settings evs i).session = some session → session.clientId = clientId →
      current clientId evs = some i) :
    Heads ((cfg'.shared.shared.broker.wills.lookup clientId).map Prod.snd)
      (fun k => (testaments (evs ++ [.act i a r]) k).due)
      (dismissalsAfter clientId (dismissals clientId evs cfg.shared (owed evs cfg)) i a) := by
  cases a with
  | willsInsert clientId' will =>
    by_cases hclient : clientId' = clientId
    · subst hclient
      simp only [undisturbed, bne_self_eq_false, Bool.false_or, List.isEmpty_iff] at hundisturbed
      change Heads _ _ (dismissals clientId' evs cfg.shared (owed evs cfg))
      rw [hundisturbed]
      exact .nil
    · refine h.line_same hallows hperform ?_ rfl
      rw [Action.onWills, DashMap.lookup_insert, if_neg hclient]
  | willsRemove clientId' =>
    by_cases hclient : clientId' = clientId
    · subst hclient
      exact h.line_removes hallows hundisturbed hperform rfl
    · apply h.line_same hallows hperform
      · rw [Action.onWills, DashMap.lookup_erase, if_neg hclient]
      · rw [dismissalsAfter, if_neg (by simp [hclient])]
  | sendRouter message =>
    cases message with
    | Publish topic payload qos retain sourceClient => exact h.line_same hallows hperform rfl (List.append_nil _)
    | ClientDisconnected clientId' cleanSession =>
      by_cases hclient : clientId' = clientId
      · subst hclient
        exact h.line_leaves hallows hundisturbed hperform rfl hacts hcurrent
      · refine h.line_same hallows hperform rfl ?_
        rw [dismissalsAfter, dismissal, if_neg hclient]
        exact List.append_nil _
  | _ => exact h.line_same hallows hperform rfl rfl

end

theorem due_same {k : ThreadId} (h : ((testaments evs i).next a r).due = (testaments evs i).due) :
    (Function.update (testaments evs) i ((testaments evs i).next a r) k).due = (testaments evs k).due := by
  by_cases hk : k = i
  · subst hk
    rwa [Function.update_self]
  · rw [Function.update_of_ne hk]

theorem kept_stored (h : WillLine settings clientId evs cfg.shared (owed evs cfg))
    (hacts : Acts i (duties evs i).note (owed evs cfg i) a r owes') (ha : ∀ will, a ≠ .willsInsert clientId will)
    {k : ThreadId} {will : WillMessage} (hcurrent : current clientId evs = some k)
    (hleft : (phases settings evs k).left = false)
    (hnone : ∀ will', .willsInsert clientId will' ∉ Function.update (owed evs cfg) i owes' k)
    (hdue : (testaments evs k).due = some will) : dismissals clientId evs cfg.shared (owed evs cfg) = [] ∧
      (cfg.shared.shared.broker.wills.lookup clientId).map Prod.snd = some will := by
  refine h.stored k will hcurrent hleft ?_ hdue
  intro will' hmem
  apply hnone will'
  by_cases hi : k = i
  · subst hi
    rw [Function.update_self]
    exact hacts.kept _ hmem (ha will').symm
  · rwa [Function.update_of_ne hi]

theorem owes_will {c : ConnId} {session : SessionState} {r : Reply (.sessionsInsert clientId session)}
    (hacts : Acts (.connection c) (duties evs (.connection c)).note (owed evs cfg (.connection c))
      (.sessionsInsert clientId session) r owes') {will : WillMessage}
    (hdue : ((testaments evs (.connection c)).next (.sessionsInsert clientId session) r).due = some will) :
    .willsInsert clientId will ∈ owes' := by
  rw [(hacts.begun rfl (by exact id)).2.2]
  have hwill : (duties evs (.connection c)).note.will clientId = some will := by
    rw [Note.will, ← connect_noted]
    exact hdue
  exact List.mem_append_left _ (List.mem_map.mpr ⟨will, Option.mem_toList.mpr hwill, rfl⟩)

theorem stored_insert (h : WillLine settings clientId evs cfg.shared (owed evs cfg)) {c : ConnId} {stored : WillMessage}
    {r : Reply (.willsInsert clientId stored)}
    (hacts : Acts (.connection c) (duties evs (.connection c)).note (owed evs cfg (.connection c))
      (.willsInsert clientId stored) r owes')
    (hundisturbed : undisturbed clientId evs cfg (.act (.connection c) (.willsInsert clientId stored) r) = true)
    {will : WillMessage} (hdue : (testaments evs (.connection c)).due = some will) :
    dismissals clientId evs cfg.shared (owed evs cfg) = [] ∧ stored = will := by
  obtain ⟨rest, howes, -⟩ := hacts.owed rfl trivial
  have hpromised := h.promised (.connection c) stored (howes ▸ List.mem_cons_self)
  simp only [undisturbed, bne_self_eq_false, Bool.false_or, List.isEmpty_iff] at hundisturbed
  exact ⟨hundisturbed, Option.some.inj (hpromised.symm.trans hdue)⟩

section
variable {k : ThreadId} {will : WillMessage} (h : WillLine settings clientId evs cfg.shared (owed evs cfg))
  (hallows : allows settings i (phases settings evs i) a) (hacts : Acts i (duties evs i).note (owed evs cfg i) a r owes')
  (hcurrent : ∀ session, (phases settings evs i).session = some session → session.clientId = clientId →
    current clientId evs = some i)
  (hundisturbed : undisturbed clientId evs cfg (.act i a r) = true)
  (hperform : cfg.shared.perform i a input = some (cfg'.shared, r))
  (hleft : (phases settings (evs ++ [.act i a r]) k).left = false)
  (hnone : ∀ will', .willsInsert clientId will' ∉ Function.update (owed evs cfg) i owes' k)
  (hdue : (testaments (evs ++ [.act i a r]) k).due = some will)
include h hacts hleft hnone hdue

include hperform in
theorem WillLine.stored_same (hnow : current clientId evs = some k) (ha : ∀ will, a ≠ .willsInsert clientId will)
    (hsame : k = i → ((phases settings evs i).next a r).left = (phases settings evs i).left ∧
      ((testaments evs i).next a r).due = (testaments evs i).due)
    (hlookup : (a.onWills i cfg.shared.shared.broker.wills).lookup clientId = cfg.shared.shared.broker.wills.lookup clientId)
    (hafter : dismissalsAfter clientId (dismissals clientId evs cfg.shared (owed evs cfg)) i a =
      dismissals clientId evs cfg.shared (owed evs cfg)) :
    dismissalsAfter clientId (dismissals clientId evs cfg.shared (owed evs cfg)) i a = [] ∧
      (cfg'.shared.shared.broker.wills.lookup clientId).map Prod.snd = some will := by
  rw [(node_perform_effect hperform).1.wills, hlookup, hafter]
  rw [phases_act] at hleft
  rw [testaments_act] at hdue
  by_cases hk : k = i
  · subst hk
    rw [Function.update_self] at hleft hdue
    exact kept_stored h hacts ha hnow ((hsame rfl).1 ▸ hleft) hnone ((hsame rfl).2 ▸ hdue)
  · rw [Function.update_of_ne hk] at hleft hdue
    exact kept_stored h hacts ha hnow hleft hnone hdue

include hallows hcurrent in
/-- Who removes the will of the client is not the connected one: that one has nobody before it. -/
theorem WillLine.not_stored_removes (hnow : current clientId evs = some k) (ha : a = .willsRemove clientId)
    (hrouter : ∀ life, i = .router life → dismissals clientId evs cfg.shared (owed evs cfg) ≠ []) : False := by
  subst ha
  rw [phases_act] at hleft
  rw [testaments_act] at hdue
  have hne : k ≠ i := by
    intro hk
    subst hk
    rw [Function.update_self] at hdue
    cases hdue
  rw [Function.update_of_ne hne] at hleft hdue
  have hstored := kept_stored h hacts (by simp) hnow hleft hnone hdue
  cases i with
  | router life => exact hrouter life rfl hstored.1
  | connection c =>
    have hk := (acts_for hallows hcurrent rfl rfl).1.symm.trans hnow
    exact hne (Option.some.inj hk).symm
  | _ => exact hallows.elim

omit h hacts hnone hdue in
include hallows hcurrent in
theorem not_stored_leaves {cleanSession : Bool} (hnow : current clientId evs = some k)
    (ha : a = .sendRouter (.ClientDisconnected clientId cleanSession)) : False := by
  subst ha
  cases i with
  | connection c =>
    obtain ⟨session, howns, hclient, -⟩ := hallows
    obtain rfl := Option.some.inj ((hcurrent session howns.1 hclient).symm.trans hnow)
    rw [phases_act, Function.update_self] at hleft
    cases hleft
  | _ => exact hallows.elim

include hallows hcurrent hundisturbed hperform

theorem WillLine.stored_act
    (hregistered : ∀ k, current clientId evs = some k → (phases settings evs k).session.isSome = true)
    (hrouter : ∀ life, i = .router life → a = .willsRemove clientId →
      dismissals clientId evs cfg.shared (owed evs cfg) ≠ [])
    (hnow : current clientId (evs ++ [.act i a r]) = some k) :
    dismissalsAfter clientId (dismissals clientId evs cfg.shared (owed evs cfg)) i a = [] ∧
      (cfg'.shared.shared.broker.wills.lookup clientId).map Prod.snd = some will := by
  have hwills := (node_perform_effect hperform).1.wills
  have hsame := h.stored_same hacts hperform hleft hnone hdue
  cases a with
  | sessionsInsert clientId' session =>
    obtain ⟨hfresh, -, c, rfl⟩ := sessionsInsert_connection hallows
    rw [current_snoc] at hnow
    by_cases heq : clientId' = clientId
    · subst heq
      obtain rfl : .connection c = k := by simpa using hnow
      rw [testaments_act, Function.update_self] at hdue
      rw [Function.update_self] at hnone
      exact absurd (owes_will hacts hdue) (hnone will)
    · have hold : current clientId evs = some k := by simpa [heq] using hnow
      refine hsame hold (by simp) ?_ rfl rfl
      rintro rfl
      have hsome := hregistered _ hold
      rw [hfresh] at hsome
      cases hsome
  | willsInsert clientId' will' =>
    replace hnow : current clientId evs = some k := (current_snoc _).symm.trans hnow
    by_cases heq : clientId' = clientId
    · subst heq
      cases i with
      | connection c =>
        obtain rfl := Option.some.inj ((acts_for hallows hcurrent rfl rfl).1.symm.trans hnow)
        rw [testaments_act, due_same rfl] at hdue
        obtain ⟨hnobody, rfl⟩ := stored_insert h hacts hundisturbed hdue
        refine ⟨hnobody, ?_⟩
        rw [hwills, Action.onWills, DashMap.lookup_insert, if_pos rfl]
        rfl
      | _ => exact hallows.elim
    · refine hsame hnow ?_ (fun _ => ⟨rfl, rfl⟩) ?_ rfl
      · intro will'' hinsert
        cases hinsert
        exact heq rfl
      · rw [Action.onWills, DashMap.lookup_insert, if_neg heq]
  | willsRemove clientId' =>
    replace hnow : current clientId evs = some k := (current_snoc _).symm.trans hnow
    by_cases heq : clientId' = clientId
    · subst heq
      refine (h.not_stored_removes hallows hacts hcurrent hleft hnone hdue hnow rfl ?_).elim
      exact fun life hi => hrouter life hi rfl
    · refine hsame hnow (by simp) ?_ ?_ ?_
      · rintro rfl
        rw [testaments_act, Function.update_self] at hdue
        cases hdue
      · rw [Action.onWills, DashMap.lookup_erase, if_neg heq]
      · rw [dismissalsAfter, if_neg (by simp [heq])]
  | sendRouter message =>
    replace hnow : current clientId evs = some k := (current_snoc _).symm.trans hnow
    cases message with
    | Publish topic payload qos retain sourceClient =>
      exact hsame hnow (by simp) (fun _ => ⟨rfl, rfl⟩) rfl (List.append_nil _)
    | ClientDisconnected clientId' cleanSession =>
      by_cases heq : clientId' = clientId
      · subst heq
        exact (not_stored_leaves hallows hcurrent hleft hnow rfl).elim
      · refine hsame hnow (by simp) ?_ rfl ?_
        · rintro rfl
          rw [phases_act, Function.update_self] at hleft
          cases hleft
        · rw [dismissalsAfter, dismissal, if_neg heq]
          exact List.append_nil _
  | _ =>
    replace hnow : current clientId evs = some k := (current_snoc _).symm.trans hnow
    exact hsame hnow (by simp) (fun _ => ⟨rfl, rfl⟩) rfl rfl

end

theorem willsInsert_follows {n : Note} {will : WillMessage} (hmem : .willsInsert clientId will ∈ follows i n a r) :
    ∃ session, a = .sessionsInsert clientId session ∧ n.will clientId = some will := by
  cases i with
  | router life =>
    cases a with
    | recvRouter =>
      obtain ⟨sender, message⟩ := r
      cases message with
      | Publish topic payload qos retain sourceClient => cases retain <;> simp [follows, routerFollows, retains] at hmem
      | ClientDisconnected clientId' cleanSession => cases cleanSession <;> simp [follows, routerFollows] at hmem
    | willsRemove clientId' =>
      cases r with
      | none => cases hmem
      | some sent => cases hretain : sent.2.retain <;> simp [follows, routerFollows, retains, hretain] at hmem
    | lookup topic =>
      obtain ⟨_, _, h⟩ | ⟨_, _, h⟩ := mem_forwards hmem
      · cases h
      · cases h
    | _ => cases hmem
  | connection k =>
    cases a with
    | sessionsInsert clientId' session =>
      cases List.mem_append.mp hmem with
      | inl hwill =>
        obtain ⟨will', hsome, heq⟩ := List.mem_map.mp hwill
        cases heq
        exact ⟨session, rfl, Option.mem_toList.mp hsome⟩
      | inr hevent => simp at hevent
    | retainedIter =>
      obtain ⟨item, _, h⟩ := List.mem_map.mp hmem
      cases h
    | sendRouter message =>
      cases message with
      | Publish topic payload qos retain sourceClient =>
        cases retain <;> cases hpayload : payload.isEmpty <;> simp [follows, connectionFollows, hpayload] at hmem
      | ClientDisconnected clientId' cleanSession => cases hmem
    | _ => simp [follows, connectionFollows] at hmem
  | web k => cases hmem
  | request m =>
    cases a with
    | sendRouter message =>
      cases message with
      | Publish topic payload qos retain sourceClient =>
        cases retain <;> cases hpayload : payload.isEmpty <;> simp [follows, requestFollows, hpayload] at hmem
      | ClientDisconnected clientId' cleanSession => cases hmem
    | retainedContains topic => cases r <;> simp [follows, requestFollows] at hmem
    | _ => cases hmem

theorem WillLine.promised_act (h : WillLine settings clientId evs cfg.shared (owed evs cfg))
    (hallows : allows settings i (phases settings evs i) a) (hacts : Acts i (duties evs i).note (owed evs cfg i) a r owes') :
    ∀ k will, .willsInsert clientId will ∈ Function.update (owed evs cfg) i owes' k →
      (testaments (evs ++ [.act i a r]) k).due = some will := by
  intro k will hmem
  rw [testaments_act]
  by_cases hk : k = i
  · subst hk
    rw [Function.update_self] at hmem ⊢
    rw [hacts.owes'] at hmem
    cases Agenda.mem_next hmem with
    | inl hfollows =>
      obtain ⟨session, rfl, hwill⟩ := willsInsert_follows hfollows
      change (((testaments evs k).connect.bind fun c => c.will).map fun will => { will with clientId }) = some will
      rw [connect_noted]
      exact hwill
    | inr hold =>
      have hpromised := h.promised k will hold
      obtain hsame | ⟨clientId', session, rfl⟩ | ⟨clientId', rfl⟩ := due_next (testaments evs k) a r
      · rw [hsame, hpromised]
      · obtain ⟨-, -, c, rfl⟩ := sessionsInsert_connection hallows
        have howes : owed evs cfg (.connection c) = [] := (hacts.begun rfl (by exact id)).1
        have hold' : Action.willsInsert clientId will ∈ owed evs cfg (.connection c) := hold
        rw [howes] at hold'
        cases hold'
      · cases k with
        | router life => exact (hacts.owable _ hold).elim
        | connection c =>
          have howes : owed evs cfg (.connection c) = [] := (hacts.begun rfl (by exact id)).1
          have hold' : Action.willsInsert clientId will ∈ owed evs cfg (.connection c) := hold
          rw [howes] at hold'
          cases hold'
        | _ => exact hallows.elim
  · rw [Function.update_of_ne hk] at hmem ⊢
    exact h.promised k will hmem

theorem WillLine.taken_act (h : WillLine settings clientId evs cfg.shared (owed evs cfg))
    (hallows : allows settings i (phases settings evs i) a) (hacts : Acts i (duties evs i).note (owed evs cfg i) a r owes')
    (hrouting : Routing (duties evs (.router cfg.shared.life)).note (owed evs cfg (.router cfg.shared.life))
      (works evs (.router cfg.shared.life)))
    (hperform : cfg.shared.perform i a input = some (cfg'.shared, r)) :
    ∀ k, (duties (evs ++ [.act i a r]) (.router cfg'.shared.life)).note.message.bind (dismissal clientId) = some k →
      .willsRemove clientId ∉ Function.update (owed evs cfg) i owes' (.router cfg'.shared.life) →
      (duties (evs ++ [.act i a r]) (.router cfg'.shared.life)).note.taken.map Prod.snd =
        (testaments (evs ++ [.act i a r]) k).due := by
  obtain ⟨hperformed, -, hsame⟩ := node_performed hperform
  intro k hk hnot
  rw [hsame, duties_act] at hk ⊢
  rw [hsame] at hnot
  have hgone : (duties evs (.router cfg.shared.life)).note.message.bind (dismissal clientId) = some k →
      (testaments (evs ++ [.act i a r]) k).due = (testaments evs k).due := by
    intro hmessage
    obtain ⟨sent, hsent, hdismissal⟩ := Option.bind_eq_some_iff.mp hmessage
    exact (h.gone sent (List.mem_append_left _ (Option.mem_toList.mpr hsent)) k hdismissal).due hallows
  by_cases hi : .router cfg.shared.life = i
  · subst hi
    rw [Function.update_self] at hk hnot ⊢
    have hother : (∀ clientId', a ≠ .willsRemove clientId') →
        ((duties evs (.router cfg.shared.life)).note.next a r).message = (duties evs (.router cfg.shared.life)).note.message →
        ((duties evs (.router cfg.shared.life)).note.next a r).taken = (duties evs (.router cfg.shared.life)).note.taken →
        ((duties evs (.router cfg.shared.life)).note.next a r).taken.map Prod.snd =
          (testaments (evs ++ [.act (.router cfg.shared.life) a r]) k).due := by
      intro hwill hmessage htaken
      change ((duties evs (.router cfg.shared.life)).note.next a r).message.bind (dismissal clientId) = some k at hk
      rw [hmessage] at hk
      rw [htaken, hgone hk]
      apply h.taken k hk
      intro hmem
      exact hnot (hacts.kept _ hmem (hwill clientId).symm)
    cases a with
    | recvRouter =>
      have hreceived : dismissal clientId r = some k := hk
      rw [(hacts.begun rfl (by exact id)).2.2] at hnot
      exact absurd ((recvRouter_owes r).mpr (by rw [hreceived]; rfl)) hnot
    | willsRemove clientId' =>
      obtain ⟨rest, howes, -⟩ := hacts.owed rfl trivial
      rw [howes] at hrouting
      obtain ⟨-, sender, cleanSession, hmessage⟩ := router_asks hrouting
      change (duties evs (.router cfg.shared.life)).note.message.bind (dismissal clientId) = some k at hk
      rw [hgone hk]
      have hk' := hk
      rw [hmessage] at hk'
      simp only [Option.bind_some, dismissal] at hk'
      split_ifs at hk' with hclient
      subst hclient
      cases hk'
      have hhead : (dismissals clientId' evs cfg.shared (owed evs cfg)).head? = some k := by
        rw [dismissals, howes, if_pos List.mem_cons_self, hmessage]
        simp [dismissal]
      rw [← h.line.head _ hhead, willsRemove_reply hperform]
      rfl
    | _ => exact hother (by simp) rfl rfl
  · rw [Function.update_of_ne hi] at hk hnot ⊢
    rw [hgone hk]
    exact h.taken k hk hnot

end

section
variable {settings : Settings} {P : List BrokerEvent → BrokerConfigState → BrokerEvent → BrokerConfigState → Prop}
  {clientId : String} {evs : List BrokerEvent} {cfg : BrokerConfigState}

theorem session_of_current (hrun : (brokerSystem settings).RunWhere P initial evs cfg) {k : ThreadId}
    (hcurrent : current clientId evs = some k) : (phases settings evs k).session.isSome = true := by
  induction hrun with
  | nil => cases hcurrent
  | @snoc evs cfg cfg' e run step ok ih =>
    rw [current_snoc] at hcurrent
    cases step with
    | @spawn i c hfresh hstart =>
      have hphases : phases settings (evs ++ [.spawn i c]) = phases settings evs :=
        Observer.ghosts_spawn (fun _ _ => rfl) run hfresh
      rw [hphases]
      exact ih hcurrent
    | @act i p a c input node r hrunning hnext hperform =>
      rw [phases_act]
      have hold : current clientId evs = some k →
          (Function.update (phases settings evs) i ((phases settings evs i).next a r) k).session.isSome = true := by
        intro h
        by_cases hk : k = i
        · subst hk
          rw [Function.update_self]
          cases session_next (phases settings evs k) a r with
          | inl hsame => rw [hsame, ih h]
          | inr hinsert =>
            obtain ⟨_, _, _, hnew⟩ := hinsert
            rw [hnew]
            rfl
        · rw [Function.update_of_ne hk]
          exact ih h
      cases a with
      | sessionsInsert clientId' session =>
        by_cases hclient : clientId' = clientId
        · obtain rfl : i = k := by simpa [hclient] using hcurrent
          rw [Function.update_self]
          rfl
        · exact hold (by simpa [hclient] using hcurrent)
      | _ => exact hold hcurrent
    | @world w node ends hworld =>
      have hphases : phases settings (evs ++ [.world w]) = phases settings evs := Observer.ghosts_world w
      rw [hphases]
      cases w with
      | commit n => exact ih hcurrent
      | restart => cases hcurrent

theorem willLine_of_run (hrun : (brokerSystem settings).RunWhere
    (fun evs cfg e _ => apart clientId evs cfg e = true ∧ undisturbed clientId evs cfg e = true) initial evs cfg) :
    WillLine settings clientId evs cfg.shared (owed evs cfg) := by
  apply owed_induction (J := fun evs node owes => WillLine settings clientId evs node owes) _ _ _ _ _ hrun
  · exact ⟨nofun, .nil, nofun, nofun, nofun⟩
  · intro evs cfg i c run hfresh ih
    exact ih.skip (Observer.ghosts_spawn (fun _ _ => rfl) run hfresh) (Observer.ghosts_spawn (fun _ _ => rfl) run hfresh)
      (duties_spawn run hfresh) (current_snoc _) rfl rfl rfl
  · intro evs cfg cfg' i a r input owes' run step ok hlife hacts hperform ih
    by_cases hdrop : a = .dropReceiver
    · subst hdrop
      have heffect := (node_perform_effect hperform).1
      rw [hacts.unlisted rfl, Function.update_eq_self]
      exact ih.skip ((phases_act i _ r).trans (Function.update_eq_self _ _))
        ((testaments_act i _ r).trans (Function.update_eq_self _ _))
        (duties_unlisted rfl fun _ => rfl) (current_snoc _)
        (node_performed hperform).2.2 heffect.queue heffect.wills
    have hallows := allows_of_step run step
    have hrouting := routing_of_run run
    have hcurrent : ∀ session, (phases settings evs i).session = some session → session.clientId = clientId →
        current clientId evs = some i := fun session hsession hclient =>
      current_of_session (fun h => h.1) run hsession hclient ((over_of_step step).resolve_right fun h => hdrop h.1)
    have hafter : dismissals clientId (evs ++ [.act i a r]) cfg'.shared (Function.update (owed evs cfg) i owes') =
        dismissalsAfter clientId (dismissals clientId evs cfg.shared (owed evs cfg)) i a :=
      dismissals_act hlife hacts hrouting hperform
    have hrouter : ∀ life, i = .router life → a = .willsRemove clientId →
        dismissals clientId evs cfg.shared (owed evs cfg) ≠ [] := by
      intro life hi ha
      subst hi ha
      obtain rfl := hlife life rfl
      obtain ⟨rest, howes, -⟩ := hacts.owed rfl trivial
      rw [howes] at hrouting
      obtain ⟨-, sender, cleanSession, hmessage⟩ := router_asks hrouting
      rw [dismissals, howes, if_pos List.mem_cons_self, hmessage]
      simp [dismissal]
    constructor
    · exact ih.gone_act hallows hperform
    · rw [hafter]
      exact ih.line_act hallows ok.2 hperform hacts hcurrent
    · rw [hafter]
      intro k will hnow hleft hnone hdue
      exact ih.stored_act hallows hacts hcurrent ok.2 hperform hleft hnone hdue (fun k => session_of_current run) hrouter hnow
    · exact ih.promised_act hallows hacts
    · exact ih.taken_act hallows hacts hrouting hperform
  · intro evs node owes m ih
    exact ih.skip (Observer.ghosts_world _) (Observer.ghosts_world _) (Observer.ghosts_world _) (current_snoc _) rfl rfl rfl
  · intro evs cfg cfg' run _ ih
    have hfresh : cfg.thread (.router (cfg.shared.life + 1)) = .fresh := (oneRouter_of_run run).later _ (by omega)
    have hduties : duties (evs ++ [.world .restart]) (.router (cfg.shared.life + 1)) = ⟨Note.start, []⟩ := by
      rw [duties, Observer.ghosts_world]
      exact Observer.ghosts_of_fresh run hfresh
    constructor
    · intro sent hsent
      change sent ∈ (duties _ (.router (cfg.shared.life + 1))).note.message.toList ++ [] at hsent
      rw [hduties] at hsent
      cases hsent
    · exact .nil
    · intro k will hnow
      rw [current_snoc] at hnow
      cases hnow
    · exact nofun
    · intro k hk
      change (duties _ (.router (cfg.shared.life + 1))).note.message.bind _ = some k at hk
      rw [hduties] at hk
      cases hk

end

/-- Where no connection meddles with the will of another one, the router publishes for the disconnection of
    each connection its own will, and nothing if it had none or has cancelled it. -/
theorem ownWill_handedOn {settings : Settings} {clientId : String} {evs : List BrokerEvent} {cfg : BrokerConfigState}
    {k : ConnId} {cleanSession : Bool} (hrun : (brokerSystem settings).RunWhere
      (fun evs cfg e _ => apart clientId evs cfg e = true ∧ undisturbed clientId evs cfg e = true) initial evs cfg)
    (hmessage : (duties evs (.router cfg.shared.life)).note.message =
      some (.connection k, .ClientDisconnected clientId cleanSession)) :
    HandsOn clientId (testaments evs (.connection k)).due (owed evs cfg (.router cfg.shared.life))
      (works evs (.router cfg.shared.life)) := by
  have hline : WillLine settings clientId evs cfg.shared (owed evs cfg) := willLine_of_run hrun
  have htaken : (∀ b ∈ owed evs cfg (.router cfg.shared.life), b.plain = true) →
      (duties evs (.router cfg.shared.life)).note.taken.map Prod.snd = (testaments evs (.connection k)).due := by
    intro hplain
    apply hline.taken
    · rw [hmessage, Option.bind_some, dismissal, if_pos rfl]
    · intro hmem
      cases hplain _ hmem
  have hwaits : owed evs cfg (.router cfg.shared.life) ≠ [] → works evs (.router cfg.shared.life) = Work.start →
      HandsOn clientId (testaments evs (.connection k)).due (owed evs cfg (.router cfg.shared.life))
        (works evs (.router cfg.shared.life)) := by
    intro howes hwork
    rw [hwork]
    cases (testaments evs (.connection k)).due with
    | none => rfl
    | some will => exact .inl ⟨rfl, howes⟩
  cases routing_of_run hrun with
  | asking _ howes _ _ hwork => exact hwaits (howes ▸ List.cons_ne_nil _ _) hwork
  | looking _ howes _ _ hwork => exact hwaits (howes ▸ List.cons_ne_nil _ _) hwork
  | @sending topic subscribers htopic hlooked hplain hpublished =>
    have hdue := htaken hplain
    cases hsent : (duties evs (.router cfg.shared.life)).note.taken with
    | none =>
      simp only [Note.topic, hmessage, hsent] at htopic
      cases htopic
    | some sent =>
      simp only [Note.topic, hmessage, hsent, Option.some.injEq] at htopic
      rw [hsent] at hdue
      rw [← hdue]
      refine .inr ⟨subscribers, ?_, ?_⟩
      · rw [hlooked, ← htopic]
      · rw [hpublished]
        simp only [Note.publication, Note.forwards, Note.retained, hmessage, hsent]
        rfl
  | silent htopic hplain _ hwork =>
    have hdue := htaken hplain
    cases hsent : (duties evs (.router cfg.shared.life)).note.taken with
    | none =>
      rw [hsent] at hdue
      rw [← hdue, hwork]
      rfl
    | some sent =>
      simp only [Note.topic, hmessage, hsent] at htopic
      cases htopic

def connectMoves (k : ConnId) (topic : Option String) : List BrokerMove :=
  [.spawn (.connection k) .tcp, .act (.connection k) (.received (.data (sentBytes (.V311 (.Connect
    { plainConnectV3 "c" false none with
      will := topic.map fun topic => { topic, message := [0x78], qos := .AtMostOnce, retain := true } })))))] ++
  turns (.connection k) (8 + if topic.isSome then 2 else 0)

def revivedMoves : List BrokerMove :=
  [.spawn (.router 0) .router] ++ connectMoves 0 (some "a") ++ [.world (.commit 2), .world .restart,
    .spawn (.router 1) .router] ++ connectMoves 1 (some "b") ++ [.act (.connection 1) (.received .closed)] ++
  turns (.connection 1) 4 ++ turns (.router 1) 6

def letter (topic : String) : WillMessage :=
  { clientId := "c", topic, payload := [0x78], qos := .AtMostOnce, retain := true, delayInterval := 0 }

theorem ownWill_revived : ∃ evs cfg subscribers, (brokerSystem openSettings).Run initial evs cfg ∧ cfg.shared.life = 1 ∧
    (works evs (.router 1)).published = willPublication "c" (letter "b") subscribers := by
  have hrun : ((brokerSystem openSettings).execWhere (fun evs cfg e _ => apart "c" evs cfg e && undisturbed "c" evs cfg e)
      [] initial revivedMoves).map (fun r => (r.2.shared.life, (duties r.1 (.router 1)).note.message,
        (testaments r.1 (.connection 1)).due, owed r.1 r.2 (.router 1))) =
      some (1, some (.connection 1, .ClientDisconnected "c" false), some (letter "b"), []) := by decide +kernel
  obtain ⟨⟨evs, cfg⟩, hexec, heq⟩ := Option.map_eq_some_iff.mp hrun
  simp only [Prod.mk.injEq] at heq
  obtain ⟨hlife, hmessage, hdue, howes⟩ := heq
  have hwhere : (brokerSystem openSettings).RunWhere
      (fun evs cfg e _ => apart "c" evs cfg e = true ∧ undisturbed "c" evs cfg e = true) initial evs cfg :=
    System.execWhere_run _ (fun _ _ _ _ h => Bool.and_eq_true_iff.mp h) .nil hexec
  have hworks : (duties evs (.router cfg.shared.life)).note.message =
      some (.connection 1, .ClientDisconnected "c" false) := by
    rw [hlife]
    exact hmessage
  have hhands := ownWill_handedOn hwhere hworks
  rw [hdue, hlife, howes] at hhands
  obtain ⟨-, hnot⟩ | ⟨subscribers, -, hpublished⟩ := hhands
  · exact absurd rfl hnot
  · rw [List.filter_nil, List.append_nil] at hpublished
    exact ⟨evs, cfg, subscribers, System.execWhere_run _ (fun _ _ _ _ _ => trivial) .nil hexec, hlife, hpublished⟩

def leftBehindMoves : List BrokerMove :=
  [.spawn (.router 0) .router] ++ connectMoves 0 (some "a") ++ [.act (.connection 0) (.received .failed)] ++
  connectMoves 1 none ++ [.act (.connection 1) (.received .closed)] ++ turns (.connection 1) 4 ++ turns (.router 0) 5

theorem ownWill_leftBehind : ¬ ∀ evs cfg clientId k cleanSession,
    (brokerSystem openSettings).RunWhere (fun evs cfg e _ => apart clientId evs cfg e = true) initial evs cfg →
    (duties evs (.router cfg.shared.life)).note.message =
      some (.connection k, .ClientDisconnected clientId cleanSession) →
    HandsOn clientId (testaments evs (.connection k)).due (owed evs cfg (.router cfg.shared.life))
      (works evs (.router cfg.shared.life)) := by
  have hrun : ((brokerSystem openSettings).execWhere (fun evs cfg e _ => apart "c" evs cfg e) [] initial
      leftBehindMoves).map (fun r => (r.2.shared.life, (duties r.1 (.router 0)).note.message,
        (testaments r.1 (.connection 1)).due, (works r.1 (.router 0)).published)) =
      some (0, some (.connection 1, .ClientDisconnected "c" false), none,
        [.retainedInsert "a" { topic := "a", payload := [0x78], qos := .AtMostOnce }]) := by decide +kernel
  obtain ⟨⟨evs, cfg⟩, hexec, heq⟩ := Option.map_eq_some_iff.mp hrun
  simp only [Prod.mk.injEq] at heq
  obtain ⟨hlife, hmessage, hdue, hpublished⟩ := heq
  have hworks : (duties evs (.router cfg.shared.life)).note.message =
      some (.connection 1, .ClientDisconnected "c" false) := by
    rw [hlife]
    exact hmessage
  intro hall
  have h := hall evs cfg "c" 1 false (System.execWhere_run _ (fun _ _ _ _ h => h) .nil hexec) hworks
  rw [hdue, hlife] at h
  change (works evs (.router 0)).published = [] at h
  rw [hpublished] at h
  cases h

end AtomMqtt
