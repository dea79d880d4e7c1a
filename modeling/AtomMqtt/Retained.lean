import AtomMqtt.DutyRuns
import AtomMqtt.Effects

set_option autoImplicit false

/-! Retained messages on their way through the router. Each retained message is written twice, by the task that
publishes it and by the router later. What the map will be when the router has caught up is known before. -/
namespace AtomMqtt
open Programs

def Action.onRetained : Action → DashMap String RetainedMessage → DashMap String RetainedMessage
  | .retainedInsert topic message, retained => retained.insert topic message
  | .retainedRemove topic, retained => retained.erase topic
  | _, retained => retained

theorem perform_retained {i : ThreadId} {node node' : Node} {a : Action} {input : Input} {r : Reply a}
    (h : node.perform i a input = some (node', r)) :
    node'.shared.broker.retained = a.onRetained node.shared.broker.retained := by
  rw [(node_performed h).1.broker]
  cases a <;> cases i <;> rfl

def Action.retainedTopic : Action → Option String
  | .retainedInsert topic _ | .retainedRemove topic => some topic
  | _ => none

def BrokerMessage.retained : BrokerMessage → Option (String × RetainedMessage)
  | .Publish topic payload qos true _ => some (topic, { topic, payload, qos })
  | _ => none

def Action.retains : Action → Option (String × RetainedMessage)
  | .retainedInsert topic message => some (topic, message)
  | _ => none

/-- The retained message that the router works on, and those that are queued. -/
def backlog (owed : ThreadId → List Action) (node : Node) : List (String × RetainedMessage) :=
  (owed (.router node.life)).filterMap Action.retains ++ node.shared.queue.filterMap fun sent => sent.2.retained

def caughtUp (retained : DashMap String RetainedMessage) (backlog : List (String × RetainedMessage)) :
    DashMap String RetainedMessage :=
  backlog.foldl (fun map entry => map.insert entry.1 entry.2) retained

/-- The retained map once the router has done all that it has been sent, if nobody else writes to it. -/
def outlook (owed : ThreadId → List Action) (node : Node) : DashMap String RetainedMessage :=
  caughtUp node.shared.broker.retained (backlog owed node)

def waits (owed : ThreadId → List Action) (node : Node) (topic : String) : Bool :=
  (backlog owed node).any fun entry => entry.1 == topic

section
variable {retained : DashMap String RetainedMessage} {entries : List (String × RetainedMessage)} {topic : String}

theorem caughtUp_absent (h : (entries.any fun entry => entry.1 == topic) = false) :
    (caughtUp retained entries).lookup topic = retained.lookup topic := by
  induction entries generalizing retained with
  | nil => rfl
  | cons entry entries ih =>
    simp only [List.any_cons, Bool.or_eq_false_iff, beq_eq_false_iff_ne] at h
    have hrest : (caughtUp (retained.insert entry.1 entry.2) entries).lookup topic =
        (retained.insert entry.1 entry.2).lookup topic := ih h.2
    rw [AList.lookup_insert_ne (Ne.symm h.1)] at hrest
    exact hrest

theorem caughtUp_present {retained' : DashMap String RetainedMessage}
    (h : (entries.any fun entry => entry.1 == topic) = true) :
    (caughtUp retained entries).lookup topic = (caughtUp retained' entries).lookup topic := by
  induction entries generalizing retained retained' with
  | nil => cases h
  | cons entry entries ih =>
    change (caughtUp (retained.insert entry.1 entry.2) entries).lookup topic =
      (caughtUp (retained'.insert entry.1 entry.2) entries).lookup topic
    cases hrest : entries.any fun entry => entry.1 == topic with
    | true => exact ih hrest
    | false =>
      rw [caughtUp_absent hrest, caughtUp_absent hrest]
      simp only [List.any_cons, hrest, Bool.or_false, beq_iff_eq] at h
      rw [← h, AList.lookup_insert, AList.lookup_insert]

theorem caughtUp_insert {topic' : String} {message : RetainedMessage} :
    (caughtUp (retained.insert topic' message) entries).lookup topic =
      if topic' == topic && !(entries.any fun entry => entry.1 == topic) then some message
      else (caughtUp retained entries).lookup topic := by
  cases hany : entries.any fun entry => entry.1 == topic with
  | true =>
    rw [Bool.not_true, Bool.and_false, caughtUp_present hany]
    rfl
  | false =>
    rw [caughtUp_absent hany, caughtUp_absent hany]
    simp [DashMap.lookup_insert]

theorem caughtUp_erase {topic' : String} : (caughtUp (retained.erase topic') entries).lookup topic =
    if topic' == topic && !(entries.any fun entry => entry.1 == topic) then none
    else (caughtUp retained entries).lookup topic := by
  cases hany : entries.any fun entry => entry.1 == topic with
  | true =>
    rw [Bool.not_true, Bool.and_false, caughtUp_present hany]
    rfl
  | false =>
    rw [caughtUp_absent hany, caughtUp_absent hany]
    simp [DashMap.lookup_erase]

theorem caughtUp_snoc (entry : String × RetainedMessage) :
    caughtUp retained (entries ++ [entry]) = (caughtUp retained entries).insert entry.1 entry.2 := by
  rw [caughtUp, List.foldl_append]
  rfl

end

/-- What a step makes of the outlook for a topic. -/
def outlookAfter (waits : Bool) (topic : String) (before : Option RetainedMessage) (i : ThreadId) :
    (a : Action) → Reply a → Option RetainedMessage
  | .willsRemove _, some (_, will) =>
    match i with
    | .router _ => if will.retain && will.topic == topic && !waits then some will.retained else before
    | _ => before
  | .sendRouter (.Publish topic' payload qos true _), _ =>
    if topic' = topic then some { topic := topic', payload, qos } else before
  | .retainedInsert topic' message, _ =>
    match i with
    | .router _ => before
    | _ => if topic' = topic && !waits then some message else before
  | .retainedRemove topic', _ => if topic' = topic && !waits then none else before
  | _, _ => before

theorem retains_unlisted {a : Action} (h : a.listed = false) : a.retains = none := by
  cases a <;> first | rfl | cases h

theorem onRetained_of_retains {a : Action} {topic : String} {message : RetainedMessage}
    (h : a.retains = some (topic, message)) : a = .retainedInsert topic message := by
  cases a <;> first | cases h; rfl | cases h

section
variable {owed : ThreadId → List Action} {node node' : Node} {i : ThreadId} {n : Note} {a : Action} {input : Input}
  {r : Reply a} {owes owes' : List Action} {topic : String}

theorem forwards_retains {subscribers : List Subscription} :
    (n.forwards subscribers).filterMap Action.retains = [] := by
  rw [List.filterMap_eq_nil_iff]
  intro b hb
  obtain ⟨_, _, rfl⟩ | ⟨_, _, rfl⟩ := mem_forwards hb
  · rfl
  · rfl

theorem retains_retains {retain : Bool} {message : RetainedMessage} :
    (retains retain message).filterMap Action.retains = if retain then [(message.topic, message)] else [] := by
  cases retain <;> rfl

/-- The router does its own retained write and owes the others as before, unless it takes up something. -/
theorem router_retains {life : ℕ} (hacts : Acts (.router life) n owes a r owes') (hrecv : a ≠ .recvRouter)
    (hwill : ∀ clientId, a ≠ .willsRemove clientId) :
    owes.filterMap Action.retains = a.retains.toList ++ owes'.filterMap Action.retains := by
  cases hlisted : a.listed with
  | false =>
    rw [hacts.unlisted hlisted, retains_unlisted hlisted]
    rfl
  | true =>
    by_cases howable : Owable (.router life) a
    · obtain ⟨rest, howes, howes'⟩ := hacts.owed hlisted howable
      have hfollows : (follows (.router life) (n.next a r) a r).filterMap Action.retains = [] := by
        cases a with
        | recvRouter => exact absurd rfl hrecv
        | willsRemove clientId => exact absurd rfl (hwill clientId)
        | lookup topic => exact forwards_retains
        | _ => rfl
      rw [howes, howes', List.filterMap_append, hfollows, List.nil_append, List.filterMap_cons]
      cases a.retains <;> rfl
    · obtain ⟨-, hbegins, -⟩ := hacts.begun hlisted howable
      cases a <;> first | exact hbegins.elim | exact absurd rfl hrecv

theorem backlog_router (hperform : node.perform (.router node.life) a input = some (node', r)) :
    backlog (Function.update owed (.router node.life) owes') node' = owes'.filterMap Action.retains ++
      (a.onQueue (.router node.life) node.shared.queue).filterMap fun sent => sent.2.retained := by
  obtain ⟨hperformed, -, hlife⟩ := node_performed hperform
  rw [backlog, hlife, Function.update_self, hperformed.queue]

theorem outlook_willsRemove {clientId : String} {taken : Option (ThreadId × WillMessage)}
    (hacts : Acts (.router node.life) n (owed (.router node.life)) (.willsRemove clientId) taken owes')
    (hperform : node.perform (.router node.life) (.willsRemove clientId) input = some (node', taken)) :
    (outlook (Function.update owed (.router node.life) owes') node').lookup topic =
      outlookAfter (waits owed node topic) topic ((outlook owed node).lookup topic) (.router node.life)
        (.willsRemove clientId) taken := by
  have hbacklog : backlog (Function.update owed (.router node.life) owes') node' = _ := backlog_router hperform
  have hretained := perform_retained hperform
  obtain ⟨rest, howes, howes'⟩ := hacts.owed rfl trivial
  have hbefore : backlog owed node = rest.filterMap Action.retains ++
      node.shared.queue.filterMap fun sent => sent.2.retained := by
    rw [backlog, howes]
    rfl
  cases taken with
  | none =>
    rw [outlook, outlook, hbacklog, hretained, howes', hbefore]
    rfl
  | some sent =>
    obtain ⟨sender, will⟩ := sent
    have hfollows : (follows (.router node.life) (n.next (.willsRemove clientId) (some (sender, will)))
        (.willsRemove clientId) (some (sender, will))).filterMap Action.retains =
          if will.retain then [(will.topic, will.retained)] else [] := by
      change (retains will.retain will.retained ++ [Action.sendEvent (.RemoveWill clientId)]).filterMap Action.retains = _
      rw [List.filterMap_append, retains_retains]
      exact List.append_nil _
    have hafter : backlog (Function.update owed (.router node.life) owes') node' =
        (if will.retain then [(will.topic, will.retained)] else []) ++ backlog owed node := by
      rw [hbacklog, howes', hbefore, List.filterMap_append, hfollows, List.append_assoc]
      rfl
    rw [outlook, hafter, hretained]
    cases hretain : will.retain with
    | false =>
      simp only [outlookAfter, hretain, Bool.false_and]
      rfl
    | true =>
      simp only [outlookAfter, hretain, Bool.true_and, if_true]
      exact caughtUp_insert

theorem outlook_router_same (hacts : Acts (.router node.life) n (owed (.router node.life)) a r owes')
    (hperform : node.perform (.router node.life) a input = some (node', r)) (hrecv : a ≠ .recvRouter)
    (hwill : ∀ clientId, a ≠ .willsRemove clientId) (hsend : ∀ message, a ≠ .sendRouter message)
    (hremove : ∀ topic, a ≠ .retainedRemove topic) :
    outlook (Function.update owed (.router node.life) owes') node' = outlook owed node := by
  have hqueue : a.onQueue (.router node.life) node.shared.queue = node.shared.queue := by
    cases a <;> first | rfl | exact absurd rfl hrecv | exact absurd rfl (hsend _)
  rw [outlook, outlook, backlog_router hperform, perform_retained hperform, hqueue, backlog,
    router_retains hacts hrecv hwill, List.append_assoc]
  cases hown : a.retains with
  | none =>
    have hsame : a.onRetained node.shared.broker.retained = node.shared.broker.retained := by
      cases a <;> first | rfl | exact absurd rfl (hremove _) | cases hown
    rw [hsame]
    rfl
  | some entry =>
    rw [onRetained_of_retains hown]
    rfl

theorem outlook_router (hacts : Acts (.router node.life) n (owed (.router node.life)) a r owes')
    (hperform : node.perform (.router node.life) a input = some (node', r)) :
    (outlook (Function.update owed (.router node.life) owes') node').lookup topic =
      outlookAfter (waits owed node topic) topic ((outlook owed node).lookup topic) (.router node.life) a r := by
  cases a with
  | recvRouter =>
    obtain ⟨sender, message⟩ := r
    obtain ⟨howes, -, howes'⟩ := hacts.begun rfl (by exact id)
    rw [outlook, outlook, backlog_router hperform, perform_retained hperform, howes', backlog, howes,
      recvRouter_reply hperform]
    cases message with
    | Publish topic' payload qos retain sourceClient => cases retain <;> rfl
    | ClientDisconnected clientId cleanSession => cases cleanSession <;> rfl
  | willsRemove clientId => exact outlook_willsRemove hacts hperform
  | sendRouter message => exact (hacts.never rfl id id).elim
  | retainedRemove topic' => exact (hacts.never rfl id id).elim
  | _ => exact congrArg (fun map => map.lookup topic) (outlook_router_same hacts hperform nofun nofun nofun nofun)

theorem outlook_handler (hi : ∀ life, i ≠ .router life) (hacts : Acts i n (owed i) a r owes')
    (hperform : node.perform i a input = some (node', r)) :
    (outlook (Function.update owed i owes') node').lookup topic =
      outlookAfter (waits owed node topic) topic ((outlook owed node).lookup topic) i a r := by
  obtain ⟨hperformed, -, hlife⟩ := node_performed hperform
  have hbacklog : backlog (Function.update owed i owes') node' =
      (owed (.router node.life)).filterMap Action.retains ++
        (a.onQueue i node.shared.queue).filterMap fun sent => sent.2.retained := by
    rw [backlog, hlife, Function.update_of_ne (hi node.life).symm, hperformed.queue]
  have hretained := perform_retained hperform
  rw [outlook, hbacklog, hretained]
  cases a with
  | sendRouter message =>
    simp only [Action.onQueue, List.filterMap_append, ← List.append_assoc]
    cases message with
    | ClientDisconnected clientId cleanSession =>
      simp only [BrokerMessage.retained, List.filterMap_cons, List.filterMap_nil, List.append_nil]
      rfl
    | Publish topic' payload qos retain sourceClient =>
      cases retain with
      | false =>
        simp only [BrokerMessage.retained, List.filterMap_cons, List.filterMap_nil, List.append_nil]
        rfl
      | true =>
        simp only [BrokerMessage.retained, List.filterMap_cons, List.filterMap_nil]
        rw [caughtUp_snoc]
        simp only [outlookAfter, DashMap.lookup_insert]
        rfl
  | recvRouter =>
    by_cases howable : Owable i .recvRouter
    · cases i <;> exact howable.elim
    · have hbegins := (hacts.begun rfl howable).2.1
      cases i <;> first | exact hbegins.elim | exact absurd rfl (hi _)
  | retainedInsert topic' message =>
    cases i <;> first | exact caughtUp_insert | exact absurd rfl (hi _)
  | retainedRemove topic' => exact caughtUp_erase
  | willsRemove clientId =>
    cases r <;> cases i <;> first | rfl | exact absurd rfl (hi _)
  | _ => rfl

/-- What each step makes of the outlook. -/
theorem outlook_act (hlife : ∀ life, i = .router life → life = node.life) (hacts : Acts i n (owed i) a r owes')
    (hperform : node.perform i a input = some (node', r)) :
    (outlook (Function.update owed i owes') node').lookup topic =
      outlookAfter (waits owed node topic) topic ((outlook owed node).lookup topic) i a r := by
  by_cases hi : i = .router node.life
  · subst hi
    exact outlook_router hacts hperform
  · apply outlook_handler _ hacts hperform
    intro life heq
    rw [hlife life heq] at heq
    exact hi heq

end

end AtomMqtt
