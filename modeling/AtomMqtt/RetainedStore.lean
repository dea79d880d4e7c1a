import AtomMqtt.Retained

set_option autoImplicit false

/-! The retained store as a sequence of operations. A PUBLISH with the retain flag, a POST with it and a DELETE
are operations on the store. When they are issued one after another, the map follows them as long as a removal
does not overtake the router. -/
namespace AtomMqtt
open Programs

/-- The topic of an operation, and the entry that it leaves. -/
def retainedOperation : BrokerEvent → Option (String × Option RetainedMessage)
  | .act _ (.sendRouter (.Publish topic payload qos true _)) _ =>
    some (topic, if payload.isEmpty then none else some { topic, payload, qos })
  | .act _ (.retainedContains topic) _ => some (topic, none)
  | _ => none

def applyOperation (map : DashMap String RetainedMessage) : Option (String × Option RetainedMessage) →
    DashMap String RetainedMessage
  | some (topic, some message) => map.insert topic message
  | some (topic, none) => map.erase topic
  | none => map

def applied (evs : List BrokerEvent) : DashMap String RetainedMessage :=
  evs.foldl (fun map e => applyOperation map (retainedOperation e)) ∅

def idle (evs : List BrokerEvent) (cfg : BrokerConfigState) : Bool :=
  (actors evs).all fun i => i.isRouter || (owed evs cfg i).all fun a => a.retainedTopic.isNone

/-- The operations are issued one after another, and nothing else is retained: no will that is taken
    has the flag, and the broker runs on. -/
def issued (evs : List BrokerEvent) (cfg : BrokerConfigState) (e : BrokerEvent) : Bool :=
  ((retainedOperation e).isNone || idle evs cfg) &&
    match e with
    | .act _ (.willsRemove _) (some (_, will)) => !will.retain
    | .world .restart => false
    | _ => true

/-- Under this topic an entry is removed or found missing only when the router has no message of it
    any more, and no request publishes an empty payload with the flag. -/
def orderly (topic : String) (evs : List BrokerEvent) (cfg : BrokerConfigState) : BrokerEvent → Bool
  | .act _ (.retainedRemove topic') _ => topic' != topic || !waits (owed evs cfg) cfg.shared topic
  | .act _ (.retainedContains topic') _ =>
    topic' != topic || (cfg.shared.shared.broker.retained.lookup topic).isSome || !waits (owed evs cfg) cfg.shared topic
  | .act (.request _) (.sendRouter (.Publish topic' payload _ true _)) _ => topic' != topic || !payload.isEmpty
  | _ => true

/-- The queue is empty, and neither the router nor an operation is at work on the map. -/
def drained (evs : List BrokerEvent) (cfg : BrokerConfigState) : Bool :=
  cfg.shared.shared.queue.isEmpty &&
    (actors evs).all fun i => (owed evs cfg i).all fun a => a.retainedTopic.isNone

section
variable {evs : List BrokerEvent} {cfg : BrokerConfigState} {topic : String}

theorem not_owed_of_idle (h : idle evs cfg = true) {j : ThreadId} (hj : j.isRouter = false) :
    ∀ b ∈ owed evs cfg j, b.retainedTopic = none := by
  intro b hb
  have hactor : j ∈ actors evs := by
    by_contra hnot
    rw [owed_of_idle hnot] at hb
    cases hb
  have hall := List.all_eq_true.mp h j hactor
  rw [hj, Bool.false_or] at hall
  exact Option.isNone_iff_eq_none.mp (List.all_eq_true.mp hall b hb)

theorem applied_snoc (e : BrokerEvent) :
    (applied (evs ++ [e])).lookup topic =
      match retainedOperation e with
      | some (topic', entry) => if topic' = topic then entry else (applied evs).lookup topic
      | none => (applied evs).lookup topic := by
  rw [applied, List.foldl_append]
  change (applyOperation (applied evs) (retainedOperation e)).lookup topic = _
  cases retainedOperation e with
  | none => rfl
  | some operation =>
    obtain ⟨topic', entry⟩ := operation
    cases entry with
    | none =>
      simp only [applyOperation, DashMap.lookup_erase]
    | some message =>
      simp only [applyOperation, DashMap.lookup_insert]

theorem operation_nonempty {e : BrokerEvent} {message : RetainedMessage}
    (h : retainedOperation e = some (topic, some message)) : message.payload.isEmpty = false := by
  unfold retainedOperation at h
  split at h
  · simp only [Option.some.injEq, Prod.mk.injEq] at h
    obtain ⟨-, hentry⟩ := h
    split_ifs at hentry with hempty
    cases hentry
    exact Bool.eq_false_iff.mpr hempty
  · cases h
  · cases h

theorem applied_nonempty {message : RetainedMessage} (h : (applied evs).lookup topic = some message) :
    message.payload.isEmpty = false := by
  induction evs using List.reverseRecOn with
  | nil => cases h
  | append_singleton evs e ih =>
    rw [applied_snoc] at h
    cases hoperation : retainedOperation e with
    | none =>
      rw [hoperation] at h
      exact ih h
    | some operation =>
      obtain ⟨topic', entry⟩ := operation
      rw [hoperation] at h
      by_cases htopic : topic' = topic
      · simp only [if_pos htopic] at h
        exact operation_nonempty (h ▸ hoperation)
      · simp only [if_neg htopic] at h
        exact ih h

end

section
variable {i : ThreadId} {n : Note} {a : Action} {r : Reply a} {owes' : List Action} {topic : String}

theorem writes_follows (hi : i.isRouter = false) :
    (follows i n a r).filterMap Action.retainedTopic = [] ∨
      ∃ topic entry, (follows i n a r).filterMap Action.retainedTopic = [topic] ∧
        retainedOperation (.act i a r) = some (topic, entry) := by
  cases i with
  | router life => cases hi
  | web k => exact .inl rfl
  | connection k =>
    cases a with
    | sessionsInsert clientId session =>
      left
      simp only [follows, connectionFollows]
      cases n.will clientId <;> rfl
    | retainedIter =>
      left
      exact List.filterMap_eq_nil_iff.mpr fun b hb => by
        obtain ⟨item, -, rfl⟩ := List.mem_map.mp hb
        rfl
    | sendRouter message =>
      cases message with
      | ClientDisconnected clientId cleanSession => exact .inl rfl
      | Publish topic payload qos retain sourceClient =>
        cases retain with
        | false => exact .inl rfl
        | true =>
          refine .inr ⟨topic, _, ?_, rfl⟩
          simp only [follows, connectionFollows]
          split <;> rfl
    | _ => exact .inl rfl
  | request m =>
    cases a with
    | sendRouter message =>
      cases message with
      | ClientDisconnected clientId cleanSession => exact .inl rfl
      | Publish topic payload qos retain sourceClient =>
        cases retain with
        | false => exact .inl rfl
        | true =>
          cases hempty : payload.isEmpty with
          | true =>
            left
            simp [follows, requestFollows, hempty]
          | false =>
            refine .inr ⟨topic, _, ?_, rfl⟩
            simp [follows, requestFollows, hempty, Action.retainedTopic]
    | retainedContains topic =>
      cases r with
      | false => exact .inl rfl
      | true => exact .inr ⟨topic, none, rfl, rfl⟩
    | _ => exact .inl rfl

theorem operation_of_follows (hi : i.isRouter = false) {b : Action} (hb : b ∈ follows i n a r)
    (hwrite : b.retainedTopic = some topic) : ∃ entry, retainedOperation (.act i a r) = some (topic, entry) := by
  have hmem : topic ∈ (follows i n a r).filterMap Action.retainedTopic := List.mem_filterMap.mpr ⟨b, hb, hwrite⟩
  rcases writes_follows (n := n) (a := a) (r := r) hi with hnone | ⟨topic', entry, hone, hoperation⟩
  · rw [hnone] at hmem
    cases hmem
  · rw [hone, List.mem_singleton] at hmem
    subst hmem
    exact ⟨entry, hoperation⟩

theorem not_operation_of_router {owes : List Action} {life : ℕ} (hacts : Acts (.router life) n owes a r owes') :
    retainedOperation (.act (.router life) a r) = none := by
  have hbegun : a.listed = true → ¬ Owable (.router life) a → a = .recvRouter := by
    intro hlisted howable
    have hbegins := (hacts.begun hlisted howable).2.1
    cases a <;> first | rfl | exact hbegins.elim
  cases a with
  | sendRouter message => cases hbegun rfl (by exact id)
  | retainedContains topic => cases hbegun rfl (by exact id)
  | _ => rfl

end

/-- What holds under a topic after the operations so far. -/
structure Follows (topic : String) (evs : List BrokerEvent) (node : Node) (owes : ThreadId → List Action) : Prop where
  settled : (∀ j, j.isRouter = false → .retainedRemove topic ∉ owes j) →
    (outlook owes node).lookup topic = (applied evs).lookup topic
  inserts : ∀ j message, j.isRouter = false → .retainedInsert topic message ∈ owes j →
    (outlook owes node).lookup topic = some message ∧ (applied evs).lookup topic = some message
  removes : ∀ j, j.isRouter = false → .retainedRemove topic ∈ owes j → (applied evs).lookup topic = none

section
variable {topic : String} {evs evs' : List BrokerEvent} {node node' : Node} {owes : ThreadId → List Action} {i : ThreadId}
  {owes' : List Action}

theorem Follows.skip (h : Follows topic evs node owes) (happlied : applied evs' = applied evs)
    (hout : outlook owes node' = outlook owes node) : Follows topic evs' node' owes where
  settled := by
    rw [happlied, hout]
    exact h.settled
  inserts := by
    rw [happlied, hout]
    exact h.inserts
  removes := by
    rw [happlied]
    exact h.removes

theorem Follows.frame (h : Follows topic evs node owes)
    (hfewer : i.isRouter = false → ∀ b, b.retainedTopic = some topic → b ∈ owes' → b ∈ owes i)
    (hremove : i.isRouter = false → .retainedRemove topic ∈ owes i → .retainedRemove topic ∈ owes')
    (hout : (outlook (Function.update owes i owes') node').lookup topic = (outlook owes node).lookup topic)
    (happlied : (applied evs').lookup topic = (applied evs).lookup topic) :
    Follows topic evs' node' (Function.update owes i owes') := by
  have howed : ∀ j b, j.isRouter = false → b.retainedTopic = some topic →
      b ∈ Function.update owes i owes' j → b ∈ owes j := by
    intro j b hj hb hmem
    by_cases hji : j = i
    · subst hji
      rw [Function.update_self] at hmem
      exact hfewer hj b hb hmem
    · rw [Function.update_of_ne hji] at hmem
      exact hmem
  constructor
  · intro hnone
    rw [hout, happlied]
    apply h.settled
    intro j hj hmem
    apply hnone j hj
    by_cases hji : j = i
    · subst hji
      rw [Function.update_self]
      exact hremove hj hmem
    · rw [Function.update_of_ne hji]
      exact hmem
  · intro j message hj hmem
    rw [hout, happlied]
    exact h.inserts j message hj (howed j _ hj rfl hmem)
  · intro j hj hmem
    rw [happlied]
    exact h.removes j hj (howed j _ hj rfl hmem)

theorem Follows.of_begun (hothers : ∀ j, j ≠ i → j.isRouter = false → ∀ b ∈ owes j, b.retainedTopic = none)
    (hi : i.isRouter = false)
    (hsettled : .retainedRemove topic ∉ owes' →
      (outlook (Function.update owes i owes') node').lookup topic = (applied evs').lookup topic)
    (hinserts : ∀ message, .retainedInsert topic message ∈ owes' →
      (outlook (Function.update owes i owes') node').lookup topic = some message ∧
        (applied evs').lookup topic = some message)
    (hremoves : .retainedRemove topic ∈ owes' → (applied evs').lookup topic = none) :
    Follows topic evs' node' (Function.update owes i owes') := by
  have howed : ∀ j b, j.isRouter = false → b.retainedTopic = some topic →
      b ∈ Function.update owes i owes' j → b ∈ owes' := by
    intro j b hj hb hmem
    by_cases hji : j = i
    · subst hji
      rw [Function.update_self] at hmem
      exact hmem
    · rw [Function.update_of_ne hji] at hmem
      rw [hothers j hji hj b hmem] at hb
      cases hb
  constructor
  · intro hnone
    apply hsettled
    have := hnone i hi
    rwa [Function.update_self] at this
  · intro j message hj hmem
    exact hinserts message (howed j _ hj rfl hmem)
  · intro j hj hmem
    exact hremoves (howed j _ hj rfl hmem)

end

section
variable {topic : String} {evs : List BrokerEvent} {cfg : BrokerConfigState} {node' : Node} {i : ThreadId} {n : Note}
  {a : Action} {r : Reply a} {input : Input} {owes' : List Action}

theorem outlookAfter_router {life : ℕ} {before : Option RetainedMessage}
    (hacts : Acts (.router life) n (owed evs cfg (.router life)) a r owes')
    (hissued : issued evs cfg (.act (.router life) a r) = true) (waits : Bool) :
    outlookAfter waits topic before (.router life) a r = before := by
  cases a with
  | willsRemove clientId =>
    cases r with
    | none => rfl
    | some sent =>
      have hretain : sent.2.retain = false := by
        simpa [issued, retainedOperation] using hissued
      simp [outlookAfter, hretain]
  | sendRouter message => exact (hacts.never rfl id id).elim
  | retainedRemove topic' => exact (hacts.never rfl id id).elim
  | _ => rfl

theorem outlookAfter_elsewhere {before : Option RetainedMessage} (hi : i.isRouter = false)
    (hoperation : ∀ entry, retainedOperation (.act i a r) ≠ some (topic, entry)) (hwrite : a.retainedTopic ≠ some topic)
    (waits : Bool) : outlookAfter waits topic before i a r = before := by
  cases a with
  | willsRemove clientId =>
    cases r <;> cases i <;> first | rfl | cases hi
  | sendRouter message =>
    cases message with
    | ClientDisconnected clientId cleanSession => rfl
    | Publish topic' payload qos retain sourceClient =>
      cases retain with
      | false => rfl
      | true =>
        have htopic : topic' ≠ topic := by
          intro heq
          subst heq
          exact hoperation _ rfl
        exact if_neg htopic
  | retainedInsert topic' message =>
    have htopic : topic' ≠ topic := fun heq => hwrite (congrArg some heq)
    cases i <;> simp [outlookAfter, htopic]
  | retainedRemove topic' =>
    have htopic : topic' ≠ topic := fun heq => hwrite (congrArg some heq)
    simp [outlookAfter, htopic]
  | _ => rfl

theorem write_owed {topic' : String} (hacts : Acts i n (owed evs cfg i) a r owes')
    (hwrite : a.retainedTopic = some topic') : owed evs cfg i = a :: owes' := by
  have hlisted : a.listed = true := by
    cases a <;> first | rfl | cases hwrite
  have howable : Owable i a := by
    by_contra hnot
    have hbegins := (hacts.begun hlisted hnot).2.1
    cases i <;> cases a <;> first | exact hbegins.elim | cases hwrite
  have hfollows : follows i (n.next a r) a r = [] := by
    cases i <;> cases a <;> first | rfl | cases hwrite
  obtain ⟨rest, howes, howes'⟩ := hacts.owed hlisted howable
  rw [hfollows, List.nil_append] at howes'
  rw [howes, howes']

theorem Follows.write (h : Follows topic evs cfg.shared (owed evs cfg)) (hi : i.isRouter = false)
    (hacts : Acts i n (owed evs cfg i) a r owes') (horderly : orderly topic evs cfg (.act i a r) = true)
    (hwrite : a.retainedTopic = some topic)
    (hout : (outlook (Function.update (owed evs cfg) i owes') node').lookup topic =
      outlookAfter (waits (owed evs cfg) cfg.shared topic) topic ((outlook (owed evs cfg) cfg.shared).lookup topic) i a r)
    (happlied : (applied (evs ++ [.act i a r])).lookup topic = (applied evs).lookup topic) :
    Follows topic (evs ++ [.act i a r]) node' (Function.update (owed evs cfg) i owes') := by
  have howes := write_owed hacts hwrite
  have hmem : ∀ b, b ∈ owes' → b ∈ owed evs cfg i := by
    intro b hb
    rw [howes]
    exact List.mem_cons_of_mem _ hb
  cases a with
  | retainedInsert topic' message =>
    obtain rfl : topic' = topic := Option.some.inj hwrite
    have hbefore := h.inserts i message hi (howes ▸ List.mem_cons_self)
    apply h.frame (fun _ b _ => hmem b) _ _ happlied
    · intro _ hold
      rw [howes] at hold
      cases hold with
      | tail _ hold => exact hold
    · rw [hout, hbefore.1]
      cases i <;> simp [outlookAfter]
  | retainedRemove topic' =>
    obtain rfl : topic' = topic := Option.some.inj hwrite
    have happlied' := h.removes i hi (howes ▸ List.mem_cons_self)
    have hwaits : waits (owed evs cfg) cfg.shared topic' = false := by
      simpa [orderly] using horderly
    have hout' : (outlook (Function.update (owed evs cfg) i owes') node').lookup topic' = none := by
      rw [hout, hwaits]
      simp [outlookAfter]
    have hold : ∀ j b, b ∈ Function.update (owed evs cfg) i owes' j → b ∈ owed evs cfg j := by
      intro j b hb
      by_cases hji : j = i
      · subst hji
        rw [Function.update_self] at hb
        exact hmem b hb
      · rw [Function.update_of_ne hji] at hb
        exact hb
    constructor
    · intro _
      rw [hout', happlied, happlied']
    · intro j message hj hb
      have hsome := (h.inserts j message hj (hold j _ hb)).2
      rw [happlied'] at hsome
      cases hsome
    · intro j hj hb
      rw [happlied]
      exact h.removes j hj (hold j _ hb)
  | _ => cases hwrite

theorem operation_begins {entry : Option RetainedMessage} (hacts : Acts i n (owed evs cfg i) a r owes')
    (hoperation : retainedOperation (.act i a r) = some (topic, entry)) :
    owed evs cfg i = [] ∧ Begins i a ∧ owes' = follows i (n.next a r) a r := by
  apply hacts.begun
  · cases a <;> first | rfl | cases hoperation
  · intro howable
    cases i <;> cases a <;> first | exact howable.elim | cases hoperation

/-- What a DELETE does not find will not come back. -/
theorem outlook_of_missing {topic : String} (hperform : cfg.shared.perform i (.retainedContains topic) input = some (node', false))
    (horderly : orderly topic evs cfg (.act i (.retainedContains topic) false) = true) :
    (outlook (owed evs cfg) cfg.shared).lookup topic = none := by
  have hmissing : (cfg.shared.shared.broker.retained.lookup topic).isSome = false := by
    obtain ⟨⟨shared, r'⟩, hreply, heq⟩ := Option.map_eq_some_iff.mp hperform
    cases heq
    exact (Prod.mk.inj (Option.some.inj hreply)).2
  have hwaits : waits (owed evs cfg) cfg.shared topic = false := by
    simpa [orderly, hmissing] using horderly
  rw [outlook, caughtUp_absent hwaits]
  exact Option.not_isSome_iff_eq_none.mp (by simp [hmissing])

theorem Follows.publish (hothers : ∀ j, j ≠ i → j.isRouter = false → ∀ b ∈ owed evs cfg j, b.retainedTopic = none)
    (hi : i.isRouter = false) {payload : Bytes} {qos : QoS} {sourceClient : String}
    {r : Reply (.sendRouter (.Publish topic payload qos true sourceClient))}
    (hbegins : Begins i (.sendRouter (.Publish topic payload qos true sourceClient)))
    (horderly : orderly topic evs cfg (.act i (.sendRouter (.Publish topic payload qos true sourceClient)) r) = true)
    (howes' : owes' = follows i (n.next (.sendRouter (.Publish topic payload qos true sourceClient)) r)
      (.sendRouter (.Publish topic payload qos true sourceClient)) r)
    (hout' : (outlook (Function.update (owed evs cfg) i owes') node').lookup topic = some { topic, payload, qos })
    {evs' : List BrokerEvent}
    (happlied : (applied evs').lookup topic = if payload.isEmpty then none else some { topic, payload, qos }) :
    Follows topic evs' node' (Function.update (owed evs cfg) i owes') := by
  subst howes'
  cases hempty : payload.isEmpty with
  | true =>
    -- the removal is still owed
    rw [hempty, if_pos rfl] at happlied
    cases i with
    | connection k =>
      have hfollows : follows (.connection k) (n.next (.sendRouter (.Publish topic payload qos true sourceClient)) r)
          (.sendRouter (.Publish topic payload qos true sourceClient)) r =
            [.retainedRemove topic, .sendEvent (.RemoveRetained topic)] := by
        simp [follows, connectionFollows, hempty]
      rw [hfollows] at hout' ⊢
      apply Follows.of_begun hothers hi
      · intro hnot
        exact absurd List.mem_cons_self hnot
      · intro message hmem
        simp at hmem
      · intro _
        exact happlied
    | request m => simp [orderly, hempty] at horderly
    | _ => exact hbegins.elim
  | false =>
    rw [hempty, if_neg (by decide)] at happlied
    have hfollows : ∀ b ∈ follows i (n.next (.sendRouter (.Publish topic payload qos true sourceClient)) r)
        (.sendRouter (.Publish topic payload qos true sourceClient)) r, b.retainedTopic = some topic →
        b = .retainedInsert topic { topic, payload, qos } := by
      intro b hb hwrite
      cases i with
      | connection k =>
        simp only [follows, connectionFollows, hempty] at hb
        cases hb with
        | head => rfl
        | tail _ hb =>
          cases List.mem_singleton.mp hb
          cases hwrite
      | request m =>
        simp only [follows, requestFollows, hempty] at hb
        exact List.mem_singleton.mp hb
      | _ => exact hbegins.elim
    apply Follows.of_begun hothers hi
    · intro _
      rw [hout', happlied]
    · intro message hmem
      cases hfollows _ hmem rfl
      exact ⟨hout', happlied⟩
    · intro hmem
      cases hfollows _ hmem rfl

theorem Follows.delete (hothers : ∀ j, j ≠ i → j.isRouter = false → ∀ b ∈ owed evs cfg j, b.retainedTopic = none)
    (hi : i.isRouter = false) {found : Bool} (hbegins : Begins i (.retainedContains topic))
    (hperform : cfg.shared.perform i (.retainedContains topic) input = some (node', found))
    (horderly : orderly topic evs cfg (.act i (.retainedContains topic) found) = true)
    (howes' : owes' = follows i (n.next (.retainedContains topic) found) (.retainedContains topic) found)
    (hout : (outlook (Function.update (owed evs cfg) i owes') node').lookup topic =
      (outlook (owed evs cfg) cfg.shared).lookup topic)
    {evs' : List BrokerEvent} (happlied : (applied evs').lookup topic = none) :
    Follows topic evs' node' (Function.update (owed evs cfg) i owes') := by
  subst howes'
  cases i with
  | request m =>
    cases found with
    | true =>
      apply Follows.of_begun hothers hi
      · intro hnot
        exact absurd List.mem_cons_self hnot
      · intro message hmem
        simp [follows, requestFollows] at hmem
      · intro _
        exact happlied
    | false =>
      apply Follows.of_begun hothers hi
      · intro _
        rw [hout, happlied]
        exact outlook_of_missing hperform horderly
      · intro message hmem
        cases hmem
      · intro hmem
        cases hmem
  | _ => exact hbegins.elim

theorem Follows.operation (hi : i.isRouter = false) (hacts : Acts i n (owed evs cfg i) a r owes')
    (hperform : cfg.shared.perform i a input = some (node', r)) (hissued : issued evs cfg (.act i a r) = true)
    (horderly : orderly topic evs cfg (.act i a r) = true)
    {entry : Option RetainedMessage} (hoperation : retainedOperation (.act i a r) = some (topic, entry))
    (hout : (outlook (Function.update (owed evs cfg) i owes') node').lookup topic =
      outlookAfter (waits (owed evs cfg) cfg.shared topic) topic ((outlook (owed evs cfg) cfg.shared).lookup topic) i a r)
    (happlied : (applied (evs ++ [.act i a r])).lookup topic = entry) :
    Follows topic (evs ++ [.act i a r]) node' (Function.update (owed evs cfg) i owes') := by
  have hidle : idle evs cfg = true := by
    have hfirst := (Bool.and_eq_true_iff.mp hissued).1
    rw [hoperation] at hfirst
    exact hfirst
  obtain ⟨-, hbegins, rfl⟩ := operation_begins hacts hoperation
  have hothers : ∀ j, j ≠ i → j.isRouter = false → ∀ b ∈ owed evs cfg j, b.retainedTopic = none :=
    fun j _ hj => not_owed_of_idle hidle hj
  cases a with
  | sendRouter message =>
    obtain ⟨payload, qos, sourceClient, rfl, rfl⟩ : ∃ payload qos sourceClient,
        message = .Publish topic payload qos true sourceClient ∧
          entry = if payload.isEmpty then none else some { topic, payload, qos } := by
      cases message with
      | ClientDisconnected clientId cleanSession => cases hoperation
      | Publish topic' payload qos retain sourceClient =>
        cases retain with
        | false => cases hoperation
        | true =>
          cases hoperation
          exact ⟨payload, qos, sourceClient, rfl, rfl⟩
    exact Follows.publish hothers hi hbegins horderly rfl (hout.trans (if_pos rfl)) happlied
  | retainedContains topic' =>
    obtain ⟨rfl, rfl⟩ : topic' = topic ∧ entry = none := by
      cases hoperation
      exact ⟨rfl, rfl⟩
    exact Follows.delete hothers hi hbegins hperform horderly rfl hout happlied
  | _ => cases hoperation

theorem Follows.act (h : Follows topic evs cfg.shared (owed evs cfg))
    (hlife : ∀ life, i = .router life → life = cfg.shared.life) (hacts : Acts i n (owed evs cfg i) a r owes')
    (hperform : cfg.shared.perform i a input = some (node', r)) (hissued : issued evs cfg (.act i a r) = true)
    (horderly : orderly topic evs cfg (.act i a r) = true) :
    Follows topic (evs ++ [.act i a r]) node' (Function.update (owed evs cfg) i owes') := by
  have hout : (outlook (Function.update (owed evs cfg) i owes') node').lookup topic = _ :=
    outlook_act hlife hacts hperform
  have happlied : (applied (evs ++ [.act i a r])).lookup topic = _ := applied_snoc (.act i a r)
  cases hi : i.isRouter with
  | true =>
    cases i with
    | router life =>
      rw [outlookAfter_router hacts hissued] at hout
      rw [not_operation_of_router hacts] at happlied
      exact h.frame nofun nofun hout happlied
    | _ => cases hi
  | false =>
    by_cases hoperation : ∃ entry, retainedOperation (.act i a r) = some (topic, entry)
    · obtain ⟨entry, hoperation⟩ := hoperation
      simp only [hoperation, if_true] at happlied
      exact Follows.operation hi hacts hperform hissued horderly hoperation hout happlied
    · have hnot : ∀ entry, retainedOperation (.act i a r) ≠ some (topic, entry) := fun entry h => hoperation ⟨entry, h⟩
      have hsame : (applied (evs ++ [.act i a r])).lookup topic = (applied evs).lookup topic := by
        rw [happlied]
        split
        · rename_i topic' entry heq
          apply if_neg
          intro htopic
          subst htopic
          exact hnot entry heq
        · rfl
      by_cases hwrite : a.retainedTopic = some topic
      · exact h.write hi hacts horderly hwrite hout hsame
      · rw [outlookAfter_elsewhere hi hnot hwrite] at hout
        have hmem : ∀ b, b.retainedTopic = some topic → (b ∈ owes' ↔ b ∈ owed evs cfg i) := fun b hb =>
          hacts.mem_iff (p := fun b => b.retainedTopic = some topic)
            (fun b hb hb' => hoperation (operation_of_follows hi hb hb')) hwrite hb
        exact h.frame (fun _ b hb => (hmem b hb).mp) (fun _ => (hmem _ rfl).mpr) hout hsame

end

theorem follows_of_run {settings : Settings} {topic : String} {evs : List BrokerEvent} {cfg : BrokerConfigState}
    (hrun : (brokerSystem settings).RunWhere
      (fun evs cfg e _ => issued evs cfg e = true ∧ orderly topic evs cfg e = true) initial evs cfg) :
    Follows topic evs cfg.shared (owed evs cfg) := by
  apply owed_induction (J := Follows topic) _ _ _ _ _ hrun
  · constructor
    · intro _
      rfl
    · intro j message _ hmem
      cases hmem
    · intro j _ hmem
      cases hmem
  · intro evs cfg i c _ _ ih
    exact ih.skip (List.foldl_append.trans rfl) rfl
  · intro evs cfg cfg' i a r input owes' _ _ hstep hlife hacts hperform ih
    exact ih.act hlife hacts hperform hstep.1 hstep.2
  · intro evs node owes m ih
    exact ih.skip (List.foldl_append.trans rfl) rfl
  · intro evs cfg cfg' _ hstep _
    cases hstep.1

/-- Whatever is issued and whenever the router comes to it, a topic whose removals do not overtake the
    router has in the end the entry that the operations leave, and never an empty one. -/
theorem retainedStore_applied {settings : Settings} {topic : String} {evs : List BrokerEvent} {cfg : BrokerConfigState}
    (hrun : (brokerSystem settings).RunWhere
      (fun evs cfg e _ => issued evs cfg e = true ∧ orderly topic evs cfg e = true) initial evs cfg)
    (hdrained : drained evs cfg = true) :
    cfg.shared.shared.broker.retained.lookup topic = (applied evs).lookup topic ∧
      ∀ message, cfg.shared.shared.broker.retained.lookup topic = some message → message.payload.isEmpty = false := by
  obtain ⟨hqueue, hnone⟩ := Bool.and_eq_true_iff.mp hdrained
  have howed : ∀ j, ∀ b ∈ owed evs cfg j, b.retainedTopic = none := by
    intro j b hb
    by_cases hactor : j ∈ actors evs
    · exact Option.isNone_iff_eq_none.mp (List.all_eq_true.mp (List.all_eq_true.mp hnone j hactor) b hb)
    · rw [owed_of_idle hactor] at hb
      cases hb
  have hbacklog : backlog (owed evs cfg) cfg.shared = [] := by
    rw [backlog, List.isEmpty_iff.mp hqueue, List.filterMap_nil, List.append_nil, List.filterMap_eq_nil_iff]
    intro b hb
    have hb' := howed _ b hb
    cases b <;> first | rfl | cases hb'
  have hentry : cfg.shared.shared.broker.retained.lookup topic = (applied evs).lookup topic := by
    have hsettled := (follows_of_run hrun).settled fun j _ hmem => by
      have := howed j _ hmem
      cases this
    rw [outlook, hbacklog] at hsettled
    exact hsettled
  refine ⟨hentry, ?_⟩
  intro message hmessage
  rw [hentry] at hmessage
  exact applied_nonempty hmessage

def retainedPublish (payload : Bytes) : V3.PublishPacket where
  topic := "t"
  payload := payload
  qos := .AtMostOnce
  retain := true
  packetId := none

def deletedMoves : List BrokerMove :=
  [.spawn (.router 0) .router, .spawn (.connection 0) .tcp, .spawn (.request 0) (.deleteRetainedRequest "t"),
    .spawn (.request 1) (.publishRequest "t" "y" 0 true),
    .act (.connection 0) (.received (.data (sentBytes (.V311 (.Connect (plainConnectV3 "c" true none))))))] ++
  turns (.connection 0) 8 ++
  [.act (.connection 0) (.received (.data (sentBytes (.V311 (.Publish (retainedPublish [0x78]))))))] ++
  turns (.connection 0) 6 ++ turns (.router 0) 4 ++ turns (.request 0) 3 ++ turns (.request 1) 4 ++ turns (.router 0) 4

theorem retainedStore_deleted : ∃ evs cfg, (brokerSystem openSettings).Run initial evs cfg ∧
    evs.filterMap retainedOperation =
      [("t", some { topic := "t", payload := [0x78], qos := .AtMostOnce }), ("t", none),
        ("t", some { topic := "t", payload := [0x79], qos := .AtMostOnce })] ∧
    cfg.shared.shared.broker.retained.lookup "t" = some { topic := "t", payload := [0x79], qos := .AtMostOnce } := by
  have hrun : ((brokerSystem openSettings).execWhere (fun evs cfg e _ => issued evs cfg e && orderly "t" evs cfg e)
      [] initial deletedMoves).map (fun r => (drained r.1 r.2, r.1.filterMap retainedOperation, (applied r.1).lookup "t")) =
      some (true, [("t", some { topic := "t", payload := [0x78], qos := .AtMostOnce }), ("t", none),
        ("t", some { topic := "t", payload := [0x79], qos := .AtMostOnce })],
        some { topic := "t", payload := [0x79], qos := .AtMostOnce }) := by decide +kernel
  obtain ⟨⟨evs, cfg⟩, hexec, heq⟩ := Option.map_eq_some_iff.mp hrun
  simp only [Prod.mk.injEq] at heq
  obtain ⟨hdrained, hoperations, happlied⟩ := heq
  have hwhere : (brokerSystem openSettings).RunWhere
      (fun evs cfg e _ => issued evs cfg e = true ∧ orderly "t" evs cfg e = true) initial evs cfg :=
    System.execWhere_run _ (fun _ _ _ _ h => Bool.and_eq_true_iff.mp h) .nil hexec
  refine ⟨evs, cfg, System.execWhere_run _ (fun _ _ _ _ _ => trivial) .nil hexec, hoperations, ?_⟩
  rw [(retainedStore_applied hwhere hdrained).1, happlied]

def overtakenMoves : List BrokerMove :=
  [.spawn (.router 0) .router, .spawn (.request 0) (.publishRequest "t" "x" 0 true),
    .spawn (.request 1) (.deleteRetainedRequest "t")] ++
  turns (.request 0) 4 ++ turns (.request 1) 3 ++ turns (.router 0) 4

/-- The deleted message comes back. -/
theorem retainedStore_comesBack : ¬ ∀ evs cfg, (brokerSystem openSettings).RunWhere
      (fun evs cfg e _ => issued evs cfg e = true) initial evs cfg → drained evs cfg = true →
    ∀ topic, cfg.shared.shared.broker.retained.lookup topic = (applied evs).lookup topic := by
  have hrun : ((brokerSystem openSettings).execWhere (fun evs cfg e _ => issued evs cfg e) [] initial overtakenMoves).map
      (fun r => (drained r.1 r.2, r.2.shared.shared.broker.retained.lookup "t", (applied r.1).lookup "t")) =
      some (true, some { topic := "t", payload := [0x78], qos := .AtMostOnce }, none) := by decide +kernel
  obtain ⟨⟨evs, cfg⟩, hexec, heq⟩ := Option.map_eq_some_iff.mp hrun
  simp only [Prod.mk.injEq] at heq
  obtain ⟨hdrained, hretained, happlied⟩ := heq
  intro hstore
  have h := hstore evs cfg (System.execWhere_run _ (fun _ _ _ _ h => h) .nil hexec) hdrained "t"
  rw [hretained, happlied] at h
  cases h

end AtomMqtt
