import AtomMqtt.Journal
import AtomMqtt.Routing

set_option autoImplicit false

/-! Order, completeness and soundness of the router. The router takes one message after the other, and each
connection has one channel: what it puts there comes in the order in which the messages were sent, is due to one
of them, and misses none whom it finds. -/
namespace AtomMqtt
open Programs

def Action.forwarded : Action → Option (String × MqttPacket)
  | .forward clientId packet => some (clientId, packet)
  | _ => none

namespace Handling

def content (h : Handling) : Option (String × MqttPacket) :=
  match h.message, h.will with
  | .Publish topic payload _ _ _, _ => some (topic, publishPacket topic payload false)
  | .ClientDisconnected _ _, some (_, will) => some (will.topic, publishPacket will.topic will.payload will.retain)
  | .ClientDisconnected _ _, none => none

def offers (h : Handling) : List (String × MqttPacket) :=
  match h.content, h.looked with
  | some (_, packet), some l => l.subscribers.map fun sub => (sub.clientId, packet)
  | _, _ => []

def visited (h : Handling) : List (String × MqttPacket) := h.visits.map fun v => (v.clientId, v.packet)

/-- What the router has put in the channel of the connection for the message, which is the `n`-th. -/
def reached (h : Handling) (k : ConnId) (n : ℕ) : List (ℕ × MqttPacket) :=
  h.visits.filterMap fun v => if v.connection = some k then some (n, v.packet) else none

/-- The router has looked up the topic of the message, and come to those it has found one after the other. -/
structure Sound (h : Handling) : Prop where
  visited : h.visited <+: h.offers
  looked : ∀ l, h.looked = some l → ∃ packet, h.content = some (l.topic, packet)

structure Complete (h : Handling) : Prop where
  visited : h.visited = h.offers
  looked : ∀ topic packet, h.content = some (topic, packet) → ∃ l, h.looked = some l ∧ l.topic = topic

structure Noted (h : Handling) (n : Note) (w : Work) : Prop where
  message : n.message = some h.origin
  taken : n.taken = h.will
  looked : w.looked = h.looked.map fun l => (l.topic, l.subscribers)
  visited : w.published.filterMap Action.forwarded = h.visited

end Handling

/-- The message that the router works on, and its notes. -/
def Tracks (current : Option Handling) (n : Note) (w : Work) : Prop :=
  match current with
  | none => n.message = none
  | some h => h.Noted n w

section
variable {h : Handling} {n : Note} {w : Work} {owes : List Action}

theorem Handling.Noted.topic (hnoted : h.Noted n w) : n.topic = h.content.map Prod.fst := by
  obtain ⟨time, sender, message, will, looked, visits⟩ := h
  have hmessage : n.message = some (sender, message) := hnoted.message
  have htaken : n.taken = will := hnoted.taken
  cases message with
  | Publish topic payload qos retain sourceClient => simp only [Note.topic, hmessage, Handling.content, Option.map_some]
  | ClientDisconnected clientId cleanSession =>
    cases will with
    | none => simp only [Note.topic, hmessage, htaken, Handling.content, Option.map_none]
    | some sent => simp only [Note.topic, hmessage, htaken, Handling.content, Option.map_some]

theorem filterMap_forwardAll (packet : MqttPacket) (web : WebMessage) (subscribers : List Subscription) :
    (forwardAll packet web subscribers).filterMap Action.forwarded =
      subscribers.map fun sub => (sub.clientId, packet) := by
  rw [forwardAll, List.filterMap_append, List.filterMap_map, List.filterMap_map]
  have hforwards : (Action.forwarded ∘ fun sub : Subscription => .forward sub.clientId packet) =
      fun sub : Subscription => some (sub.clientId, packet) := rfl
  have hweb : (Action.forwarded ∘ fun sub : Subscription => .forwardWeb sub.clientId web) =
      fun _ : Subscription => none := rfl
  rw [hforwards, hweb]
  simp

theorem filterMap_retains (retain : Bool) (message : RetainedMessage) :
    (retains retain message).filterMap Action.forwarded = [] := by
  cases retain <;> rfl

theorem Handling.Noted.publication (hnoted : h.Noted n w) {topic : String} {packet : MqttPacket}
    (hcontent : h.content = some (topic, packet)) (subscribers : List Subscription) :
    (n.publication subscribers).filterMap Action.forwarded = subscribers.map fun sub => (sub.clientId, packet) := by
  obtain ⟨time, sender, message, will, looked, visits⟩ := h
  have hmessage : n.message = some (sender, message) := hnoted.message
  have htaken : n.taken = will := hnoted.taken
  rw [Note.publication, List.filterMap_append]
  cases message with
  | Publish topic' payload qos retain sourceClient =>
    cases hcontent
    simp only [Note.forwards, Note.retained, hmessage, filterMap_retains, List.append_nil]
    exact filterMap_forwardAll _ _ _
  | ClientDisconnected clientId cleanSession =>
    cases will with
    | none => cases hcontent
    | some sent =>
      cases hcontent
      simp only [Note.forwards, Note.retained, hmessage, htaken, filterMap_retains, List.append_nil]
      exact filterMap_forwardAll _ _ _

theorem Handling.Noted.offers_of_sending (hnoted : h.Noted n w) {topic : String} {subscribers : List Subscription}
    (htopic : n.topic = some topic) (hlooked : w.looked = some (topic, subscribers)) :
    (∃ l packet, h.looked = some l ∧ h.content = some (l.topic, packet) ∧ l.topic = topic) ∧
      (n.publication subscribers).filterMap Action.forwarded = h.offers := by
  rw [hnoted.topic, Option.map_eq_some_iff] at htopic
  obtain ⟨⟨topic', packet⟩, hcontent, rfl⟩ := htopic
  rw [hnoted.looked, Option.map_eq_some_iff] at hlooked
  obtain ⟨l, hl, heq⟩ := hlooked
  cases heq
  refine ⟨⟨l, packet, hl, hcontent, rfl⟩, ?_⟩
  rw [hnoted.publication hcontent, Handling.offers, hcontent, hl]

theorem Handling.Noted.sound (hnoted : h.Noted n w) (hrouting : Routing n owes w) : h.Sound := by
  have hstart : w = Work.start → h.Sound := by
    intro hwork
    subst hwork
    have hlooked : h.looked = none := by
      have hnone := hnoted.looked
      rw [eq_comm, Work.start, Option.map_eq_none_iff] at hnone
      exact hnone
    refine ⟨?_, ?_⟩
    · rw [← hnoted.visited]
      exact List.nil_prefix
    · intro l hl
      rw [hlooked] at hl
      cases hl
  cases hrouting with
  | asking _ _ _ _ hwork => exact hstart hwork
  | looking _ _ _ _ hwork => exact hstart hwork
  | silent _ _ _ hwork => exact hstart hwork
  | sending htopic hlooked _ hpublished =>
    obtain ⟨⟨l, packet, hl, hcontent, -⟩, hoffers⟩ := hnoted.offers_of_sending htopic hlooked
    refine ⟨?_, ?_⟩
    · rw [← hoffers, ← hpublished, List.filterMap_append, hnoted.visited]
      exact List.prefix_append _ _
    · intro l' hl'
      rw [hl] at hl'
      cases hl'
      exact ⟨packet, hcontent⟩

theorem Handling.Noted.complete (hnoted : h.Noted n w) (hrouting : Routing n [] w) : h.Complete := by
  cases hrouting with
  | asking _ howes _ _ _ => cases howes
  | looking _ howes _ _ _ => cases howes
  | silent htopic _ _ hwork =>
    subst hwork
    have hcontent : h.content = none := by
      rw [hnoted.topic, Option.map_eq_none_iff] at htopic
      exact htopic
    refine ⟨?_, ?_⟩
    · rw [← hnoted.visited, Handling.offers, hcontent]
      rfl
    · intro topic packet heq
      rw [hcontent] at heq
      cases heq
  | sending htopic hlooked _ hpublished =>
    obtain ⟨⟨l, packet, hl, hcontent, -⟩, hoffers⟩ := hnoted.offers_of_sending htopic hlooked
    refine ⟨?_, ?_⟩
    · rw [← hoffers, ← hpublished, List.filter_nil, List.append_nil, hnoted.visited]
    · intro topic' packet' heq
      rw [hcontent] at heq
      cases heq
      exact ⟨l, hl, rfl⟩

end

namespace Journal

/-- What the router has put in the channel of a connection, each with the place of the message it stems from. -/
def live (j : Journal) (k : ConnId) : List (ℕ × MqttPacket) :=
  (j.arrived k).filterMap fun arrival => arrival.stem.map fun n => (n, arrival.packet)

def delivered (j : Journal) (k : ConnId) : List (ℕ × MqttPacket) :=
  j.handled.zipIdx.flatMap fun entry => entry.1.reached k entry.2

structure Keeps (j : Journal) (queue : List (ThreadId × BrokerMessage)) (n : Note) (w : Work) : Prop where
  sent : j.sent = j.handled.map Handling.origin ++ queue
  current : Tracks j.current n w
  done : ∀ h ∈ j.done, h.Sound ∧ h.Complete
  live : ∀ k, j.live k = j.delivered k

variable {j j' : Journal} {queue : List (ThreadId × BrokerMessage)} {n n' : Note} {w w' : Work} {k : ConnId}
  {i : ThreadId} {a : Action} {r : Reply a}

theorem delivered_none (hcurrent : j.current = none) :
    j.delivered k = j.done.zipIdx.flatMap fun entry => entry.1.reached k entry.2 := by
  rw [delivered, handled, hcurrent, Option.toList_none, List.append_nil]

theorem delivered_some {h : Handling} (hcurrent : j.current = some h) : j.delivered k =
    (j.done.zipIdx.flatMap fun entry => entry.1.reached k entry.2) ++ h.reached k j.done.length := by
  rw [delivered, handled, hcurrent, Option.toList_some, List.zipIdx_append, List.flatMap_append]
  simp

theorem start_keeps : Journal.start.Keeps [] Note.start Work.start :=
  ⟨rfl, rfl, List.forall_mem_nil _, fun _ => rfl⟩

theorem Keeps.frame (hk : j.Keeps queue n w) (hsent : j'.sent = j.sent) (hdone : j'.done = j.done)
    (hcurrent : j'.current = j.current) (harrived : j'.arrived = j.arrived) : j'.Keeps queue n w := by
  have hhandled : j'.handled = j.handled := by
    rw [handled, hdone, hcurrent]
    rfl
  refine ⟨?_, ?_, ?_, ?_⟩
  · rw [hsent, hhandled]
    exact hk.sent
  · rw [hcurrent]
    exact hk.current
  · rw [hdone]
    exact hk.done
  · intro k
    rw [Journal.live, harrived, delivered, hhandled]
    exact hk.live k

theorem Keeps.revise (hk : j.Keeps queue n w) {f : Handling → Handling} (horigin : ∀ h, (f h).origin = h.origin)
    (hvisits : ∀ h, (f h).visits = h.visits) (hnone : n.message = none → n'.message = none)
    (hsome : ∀ h : Handling, h.Noted n w → (f h).Noted n' w') : Keeps { j with current := j.current.map f } queue n' w' := by
  obtain ⟨hsent, hcurrent, hdone, hlive⟩ := hk
  cases hj : j.current with
  | none =>
    rw [hj] at hcurrent
    refine ⟨?_, hnone hcurrent, hdone, ?_⟩
    · rw [hsent, handled, handled, hj]
      rfl
    · intro k
      change j.live k = _
      rw [hlive, delivered_none hj, delivered_none rfl]
  | some h =>
    rw [hj] at hcurrent
    refine ⟨?_, hsome h hcurrent, hdone, ?_⟩
    · rw [hsent, handled, handled, hj]
      simp [horigin]
    · intro k
      change j.live k = _
      rw [hlive, delivered_some hj, delivered_some rfl, Handling.reached, Handling.reached, hvisits]

/-- The steps that the router and the channels are concerned in. -/
def logs : Action → Bool
  | .sendRouter _ | .recvRouter | .willsRemove _ | .lookup _ | .forward _ _ => true
  | _ => false

theorem Keeps.quiet (hk : j.Keeps queue n w) (hlogs : logs a = false) : (j.act i a r).Keeps (a.onQueue i queue) n w := by
  cases a with
  | sendRouter message => cases hlogs
  | recvRouter => cases hlogs
  | willsRemove clientId => cases hlogs
  | lookup topic => cases hlogs
  | forward clientId packet => cases hlogs
  | connectionsInsert clientId => cases i <;> exact hk.frame rfl rfl rfl rfl
  | selectTcp => cases r <;> exact hk.frame rfl rfl rfl rfl
  | selectWs => cases r <;> exact hk.frame rfl rfl rfl rfl
  | recvForwarded => cases r <;> exact hk.frame rfl rfl rfl rfl
  | dropReceiver => cases i <;> exact hk.frame rfl rfl rfl rfl
  | _ => exact hk.frame rfl rfl rfl rfl

theorem Keeps.send (hk : j.Keeps queue n w) (message : BrokerMessage) :
    (j.act i (.sendRouter message) ()).Keeps (queue ++ [(i, message)]) n w := by
  refine ⟨?_, hk.current, hk.done, hk.live⟩
  change j.sent ++ [(i, message)] = j.handled.map Handling.origin ++ (queue ++ [(i, message)])
  rw [hk.sent, List.append_assoc]

theorem Keeps.replay (hk : j.Keeps queue n w) (hi : i.isRouter = false) (clientId : String) (packet : MqttPacket) :
    (j.act i (.forward clientId packet) ()).Keeps queue n w := by
  have hcurrent : (j.act i (.forward clientId packet) ()).current = j.current := by
    simp only [act, onCurrent, hi, Bool.false_eq_true, if_false]
  have hhandled : (j.act i (.forward clientId packet) ()).handled = j.handled := by
    rw [handled, hcurrent]
    rfl
  refine ⟨?_, ?_, hk.done, ?_⟩
  · rw [hhandled]
    exact hk.sent
  · rw [hcurrent]
    exact hk.current
  · intro k
    rw [delivered, hhandled]
    change (j.arrive _ _ k).filterMap _ = j.delivered k
    rw [arrive_eq, List.filterMap_append, ← hk.live k, hi]
    by_cases hconnection : j.receiver clientId = some k
    · rw [if_pos hconnection]
      exact List.append_nil _
    · rw [if_neg hconnection]
      exact List.append_nil _

theorem Keeps.forward {h : Handling} (hk : j.Keeps queue n w) {life : ℕ} (hcurrent : j.current = some h)
    (clientId : String) (packet : MqttPacket) :
    (j.act (.router life) (.forward clientId packet) ()).Keeps queue (n.next (.forward clientId packet) ())
      (w.next (.forward clientId packet) ()) := by
  have hnoted : h.Noted n w := by
    have htracks := hk.current
    rwa [hcurrent] at htracks
  have hcurrent' : (j.act (.router life) (.forward clientId packet) ()).current = some (h.visit
      { time := j.time, clientId, packet, connection := j.receiver clientId }) := by
    simp only [act, onCurrent, hcurrent]
    rfl
  refine ⟨?_, ?_, hk.done, ?_⟩
  · have hsent := hk.sent
    rw [handled, hcurrent, List.map_append] at hsent
    rw [handled, hcurrent', List.map_append]
    exact hsent
  · rw [hcurrent']
    refine ⟨hnoted.message, hnoted.taken, hnoted.looked, ?_⟩
    change (w.published ++ [Action.forward clientId packet]).filterMap Action.forwarded = List.map _ (h.visits ++ [_])
    rw [List.filterMap_append, List.map_append, hnoted.visited]
    rfl
  · intro k
    rw [delivered_some hcurrent']
    change (j.arrive _ _ k).filterMap _ = _ ++ (h.visits ++ [_]).filterMap _
    have hlive := hk.live k
    rw [delivered_some hcurrent] at hlive
    rw [arrive_eq, List.filterMap_append, List.filterMap_append, ← List.append_assoc]
    refine congrArg₂ (· ++ ·) hlive ?_
    by_cases hconnection : j.receiver clientId = some k
    · rw [if_pos hconnection]
      simp [hconnection, ThreadId.isRouter, act]
    · simp [hconnection]

theorem Keeps.recv {sender : ThreadId} {message : BrokerMessage} (hk : j.Keeps ((sender, message) :: queue) n w)
    (hrouting : Routing n [] w) : (j.act i .recvRouter (sender, message)).Keeps queue
      (n.next .recvRouter (sender, message)) (w.next .recvRouter (sender, message)) := by
  refine ⟨?_, ⟨rfl, rfl, rfl, rfl⟩, ?_, ?_⟩
  · change j.sent = (j.handled ++ [_]).map Handling.origin ++ queue
    rw [hk.sent, List.map_append, List.append_assoc]
    rfl
  · intro h hmem
    cases List.mem_append.mp hmem with
    | inl hdone => exact hk.done h hdone
    | inr hcurrent =>
      have hnoted : h.Noted n w := by
        have htracks := hk.current
        rwa [Option.mem_toList.mp hcurrent] at htracks
      exact ⟨hnoted.sound hrouting, hnoted.complete hrouting⟩
  · intro k
    rw [delivered_some rfl]
    change j.live k = j.handled.zipIdx.flatMap _ ++ []
    rw [List.append_nil]
    exact hk.live k

theorem Keeps.notes (hk : j.Keeps queue n w) (hmessage : n'.message = n.message) (htaken : n'.taken = n.taken)
    (hlooked : w'.looked = w.looked)
    (hvisited : w'.published.filterMap Action.forwarded = w.published.filterMap Action.forwarded) : j.Keeps queue n' w' := by
  refine ⟨hk.sent, ?_, hk.done, hk.live⟩
  have htracks := hk.current
  cases hj : j.current with
  | none =>
    rw [hj] at htracks
    exact hmessage.trans htracks
  | some h =>
    rw [hj] at htracks
    exact ⟨hmessage.trans htracks.message, htaken.trans htracks.taken, hlooked.trans htracks.looked,
      hvisited.trans htracks.visited⟩

theorem Keeps.quietNotes (hk : j.Keeps queue n w) (hlogs : logs a = false) :
    (j.act i a r).Keeps (a.onQueue i queue) (n.next a r) (w.next a r) := by
  have hweb : ∀ b : Action, b.forwarded = none →
      (w.published ++ [b]).filterMap Action.forwarded = w.published.filterMap Action.forwarded := by
    intro b hb
    rw [List.filterMap_append, List.filterMap_cons_none hb]
    exact List.append_nil _
  have hquiet := hk.quiet (i := i) (r := r) hlogs
  cases a with
  | sendRouter message => cases hlogs
  | recvRouter => cases hlogs
  | willsRemove clientId => cases hlogs
  | lookup topic => cases hlogs
  | forward clientId packet => cases hlogs
  | forwardWeb subscriberId message => exact hquiet.notes rfl rfl rfl (hweb _ rfl)
  | retainedInsert topic message => exact hquiet.notes rfl rfl rfl (hweb _ rfl)
  | _ => exact hquiet.notes rfl rfl rfl rfl

theorem Keeps.router {life : ℕ} {owes owes' : List Action} {node node' : Node} {input : Input}
    (hk : j.Keeps node.shared.queue n w) (hrouting : Routing n owes w) (hacts : Acts (.router life) n owes a r owes')
    (hperform : node.perform (.router life) a input = some (node', r)) :
    (j.act (.router life) a r).Keeps node'.shared.queue (n.next a r) (w.next a r) := by
  have hqueue := (node_performed hperform).1.queue
  cases hlogs : logs a with
  | false =>
    rw [hqueue]
    exact hk.quietNotes hlogs
  | true =>
    cases a with
    | sendRouter message =>
      rw [hqueue]
      exact (hk.send message).notes rfl rfl rfl rfl
    | recvRouter =>
      obtain ⟨rfl, -, -⟩ := hacts.begun rfl fun howable => howable.elim
      rw [recvRouter_reply hperform] at hk
      exact hk.recv hrouting
    | willsRemove clientId =>
      rw [hqueue]
      have hnone : n.message = none → (n.next (.willsRemove clientId) r).message = none := id
      apply hk.revise (f := fun h => { h with will := r }) (fun _ => rfl) (fun _ => rfl) hnone
      intro h hnoted
      exact ⟨hnoted.message, rfl, hnoted.looked, hnoted.visited⟩
    | lookup topic =>
      rw [hqueue]
      have hnone : n.message = none → (n.next (.lookup topic) r).message = none := id
      apply hk.revise (f := fun h => { h with looked := some { time := j.time, topic, subscribers := r } }) (fun _ => rfl)
        (fun _ => rfl) hnone
      intro h hnoted
      exact ⟨hnoted.message, hnoted.taken, rfl, hnoted.visited⟩
    | forward clientId packet =>
      rw [hqueue]
      cases hcurrent : j.current with
      | some h => exact hk.forward hcurrent clientId packet
      | none =>
        -- Without a message nothing is owed that could be forwarded.
        have hmessage : n.message = none := by
          have htracks := hk.current
          rwa [hcurrent] at htracks
        have htopic : n.topic = none := by
          simp only [Note.topic, hmessage]
        obtain ⟨rest, rfl, -⟩ := hacts.owed rfl trivial
        cases hrouting with
        | asking _ howes _ _ _ => cases howes
        | looking _ howes _ _ _ => cases howes
        | sending hsome _ _ _ =>
          rw [htopic] at hsome
          cases hsome
        | silent _ _ hquiet _ => cases hquiet
    | _ => cases hlogs

theorem Keeps.other {owes owes' : List Action} {node node' : Node} {input : Input} {m : Note} (hi : i.isRouter = false)
    (hk : j.Keeps node.shared.queue n w) (hacts : Acts i m owes a r owes')
    (hperform : node.perform i a input = some (node', r)) : (j.act i a r).Keeps node'.shared.queue n w := by
  have hqueue := (node_performed hperform).1.queue
  rw [hqueue]
  have hcurrent : ∀ f, j.onCurrent i f = j.current := by
    intro f
    rw [onCurrent, hi]
    rfl
  cases hlogs : logs a with
  | false => exact hk.quiet hlogs
  | true =>
    cases a with
    | sendRouter message => exact hk.send message
    | recvRouter =>
      have hdue := hacts.owable_or_begins rfl
      cases i <;> first | exact (hdue.elim id id).elim | cases hi
    | willsRemove clientId => exact hk.frame rfl rfl (hcurrent _) rfl
    | lookup topic => exact hk.frame rfl rfl (hcurrent _) rfl
    | forward clientId packet => exact hk.replay hi clientId packet
    | _ => cases hlogs

end Journal

section
variable {settings : Settings} {P : List BrokerEvent → BrokerConfigState → BrokerEvent → BrokerConfigState → Prop}
  {evs : List BrokerEvent} {cfg : BrokerConfigState}

theorem keeps_of_run (hrun : (brokerSystem settings).RunWhere P initial evs cfg) :
    (journal evs).Keeps cfg.shared.shared.queue (duties evs (.router cfg.shared.life)).note
      (works evs (.router cfg.shared.life)) := by
  apply owed_induction (J := fun evs node _ => (journal evs).Keeps node.shared.queue
    (duties evs (.router node.life)).note (works evs (.router node.life))) _ _ _ _ _ hrun
  · exact Journal.start_keeps
  · intro evs cfg i c run hfresh ih
    have hworks : works (evs ++ [.spawn i c]) = works evs := Observer.ghosts_spawn (fun _ _ => rfl) run hfresh
    rw [journal_snoc, duties_spawn run hfresh, hworks]
    exact ih.frame rfl rfl rfl rfl
  · intro evs cfg cfg' i a r input owes' run _ _ hlife hacts hperform ih
    rw [journal_snoc, (node_performed hperform).2.2, duties_act, works_act]
    cases hi : i.isRouter with
    | true =>
      have heq : i = .router cfg.shared.life := by
        cases i with
        | router life => rw [hlife life rfl]
        | _ => cases hi
      subst heq
      simp only [Function.update_self]
      exact (ih.router (routing_of_run run) hacts hperform).frame rfl rfl rfl rfl
    | false =>
      have hne : .router cfg.shared.life ≠ i := by
        intro heq
        rw [← heq] at hi
        cases hi
      simp only [Function.update_of_ne hne]
      exact (ih.other hi hacts hperform).frame rfl rfl rfl rfl
  · intro evs node owes m ih
    have hduties : duties (evs ++ [.world (.commit m)]) = duties evs := Observer.ghosts_world _
    have hworks : works (evs ++ [.world (.commit m)]) = works evs := Observer.ghosts_world _
    rw [journal_snoc, hduties, hworks]
    exact ih.frame rfl rfl rfl rfl
  · intro evs cfg cfg' run _ _
    have hfresh : cfg.thread (.router (cfg.shared.life + 1)) = .fresh := (oneRouter_of_run run).later _ (by omega)
    have hduties : duties (evs ++ [.world .restart]) (.router (cfg.shared.life + 1)) = ⟨Note.start, []⟩ := by
      rw [duties, Observer.ghosts_world]
      exact Observer.ghosts_of_fresh run hfresh
    have hworks : works (evs ++ [.world .restart]) (.router (cfg.shared.life + 1)) = Work.start := by
      rw [works, Observer.ghosts_world]
      exact Observer.ghosts_of_fresh run hfresh
    change (journal _).Keeps [] (duties _ (.router (cfg.shared.life + 1))).note (works _ (.router (cfg.shared.life + 1)))
    rw [journal_snoc, hduties, hworks]
    exact Journal.start_keeps.frame rfl rfl rfl rfl

end

/-- Before the event of that time the state was as asked. -/
def Seen (settings : Settings) (evs : List BrokerEvent) (time : ℕ) (p : Shared → Prop) : Prop :=
  time < evs.length ∧ ∃ cfg, (brokerSystem settings).Run initial (evs.take time) cfg ∧ p cfg.shared.shared

/-- The message was the first in the queue when it was taken, what has been found was so when it was looked up, and a
    client that it was offered to had then the live entry that is noted, or none. An entry is live while the receiver
    of its channel is there. -/
structure Handling.Attested (settings : Settings) (evs : List BrokerEvent) (h : Handling) : Prop where
  taken : Seen settings evs h.time fun s => s.queue.head? = some h.origin
  looked : ∀ l, h.looked = some l →
    h.time < l.time ∧ Seen settings evs l.time fun s => s.broker.subscriptions.lookup l.topic = l.subscribers
  visits : ∀ v ∈ h.visits,
    h.time < v.time ∧ Seen settings evs v.time fun s => s.receiver v.clientId = v.connection

section
variable {settings : Settings} {evs : List BrokerEvent} {cfg : BrokerConfigState} {e : BrokerEvent} {h : Handling}
  {j : Journal} {i : ThreadId} {a : Action} {r : Reply a}

theorem Seen.snoc {time : ℕ} {p : Shared → Prop} (hseen : Seen settings evs time p) : Seen settings (evs ++ [e]) time p := by
  obtain ⟨hlt, cfg, hrun, hp⟩ := hseen
  refine ⟨?_, cfg, ?_, hp⟩
  · rw [List.length_append]
    omega
  · rw [List.take_append_of_le_length (le_of_lt hlt)]
    exact hrun

theorem seen_last {p : Shared → Prop} (hrun : (brokerSystem settings).Run initial evs cfg) (hp : p cfg.shared.shared) :
    Seen settings (evs ++ [e]) evs.length p := by
  refine ⟨?_, cfg, ?_, hp⟩
  · rw [List.length_append, List.length_singleton]
    omega
  · rw [List.take_append_of_le_length (le_refl _), List.take_length]
    exact hrun

theorem Handling.Attested.snoc (hattested : h.Attested settings evs) : h.Attested settings (evs ++ [e]) where
  taken := hattested.taken.snoc
  looked := fun l hl => ⟨(hattested.looked l hl).1, (hattested.looked l hl).2.snoc⟩
  visits := fun v hv => ⟨(hattested.visits v hv).1, (hattested.visits v hv).2.snoc⟩

theorem handled_quiet (hlogs : Journal.logs a = false) : (j.act i a r).handled = j.handled := by
  cases a with
  | connectionsInsert clientId => cases i <;> rfl
  | selectTcp => cases r <;> rfl
  | selectWs => cases r <;> rfl
  | recvForwarded => cases r <;> rfl
  | dropReceiver => cases i <;> rfl
  | sendRouter message => rfl
  | recvRouter => cases hlogs
  | willsRemove clientId => cases hlogs
  | lookup topic => cases hlogs
  | forward clientId packet => cases hlogs
  | _ => rfl

theorem forall_onCurrent {p : Handling → Prop} {f : Handling → Handling} (hall : ∀ h ∈ j.handled, p h)
    (hf : ∀ h ∈ j.handled, p (f h)) : ∀ h ∈ j.done ++ (j.onCurrent i f).toList, p h := by
  intro h hmem
  cases List.mem_append.mp hmem with
  | inl hdone => exact hall h (List.mem_append_left _ hdone)
  | inr hcurrent =>
    rw [Option.mem_toList, Journal.onCurrent] at hcurrent
    split_ifs at hcurrent
    · obtain ⟨h', hh', rfl⟩ := Option.map_eq_some_iff.mp hcurrent
      exact hf h' (List.mem_append_right _ (Option.mem_toList.mpr hh'))
    · exact hall h (List.mem_append_right _ (Option.mem_toList.mpr hcurrent))

/-- Each entry of the journal is made in the state that it speaks of. -/
theorem attested_act {node' : Node} {input : Input} (hrun : (brokerSystem settings).Run initial evs cfg)
    (hperform : cfg.shared.perform i a input = some (node', r)) (ih : ∀ h ∈ (journal evs).handled, h.Attested settings evs) :
    ∀ h ∈ ((journal evs).act i a r).handled, h.Attested settings (evs ++ [.act i a r]) := by
  have hkept : ∀ h ∈ (journal evs).handled, h.Attested settings (evs ++ [.act i a r]) := fun h hmem => (ih h hmem).snoc
  have hbefore : ∀ h ∈ (journal evs).handled, h.time < (journal evs).time := by
    intro h hmem
    rw [journal_time]
    exact (ih h hmem).taken.1
  have hnow : ∀ {p : Shared → Prop}, p cfg.shared.shared → Seen settings (evs ++ [.act i a r]) (journal evs).time p := by
    intro p hp
    rw [journal_time]
    exact seen_last hrun hp
  cases hlogs : Journal.logs a with
  | false =>
    rw [handled_quiet hlogs]
    exact hkept
  | true =>
    cases a with
    | sendRouter message => exact hkept
    | recvRouter =>
      intro h hmem
      cases List.mem_append.mp hmem with
      | inl hold => exact hkept h hold
      | inr hnew =>
        cases Option.mem_toList.mp hnew
        refine ⟨?_, ?_, ?_⟩
        · apply hnow
          rw [recvRouter_reply hperform]
          rfl
        · intro l hl
          cases hl
        · intro v hv
          cases hv
    | willsRemove clientId =>
      apply forall_onCurrent hkept
      intro h hmem
      exact ⟨(hkept h hmem).taken, (hkept h hmem).looked, (hkept h hmem).visits⟩
    | lookup topic =>
      apply forall_onCurrent hkept
      intro h hmem
      refine ⟨(hkept h hmem).taken, ?_, (hkept h hmem).visits⟩
      intro l hl
      cases hl
      exact ⟨hbefore h hmem, hnow (lookup_reply hperform)⟩
    | forward clientId packet =>
      apply forall_onCurrent hkept
      intro h hmem
      refine ⟨(hkept h hmem).taken, (hkept h hmem).looked, ?_⟩
      intro v hv
      cases List.mem_append.mp hv with
      | inl hold => exact (hkept h hmem).visits v hold
      | inr hnew =>
        cases List.mem_singleton.mp hnew
        refine ⟨hbefore h hmem, hnow ?_⟩
        rw [(mirrors_of_run hrun).receiver]
    | _ => cases hlogs

theorem attested_of_run (hrun : (brokerSystem settings).Run initial evs cfg) :
    ∀ h ∈ (journal evs).handled, h.Attested settings evs := by
  induction hrun with
  | nil => exact List.forall_mem_nil _
  | @snoc evs cfg cfg' e run step _ ih =>
    have hkept : ∀ h ∈ (journal evs).handled, h.Attested settings (evs ++ [e]) := fun h hmem => (ih h hmem).snoc
    rw [journal_snoc]
    cases step with
    | spawn _ _ => exact hkept
    | act _ _ hperform => exact attested_act run hperform ih
    | @world w node ends hworld =>
      cases w with
      | commit n => exact hkept
      | restart => exact List.forall_mem_nil _

end

section
variable {h : Handling} {j : Journal} {k : ConnId} {n : ℕ} {x : ℕ × MqttPacket}

theorem mem_reached : x ∈ h.reached k n ↔ x.1 = n ∧ ∃ v ∈ h.visits, v.connection = some k ∧ v.packet = x.2 := by
  obtain ⟨m, packet⟩ := x
  rw [Handling.reached, List.mem_filterMap]
  constructor
  · rintro ⟨v, hv, heq⟩
    simp only [Option.ite_none_right_eq_some, Option.some.injEq, Prod.mk.injEq] at heq
    obtain ⟨hconnection, rfl, rfl⟩ := heq
    exact ⟨rfl, v, hv, hconnection, rfl⟩
  · rintro ⟨rfl, v, hv, hconnection, rfl⟩
    exact ⟨v, hv, if_pos hconnection⟩

theorem mem_delivered : x ∈ j.delivered k ↔
    ∃ h, j.handled[x.1]? = some h ∧ ∃ v ∈ h.visits, v.connection = some k ∧ v.packet = x.2 := by
  rw [Journal.delivered, List.mem_flatMap]
  constructor
  · rintro ⟨⟨h, n⟩, hmem, hreached⟩
    obtain ⟨rfl, hvisit⟩ := mem_reached.mp hreached
    exact ⟨h, List.mk_mem_zipIdx_iff_getElem?.mp hmem, hvisit⟩
  · rintro ⟨h, hget, hvisit⟩
    exact ⟨(h, x.1), List.mk_mem_zipIdx_iff_getElem?.mpr hget, mem_reached.mpr ⟨rfl, hvisit⟩⟩

theorem delivered_pairwise (j : Journal) (k : ConnId) : (j.delivered k).Pairwise fun x y => x.1 ≤ y.1 := by
  rw [Journal.delivered, List.pairwise_flatMap]
  refine ⟨?_, ?_⟩
  · intro entry _
    apply List.pairwise_of_forall_mem_list
    intro x hx y hy
    exact le_of_eq ((mem_reached.mp hx).1.trans (mem_reached.mp hy).1.symm)
  · have hplaces : (j.handled.zipIdx.map Prod.snd).Pairwise (· < ·) := by
      rw [List.zipIdx_map_snd]
      exact List.pairwise_lt_range'
    refine (List.pairwise_map.mp hplaces).imp ?_
    intro entry entry' hlt x hx y hy
    rw [(mem_reached.mp hx).1, (mem_reached.mp hy).1]
    exact le_of_lt hlt

end

/-- The router has nothing left to do for the messages that it has taken. -/
def rests (cfg : BrokerConfigState) : Bool :=
  match cfg.thread (.router cfg.shared.life) with
  | .running (.ret .router) => true
  | _ => false

/-- What is left of the router's turn. -/
def Serving (p : Broker Control) : Prop := ∃ q : Broker Unit, Only RouterAction q ∧ p = q >>= fun _ => .ret .router

section
variable {settings : Settings} {evs : List BrokerEvent} {cfg : BrokerConfigState}

theorem thread_of_rests (h : rests cfg = true) : cfg.thread (.router cfg.shared.life) = .running (.ret .router) := by
  unfold rests at h
  split at h
  · rename_i heq
    exact heq
  · cases h

theorem owed_of_rests (hrun : (brokerSystem settings).Run initial evs cfg) (h : rests cfg = true) :
    owed evs cfg (.router cfg.shared.life) = [] := by
  have hrunning := thread_of_rests h
  have hmeets : Meets (agenda (.router cfg.shared.life)).monitor (Settled (.router cfg.shared.life))
      (duties evs (.router cfg.shared.life)) (.ret .router) := (duties_cover settings).meets (fun _ => rfl) hrun hrunning
  have hsettled : (duties evs (.router cfg.shared.life)).owes = [] := hmeets.of_ret
  rw [owed, hrunning]
  exact hsettled

theorem serving_step {i : ThreadId} {p : Broker Control} {a : Action} {f : Reply a → Broker Control}
    (hnext : (brokerSystem settings).unroll i p = .act a f) (h : Serving p) (r : Reply a) : Serving (f r) := by
  obtain ⟨q, honly, rfl⟩ := h
  cases honly with
  | ret x =>
    cases hnext
    exact ⟨routeMessage r.2, routeMessage_only r.2, rfl⟩
  | act _ hrest =>
    cases hnext
    exact ⟨_, hrest r, rfl⟩

theorem serving_of_run (hrun : (brokerSystem settings).Run initial evs cfg) :
    ∀ life p, cfg.thread (.router life) = .running p → Serving p := by
  induction hrun with
  | nil =>
    intro life p h
    cases h
  | @snoc evs cfg cfg' e run step _ ih =>
    cases step with
    | @spawn i c hfresh hstart =>
      intro life p h
      by_cases hi : .router life = i
      · subst hi
        simp only [Function.update_self, Thread.running.injEq] at h
        subst h
        have hc : c = .router := by
          cases c <;> first | rfl | cases hstart
        subst hc
        exact ⟨.ret (), .ret _, rfl⟩
      · simp only [Function.update_of_ne hi] at h
        exact ih life p h
    | @act i q a f input node r hrunning hnext _ =>
      intro life p h
      by_cases hi : .router life = i
      · subst hi
        simp only [Function.update_self, Thread.running.injEq] at h
        subst h
        exact serving_step hnext (ih life q hrunning) r
      · simp only [Function.update_of_ne hi] at h
        exact ih life p h
    | @world w node ends hworld =>
      intro life p h
      cases w with
      | commit n =>
        cases hworld
        exact ih life p h
      | restart =>
        obtain ⟨rfl, rfl⟩ := restart_of_world hworld
        simp only [if_true] at h
        cases ht : cfg.thread (.router life) <;> simp [ht, Thread.ended] at h

theorem perform_router {a : Action} (ha : RouterAction a) (i : ThreadId) (node : Node) :
    ∃ node' r, node.perform i a .go = some (node', r) := by
  cases a <;> first | exact ⟨_, _, rfl⟩ | exact ha.elim

/-- Whatever the router has begun, it comes to the end of by itself. -/
theorem rests_after (hrun : (brokerSystem settings).Run initial evs cfg) {p : Broker Control}
    (hrunning : cfg.thread (.router cfg.shared.life) = .running p) :
    ∃ evs' cfg', (brokerSystem settings).Run initial (evs ++ evs') cfg' ∧ rests cfg' = true ∧
      ∀ e ∈ evs', ∃ a r, e = .act (.router cfg.shared.life) a r ∧ RouterAction a := by
  obtain ⟨q, honly, rfl⟩ := serving_of_run hrun _ _ hrunning
  induction honly generalizing evs cfg with
  | ret x =>
    refine ⟨[], cfg, (List.append_nil evs).symm ▸ hrun, ?_, List.forall_mem_nil _⟩
    unfold rests
    rw [hrunning]
    rfl
  | @act a f ha _ ih =>
    obtain ⟨node, r, hperform⟩ := perform_router ha (.router cfg.shared.life) cfg.shared
    have hstep : (brokerSystem settings).Step cfg (.act (.router cfg.shared.life) a r) _ := .act hrunning rfl hperform
    have hthread : Function.update cfg.thread (.router cfg.shared.life) (.running (f r >>= fun _ => .ret .router))
        (.router node.life) = .running (f r >>= fun _ => .ret .router) := by
      rw [(node_performed hperform).2.2, Function.update_self]
    obtain ⟨evs', cfg', hrun', hrests, hevs⟩ := ih r (hrun.snoc hstep trivial) hthread
    refine ⟨.act (.router cfg.shared.life) a r :: evs', cfg', ?_, hrests, ?_⟩
    · rw [List.append_cons]
      exact hrun'
    · refine List.forall_mem_cons.mpr ⟨⟨a, r, rfl, ha⟩, ?_⟩
      intro e he
      obtain ⟨b, r', rfl, hb⟩ := hevs e he
      refine ⟨b, r', ?_, hb⟩
      change Event.act (ThreadId.router node.life) b r' = _
      rw [(node_performed hperform).2.2]

end

/-- The router and the channels after a run, in the terms of the journal. -/
structure Routed (settings : Settings) (evs : List BrokerEvent) (cfg : BrokerConfigState) : Prop where
  /-- What has arrived in a channel is what has been received from it, and what is still there. -/
  channels : ∀ k, ((journal evs).arrived k).map (fun arrival => sentBytes arrival.packet) =
    (journal evs).received k ++ cfg.shared.shared.channels k
  /-- The messages are taken in the order in which they are sent. -/
  fifo : (journal evs).sent = (journal evs).handled.map Handling.origin ++ cfg.shared.shared.queue
  attested : ∀ h ∈ (journal evs).handled, h.Attested settings evs
  /-- In each channel the messages stand in that order, whoever has sent them. -/
  order : ∀ k, ((journal evs).live k).Pairwise fun x y => x.1 ≤ y.1
  /-- For each message that is done, its topic has been looked up, and all who were found have the packet if
      they had a live entry when the router came to them: one whose receiver still exists. -/
  complete : ∀ n h topic packet, (journal evs).handled[n]? = some h → h.content = some (topic, packet) →
    n + 1 < (journal evs).handled.length ∨ rests cfg = true → ∃ l, h.looked = some l ∧ l.topic = topic ∧
      ∀ sub ∈ l.subscribers, ∃ v ∈ h.visits, v.clientId = sub.clientId ∧ v.packet = packet ∧
        ∀ k, v.connection = some k → (n, packet) ∈ (journal evs).live k
  /-- The router comes to the end of its message by itself. -/
  turn : ∀ p, cfg.thread (.router cfg.shared.life) = .running p → ∃ evs' cfg',
    (brokerSystem settings).Run initial (evs ++ evs') cfg' ∧ rests cfg' = true ∧
      ∀ e ∈ evs', ∃ a r, e = .act (.router cfg.shared.life) a r ∧ RouterAction a
  /-- What the router has put into a channel has the topic and the payload of a message, and the client that
      the connection belonged to was among those found for it. -/
  sound : ∀ k x, x ∈ (journal evs).live k → ∃ h l, (journal evs).handled[x.1]? = some h ∧
    h.content = some (l.topic, x.2) ∧ h.looked = some l ∧
      ∃ sub ∈ l.subscribers, ∃ v ∈ h.visits, v.clientId = sub.clientId ∧ v.connection = some k

section
variable {settings : Settings} {evs : List BrokerEvent} {cfg : BrokerConfigState} {h : Handling}

theorem Handling.mem_offers {l : Lookup} {clientId : String} {packet : MqttPacket} (hlooked : h.looked = some l)
    (hmem : (clientId, packet) ∈ h.offers) :
    (∃ topic, h.content = some (topic, packet)) ∧ ∃ sub ∈ l.subscribers, sub.clientId = clientId := by
  rw [Handling.offers, hlooked] at hmem
  cases hcontent : h.content with
  | none =>
    rw [hcontent] at hmem
    cases hmem
  | some content =>
    rw [hcontent] at hmem
    obtain ⟨sub, hsub, heq⟩ := List.mem_map.mp hmem
    cases heq
    exact ⟨⟨_, rfl⟩, sub, hsub, rfl⟩

theorem Handling.looked_of_offer {offer : String × MqttPacket} (hmem : offer ∈ h.offers) : ∃ l, h.looked = some l := by
  unfold Handling.offers at hmem
  split at hmem
  · rename_i l _ hlooked
    exact ⟨l, hlooked⟩
  · cases hmem

theorem noted_of_run (hrun : (brokerSystem settings).Run initial evs cfg) (hcurrent : (journal evs).current = some h) :
    h.Noted (duties evs (.router cfg.shared.life)).note (works evs (.router cfg.shared.life)) := by
  have htracks := (keeps_of_run hrun).current
  rwa [hcurrent] at htracks

theorem sound_of_run (hrun : (brokerSystem settings).Run initial evs cfg) : ∀ h ∈ (journal evs).handled, h.Sound := by
  intro h hmem
  cases List.mem_append.mp hmem with
  | inl hdone => exact ((keeps_of_run hrun).done h hdone).1
  | inr hcurrent => exact (noted_of_run hrun (Option.mem_toList.mp hcurrent)).sound (routing_of_run hrun)

theorem complete_of_run (hrun : (brokerSystem settings).Run initial evs cfg) {n : ℕ}
    (hget : (journal evs).handled[n]? = some h) (hended : n + 1 < (journal evs).handled.length ∨ rests cfg = true) :
    h.Complete := by
  by_cases hn : n < (journal evs).done.length
  · rw [Journal.handled, List.getElem?_append_left hn] at hget
    exact ((keeps_of_run hrun).done h (List.mem_of_getElem? hget)).2
  · rw [Journal.handled, List.getElem?_append_right (by omega)] at hget
    have hcurrent : (journal evs).current = some h := Option.mem_toList.mp (List.mem_of_getElem? hget)
    cases hended with
    | inl hlt =>
      rw [Journal.handled, hcurrent, Option.toList_some, List.length_append, List.length_singleton] at hlt
      omega
    | inr hrests =>
      have hrouting := routing_of_run hrun
      rw [owed_of_rests hrun hrests] at hrouting
      exact (noted_of_run hrun hcurrent).complete hrouting

end

/-- In every run, the router is in order, complete for those whom it finds connected, and sound. -/
theorem routed_of_run {settings : Settings} {evs : List BrokerEvent} {cfg : BrokerConfigState}
    (hrun : (brokerSystem settings).Run initial evs cfg) : Routed settings evs cfg where
  channels := (mirrors_of_run hrun).channels
  fifo := (keeps_of_run hrun).sent
  attested := attested_of_run hrun
  order := by
    intro k
    rw [(keeps_of_run hrun).live]
    exact delivered_pairwise _ _
  complete := by
    intro n h topic packet hget hcontent hended
    have hcomplete := complete_of_run hrun hget hended
    obtain ⟨l, hlooked, htopic⟩ := hcomplete.looked topic packet hcontent
    refine ⟨l, hlooked, htopic, ?_⟩
    intro sub hsub
    have hmem : (sub.clientId, packet) ∈ h.visited := by
      rw [hcomplete.visited, Handling.offers, hcontent, hlooked]
      exact List.mem_map.mpr ⟨sub, hsub, rfl⟩
    obtain ⟨v, hv, heq⟩ := List.mem_map.mp hmem
    obtain ⟨hclient, hpacket⟩ := Prod.mk.inj heq
    refine ⟨v, hv, hclient, hpacket, ?_⟩
    intro k hconnection
    rw [(keeps_of_run hrun).live]
    exact mem_delivered.mpr ⟨h, hget, v, hv, hconnection, hpacket⟩
  turn := fun _ hrunning => rests_after hrun hrunning
  sound := by
    intro k x hx
    rw [(keeps_of_run hrun).live] at hx
    obtain ⟨h, hget, v, hv, hconnection, hpacket⟩ := mem_delivered.mp hx
    have hsound := sound_of_run hrun h (List.mem_of_getElem? hget)
    have hoffer : (v.clientId, v.packet) ∈ h.offers := hsound.visited.subset (List.mem_map.mpr ⟨v, hv, rfl⟩)
    obtain ⟨l, hlooked⟩ := Handling.looked_of_offer hoffer
    obtain ⟨⟨topic, hcontent⟩, sub, hsub, hclient⟩ := Handling.mem_offers hlooked hoffer
    obtain ⟨packet, hsame⟩ := hsound.looked l hlooked
    rw [hcontent] at hsame
    obtain ⟨rfl, rfl⟩ := Prod.mk.inj (Option.some.inj hsame)
    refine ⟨h, l, hget, ?_, hlooked, sub, hsub, v, hv, hclient.symm, hconnection⟩
    rw [hcontent, hpacket]

def clientMoves (k : ConnId) (clientId : String) : List BrokerMove :=
  [.spawn (.connection k) .tcp,
    .act (.connection k) (.received (.data (sentBytes (.V311 (.Connect (plainConnectV3 clientId true none))))))] ++
  turns (.connection k) 8

def publishMoves (payload : Bytes) : List BrokerMove :=
  [.act (.connection 0) (.received (.data (sentBytes (.V311 (.Publish
    { topic := "a", payload, qos := .AtMostOnce, retain := false, packetId := none })))))] ++
  turns (.connection 0) 4

def subscribedMoves : List BrokerMove :=
  [.spawn (.router 0) .router] ++ clientMoves 0 "p" ++ clientMoves 1 "c" ++
  [.act (.connection 1) (.received (.data (sentBytes (.V311 (.Subscribe
    { packetId := 1, filters := [{ path := "a", qos := .AtMostOnce }] })))))] ++
  turns (.connection 1) 8 ++ publishMoves [0x78]

theorem routed_published : ∃ evs cfg, (brokerSystem openSettings).Run initial evs cfg ∧
    cfg.shared.shared.channels 1 = [sentBytes (publishPacket "a" [0x78] false), sentBytes (publishPacket "a" [0x79] false)] ∧
    ((journal evs).live 1).map Prod.fst = [0, 1] ∧ Routed openSettings evs cfg := by
  have hrun : (execute openSettings (subscribedMoves ++ publishMoves [0x79] ++ turns (.router 0) 10)).map (fun r =>
      (r.2.shared.shared.channels 1, ((journal r.1).live 1).map Prod.fst)) =
      some ([sentBytes (publishPacket "a" [0x78] false), sentBytes (publishPacket "a" [0x79] false)], [0, 1]) := by decide +kernel
  obtain ⟨⟨evs, cfg⟩, hexec, heq⟩ := Option.map_eq_some_iff.mp hrun
  simp only [Prod.mk.injEq] at heq
  exact ⟨evs, cfg, execute_run hexec, heq.1, heq.2, routed_of_run (execute_run hexec)⟩

/-- The connection of the subscriber closes after the lookup: it was connected when the router took the message,
    and nothing is sent to it. -/
theorem routed_leftOut : ¬ ∀ settings evs cfg, (brokerSystem settings).Run initial evs cfg → rests cfg = true →
    ∀ n h topic payload qos retain sourceClient, (journal evs).handled[n]? = some h →
    h.message = .Publish topic payload qos retain sourceClient →
    ∀ taken, (brokerSystem settings).Run initial (evs.take h.time) taken →
    ∀ sub ∈ taken.shared.shared.broker.subscriptions.lookup topic, ∀ k,
    taken.shared.shared.receiver sub.clientId = some k →
    (n, publishPacket topic payload false) ∈ (journal evs).live k := by
  have hfirst : (execute openSettings subscribedMoves).map (fun r => (r.1.length,
      r.2.shared.shared.broker.subscriptions.lookup "a", r.2.shared.shared.receiver "c")) =
      some (35, [{ clientId := "c", filter := "a", qos := .AtMostOnce }], some 1) := by decide +kernel
  have hrest : ((execute openSettings subscribedMoves).bind fun r => (brokerSystem openSettings).execWhere
      (fun _ _ _ _ => true) r.1 r.2 (turns (.router 0) 2 ++ [.act (.connection 1) (.received .closed)] ++
        turns (.connection 1) 4 ++ turns (.router 0) 3)).map (fun r => (rests r.2,
          (journal r.1).handled.map fun h => (h.time, h.message), (journal r.1).live 1)) =
      some (true, [(35, .Publish "a" [0x78] .AtMostOnce false "p")], []) := by decide +kernel
  obtain ⟨⟨evs₁, cfg₁⟩, hexec₁, heq₁⟩ := Option.map_eq_some_iff.mp hfirst
  rw [hexec₁] at hrest
  obtain ⟨⟨evs, cfg⟩, hexec, heq⟩ := Option.map_eq_some_iff.mp hrest
  simp only [Prod.mk.injEq] at heq₁ heq
  obtain ⟨hlength, hlookup, hconnection⟩ := heq₁
  obtain ⟨hrests, hhandled, hlive⟩ := heq
  have hrun₁ : (brokerSystem openSettings).Run initial evs₁ cfg₁ := execute_run hexec₁
  have hrun : (brokerSystem openSettings).Run initial evs cfg :=
    System.execWhere_run _ (fun _ _ _ _ _ => trivial) hrun₁ hexec
  obtain ⟨rest, rfl⟩ := System.execWhere_prefix _ hexec
  obtain ⟨h, hh, hsame⟩ := List.map_eq_singleton_iff.mp hhandled
  obtain ⟨htime, hmessage⟩ := Prod.mk.inj hsame
  intro hall
  have hmem := hall openSettings _ cfg hrun hrests 0 h "a" [0x78] .AtMostOnce false "p" (by rw [hh]; rfl) hmessage cfg₁
    (by rw [htime, ← hlength, List.take_left]; exact hrun₁) { clientId := "c", filter := "a", qos := .AtMostOnce }
    (by rw [hlookup]; exact List.mem_cons_self) 1 hconnection
  rw [hlive] at hmem
  cases hmem

end AtomMqtt
