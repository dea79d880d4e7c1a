import AtomMqtt.Draining
import AtomMqtt.Listening

set_option autoImplicit false

/-! From `pub` to `sub`. A client that has subscribed, and keeps its subscription and its connection, is found
by the router for every message that is sent to it from then on. So what `pub` shows as acknowledged, `sub`
shows in the end. -/
namespace AtomMqtt
open Programs

def Lasts (e : BrokerEvent) : Prop := e ≠ .world .restart

section
variable {j : Journal} {evs evs' : List BrokerEvent} {e : BrokerEvent} {i : ThreadId} {a : Action} {r : Reply a} {k : ConnId}
  {message : BrokerMessage}

theorem sent_act : (j.act i a r).sent = j.sent ++ (a.handed.map fun message => (i, message)).toList := by
  cases a with
  | sendRouter message => rfl
  | selectTcp => cases r <;> exact (List.append_nil _).symm
  | selectWs => cases r <;> exact (List.append_nil _).symm
  | recvForwarded => cases r <;> exact (List.append_nil _).symm
  | connectionsInsert clientId => cases i <;> exact (List.append_nil _).symm
  | dropReceiver => cases i <;> exact (List.append_nil _).symm
  | _ => exact (List.append_nil _).symm

theorem arrived_act (k : ConnId) : j.arrived k <+: (j.act i a r).arrived k := by
  cases a with
  | forward clientId packet =>
    change _ <+: j.arrive _ _ k
    rw [Journal.arrive_eq]
    exact List.prefix_append _ _
  | selectTcp => cases r <;> exact List.prefix_rfl
  | selectWs => cases r <;> exact List.prefix_rfl
  | recvForwarded => cases r <;> exact List.prefix_rfl
  | connectionsInsert clientId => cases i <;> exact List.prefix_rfl
  | dropReceiver => cases i <;> exact List.prefix_rfl
  | _ => exact List.prefix_rfl

theorem grows_next (h : Lasts e) : j.sent <+: (j.next e).sent ∧ ∀ k, j.arrived k <+: (j.next e).arrived k := by
  cases e with
  | spawn i c => exact ⟨List.prefix_rfl, fun _ => List.prefix_rfl⟩
  | act i a r =>
    refine ⟨?_, fun k => arrived_act k⟩
    change _ <+: (j.act i a r).sent
    rw [sent_act]
    exact List.prefix_append _ _
  | world w =>
    cases w with
    | commit n => exact ⟨List.prefix_rfl, fun _ => List.prefix_rfl⟩
    | restart => exact absurd rfl h

theorem journal_grows (evs : List BrokerEvent) (h : ∀ e ∈ evs', Lasts e) : (journal evs).sent <+: (journal (evs ++ evs')).sent ∧
    ∀ k, (journal evs).arrived k <+: (journal (evs ++ evs')).arrived k := by
  induction evs' using List.reverseRecOn with
  | nil =>
    rw [List.append_nil]
    exact ⟨List.prefix_rfl, fun _ => List.prefix_rfl⟩
  | append_singleton evs' e ih =>
    obtain ⟨hbefore, hlast⟩ := List.forall_mem_append.mp h
    obtain ⟨hsent, harrived⟩ := ih hbefore
    obtain ⟨hsent', harrived'⟩ := grows_next (j := journal (evs ++ evs')) (List.forall_mem_singleton.mp hlast)
    rw [← List.append_assoc, journal_snoc]
    exact ⟨hsent.trans hsent', fun k => (harrived k).trans (harrived' k)⟩

theorem sent_of_act (evs : List BrokerEvent) (h : ∀ e ∈ evs', Lasts e) (hact : .act i (.sendRouter message) () ∈ evs') :
    (i, message) ∈ (journal (evs ++ evs')).sent := by
  obtain ⟨before, after, rfl⟩ := List.append_of_mem hact
  have hbefore : (i, message) ∈ (journal (evs ++ before ++ [.act i (.sendRouter message) ()])).sent := by
    rw [journal_snoc]
    change _ ∈ ((journal (evs ++ before)).act i (.sendRouter message) ()).sent
    rw [sent_act]
    exact List.mem_append_right _ (List.mem_singleton_self _)
  rw [List.append_cons, ← List.append_assoc, ← List.append_assoc]
  apply (journal_grows _ _).1.subset hbefore
  intro e he
  exact h e (List.mem_append_right _ (List.mem_cons_of_mem _ he))

theorem act_of_sent (h : (i, message) ∈ (journal evs).sent) : .act i (.sendRouter message) () ∈ evs := by
  induction evs using List.reverseRecOn with
  | nil => cases h
  | append_singleton evs e ih =>
    have hearlier : (i, message) ∈ (journal evs).sent → .act i (.sendRouter message) () ∈ evs ++ [e] :=
      fun hsent => List.mem_append_left _ (ih hsent)
    rw [journal_snoc] at h
    cases e with
    | spawn _ _ => exact hearlier h
    | act i' a r =>
      change _ ∈ ((journal evs).act i' a r).sent at h
      rw [sent_act] at h
      cases List.mem_append.mp h with
      | inl h => exact hearlier h
      | inr h =>
        rw [Option.mem_toList, Option.map_eq_some_iff] at h
        obtain ⟨message', hhanded, heq⟩ := h
        obtain ⟨rfl, rfl⟩ := Prod.mk.inj heq
        cases a with
        | sendRouter message =>
          cases hhanded
          exact List.mem_append_right _ (List.mem_singleton_self _)
        | _ => cases hhanded
    | world w =>
      cases w with
      | commit n => exact hearlier h
      | restart => cases h

end

/-- The action leaves the subscription of the client, its entry among the connections and the receiver of connection `k`. -/
def Action.upholds (clientId filter : String) (k : ConnId) (i : ThreadId) : Action → Bool
  | .unsubscribe c f => (clientId, filter) != (c, f)
  | .unsubscribeAll c => clientId != c
  | .connectionsInsert c | .connectionsRemove c => c != clientId
  | .dropReceiver => i != .connection k
  | _ => true

def upholds (clientId filter : String) (k : ConnId) : BrokerEvent → Bool
  | .act i a _ => a.upholds clientId filter k i
  | .world .restart => false
  | _ => true

abbrev Upholds (clientId filter : String) (k : ConnId) (e : BrokerEvent) : Prop := upholds clientId filter k e = true

/-- The client has subscribed to the filter, and connection `k` is its connection and is served. -/
structure Enrolled (clientId filter : String) (k : ConnId) (s : Shared) : Prop where
  held : s.broker.subscriptions.Held
  listed : s.broker.subscriptions.Has clientId filter
  connection : s.broker.connections.lookup clientId = some k
  served : s.dropped k = false

section
variable {settings : Settings} {cfg cfg' cfg₁ : BrokerConfigState} {evs evs₁ evs₂ : List BrokerEvent} {e : BrokerEvent}
  {clientId filter : String} {k : ConnId} {tree : SubscriptionTree} {topic : String}

theorem lasts_of_upholds (h : Upholds clientId filter k e) : Lasts e := by
  rintro rfl
  cases h

theorem has_of_upheld {i : ThreadId} {a : Action} (h : a.upholds clientId filter k i = true) (hheld : tree.Held)
    (hhas : tree.Has clientId filter) : (a.onSubscriptions tree).Has clientId filter := by
  cases a with
  | subscribe c f qos => exact (has_subscribe_iff hheld c f qos).mpr (.inr hhas)
  | unsubscribe c f => exact (has_unsubscribe_iff hheld c f).mpr ⟨hhas, bne_iff_ne.mp h⟩
  | unsubscribeAll c => exact (has_unsubscribeAll_iff hheld c).mpr ⟨hhas, bne_iff_ne.mp h⟩
  | _ => exact hhas

theorem connection_of_upheld {i : ThreadId} {a : Action} {connections : DashMap String ConnId}
    (h : a.upholds clientId filter k i = true) (hconnection : connections.lookup clientId = some k) :
    (a.onConnections i connections).lookup clientId = some k := by
  cases a with
  | connectionsInsert c =>
    cases i with
    | connection k' => exact (DashMap.lookup_insert.trans (if_neg (bne_iff_ne.mp h))).trans hconnection
    | _ => exact hconnection
  | connectionsRemove c => exact (DashMap.lookup_erase.trans (if_neg (bne_iff_ne.mp h))).trans hconnection
  | _ => exact hconnection

theorem served_of_upheld {i : ThreadId} {a : Action} {dropped : ConnId → Bool} (h : a.upholds clientId filter k i = true)
    (hserved : dropped k = false) : a.onDropped i dropped k = false := by
  cases a with
  | dropReceiver =>
    cases i with
    | connection k' =>
      have hother : k ≠ k' := fun heq => bne_iff_ne.mp h (congrArg _ heq.symm)
      exact (Function.update_of_ne hother _ _).trans hserved
    | _ => exact hserved
  | _ => exact hserved

theorem Enrolled.receiver {s : Shared} (h : Enrolled clientId filter k s) : s.receiver clientId = some k := by
  rw [Shared.receiver, h.connection, Option.filter_some_pos (by rw [h.served]; rfl)]

theorem Enrolled.step (h : Enrolled clientId filter k cfg.shared.shared) (hupholds : Upholds clientId filter k e)
    (hstep : (brokerSystem settings).Step cfg e cfg') : Enrolled clientId filter k cfg'.shared.shared := by
  cases hstep with
  | spawn _ _ => exact h
  | @act i p a f input node r _ _ hperform =>
    have heffect := (node_perform_effect hperform).1
    obtain ⟨⟨shared, r'⟩, hshared, heq⟩ := Option.map_eq_some_iff.mp hperform
    cases heq
    refine ⟨?_, ?_, ?_, ?_⟩
    · rw [heffect.subscriptions]
      exact held_of_act h.held a
    · rw [heffect.subscriptions]
      exact has_of_upheld hupholds h.held h.listed
    · rw [perform_connections hshared]
      exact connection_of_upheld hupholds h.connection
    · rw [perform_dropped hshared]
      exact served_of_upheld hupholds h.served
  | @world w node ends hworld =>
    cases w with
    | commit n =>
      cases hworld
      exact ⟨h.held, h.listed, h.connection, h.served⟩
    | restart => cases hupholds

theorem Enrolled.run (h : Enrolled clientId filter k cfg.shared.shared)
    (hrun : (brokerSystem settings).RunOf (Upholds clientId filter k) cfg evs cfg') :
    Enrolled clientId filter k cfg'.shared.shared := by
  induction hrun with
  | nil => exact h
  | snoc _ step ok ih => exact ih.step ok step

theorem found_of_has (hheld : tree.Held) (hhas : tree.Has clientId filter) (hlast : HashLast filter)
    (hmatches : segmentsMatch (splitSlash filter) (splitSlash topic) = true) : ∃ sub ∈ tree.lookup topic, sub.clientId = clientId := by
  obtain ⟨M, hM⟩ := hheld
  obtain ⟨qos, hentry⟩ := hM.has_iff.mp hhas
  refine ⟨{ clientId, filter, qos }, ?_, rfl⟩
  rw [hM.mem_lookup]
  exact ⟨hentry, (mem_matchPaths_iff _ _ hlast).mpr hmatches⟩

theorem Seen.enrolled {time : ℕ} {p : Shared → Prop} (hbefore : (brokerSystem settings).Run initial evs₁ cfg₁)
    (hafter : (brokerSystem settings).RunOf (Upholds clientId filter k) cfg₁ evs₂ cfg)
    (h : Enrolled clientId filter k cfg₁.shared.shared) (hseen : Seen settings (evs₁ ++ evs₂) time p)
    (hlate : evs₁.length ≤ time) : ∃ s, Enrolled clientId filter k s ∧ p s := by
  obtain ⟨-, cfg', hrun, hp⟩ := hseen
  rw [List.take_append, List.take_of_length_le hlate] at hrun
  have hcontinued := hbefore.continued (brokerSystem_told settings) hrun
  refine ⟨cfg'.shared.shared, h.run (hcontinued.runOf ?_), hp⟩
  intro e he
  exact hafter.all e (List.mem_of_mem_take he)

end

section
variable {settings : Settings} {cfg cfg₁ : BrokerConfigState} {evs evs₁ evs₂ : List BrokerEvent} {i : ThreadId} {k : ConnId}
  {message : BrokerMessage} {h : Handling} {n : ℕ} {packet : MqttPacket}

theorem unsent_of_fresh (hrun : (brokerSystem settings).Run initial evs cfg) (hfresh : cfg.thread i = .fresh) :
    .act i (.sendRouter message) () ∉ evs := by
  intro hact
  cases System.kept_of_run rfl hrun with
  | inl hkept =>
    have hmem := System.mem_traceOf.mpr hact
    rw [hkept.2.1] at hmem
    cases hmem
  | inr hkept =>
    obtain ⟨_, hbegun, -⟩ := hkept
    exact hbegun hfresh

theorem taken_later (hbefore : (brokerSystem settings).Run initial evs₁ cfg₁) (hfresh : cfg₁.thread i = .fresh)
    (hrun : (brokerSystem settings).Run initial (evs₁ ++ evs₂) cfg) (hmem : h ∈ (journal (evs₁ ++ evs₂)).handled)
    (horigin : h.origin = (i, message)) : evs₁.length ≤ h.time := by
  by_contra hearly
  obtain ⟨-, cfg', hseen, hqueue⟩ := (attested_of_run hrun h hmem).taken
  rw [List.take_append_of_le_length (by omega)] at hseen
  have hqueued : (i, message) ∈ cfg'.shared.shared.queue := by
    rw [horigin] at hqueue
    exact List.mem_of_mem_head? (Option.mem_def.mpr hqueue)
  have hsent : (i, message) ∈ (journal (evs₁.take h.time)).sent := by
    rw [(keeps_of_run hseen).sent]
    exact List.mem_append_right _ hqueued
  exact unsent_of_fresh hbefore hfresh (List.mem_of_mem_take (act_of_sent hsent))

theorem placed_later (hbefore : (brokerSystem settings).Run initial evs₁ cfg₁) (hfresh : cfg₁.thread i = .fresh)
    (hrun : (brokerSystem settings).Run initial (evs₁ ++ evs₂) cfg) (hlasts : ∀ e ∈ evs₂, Lasts e)
    (hget : (journal (evs₁ ++ evs₂)).handled[n]? = some h) (horigin : h.origin = (i, message)) :
    (journal evs₁).handled.length ≤ n := by
  by_contra hlt
  obtain ⟨rest, hrest⟩ := (journal_grows evs₁ hlasts).1
  have hplace : (journal (evs₁ ++ evs₂)).sent[n]? = some (i, message) := by
    rw [(keeps_of_run hrun).sent, List.getElem?_append_left, List.getElem?_map, hget, Option.map_some, horigin]
    rw [List.length_map]
    exact (List.getElem?_eq_some_iff.mp hget).1
  have hfirst : n < (journal evs₁).sent.length := by
    rw [(keeps_of_run hbefore).sent, List.length_append, List.length_map]
    omega
  rw [← hrest, List.getElem?_append_left hfirst] at hplace
  exact unsent_of_fresh hbefore hfresh (act_of_sent (List.mem_of_getElem? hplace))

theorem arrives_later (hbefore : (brokerSystem settings).Run initial evs₁ cfg₁)
    (hlate : (journal evs₁).handled.length ≤ n) (hlasts : ∀ e ∈ evs₂, Lasts e)
    (hlive : (n, packet) ∈ (journal (evs₁ ++ evs₂)).live k) : ∃ later,
      (journal (evs₁ ++ evs₂)).arrived k = (journal evs₁).arrived k ++ later ∧ ∃ arrival ∈ later, arrival.packet = packet := by
  obtain ⟨later, hlater⟩ := (journal_grows evs₁ hlasts).2 k
  refine ⟨later, hlater.symm, ?_⟩
  obtain ⟨arrival, hmem, hstem⟩ := List.mem_filterMap.mp hlive
  rw [← hlater] at hmem
  have hpacket : arrival.packet = packet := by
    obtain ⟨_, -, heq⟩ := Option.map_eq_some_iff.mp hstem
    exact (Prod.mk.inj heq).2
  refine ⟨arrival, (List.mem_append.mp hmem).resolve_left ?_, hpacket⟩
  intro hearlier
  have hbefore' : (n, packet) ∈ (journal evs₁).live k := List.mem_filterMap.mpr ⟨arrival, hearlier, hstem⟩
  rw [(keeps_of_run hbefore).live] at hbefore'
  obtain ⟨h', hget, -⟩ := mem_delivered.mp hbefore'
  have hlt := (List.getElem?_eq_some_iff.mp hget).1
  simp only at hlt
  omega

theorem addressed_later {later : List Arrival} {arrival : Arrival} {p : V3.PublishPacket}
    (h : (journal (evs₁ ++ evs₂)).arrived k = (journal evs₁).arrived k ++ later) (hmem : arrival ∈ later)
    (hpacket : arrival.packet = .V311 (.Publish p)) : ∃ rest, addressed (evs₁ ++ evs₂) k = addressed evs₁ k ++ rest ∧ p ∈ rest := by
  rw [addressed, h, List.filterMap_append]
  refine ⟨_, rfl, List.mem_filterMap.mpr ⟨arrival, hmem, ?_⟩⟩
  rw [hpacket]

end

/-- A `pub` at the other end of the connection shows its PUBACK. -/
structure Assured (evs : List BrokerEvent) (k : ConnId) (args : Client.PubArgs) (cevs : List Client.ClientEvent) : Prop where
  sendable : args.Sendable
  process : ∃ ccfg, Client.clientSystem.Run Client.initial cevs ccfg
  spawned : .spawn .main (.pub args) ∈ cevs
  joined : Joined evs k cevs
  forwards : ∀ w ∈ writes (System.traceOf (.connection k) evs), w.1 ≠ .forwarded
  confirms : Client.confirms (System.traceOf .main cevs) = true

/-- A `sub` at the other end of the connection waits for more, and there is nothing more for it on the way. -/
structure Attentive (evs : List BrokerEvent) (cfg : BrokerConfigState) (k : ConnId) (cevs : List Client.ClientEvent) : Prop where
  process : ∃ args ccfg c, Client.clientSystem.Run Client.initial cevs ccfg ∧ .spawn .main (.sub args) ∈ cevs ∧
    args.connect.WellFormed ∧ ccfg.thread .main = .running (.ret c) ∧ Client.Control.Waits c
  joined : Joined evs k cevs
  stands : ∃ c, between (cfg.thread (.connection k)) = some c
  channel : cfg.shared.shared.channels k = []
  received : (Client.received (System.traceOf .main cevs)).flatten = (offered evs k).flatten
  sizes : ∀ data ∈ offered evs k, data.length ≤ 10 * 1024 * 1024
  topics : ∀ p ∈ addressed evs k, Fits p.topic

/-- The connection of the subscriber has been answered, at least its CONNECT and one packet more. -/
structure Welcomed (evs : List BrokerEvent) (cfg : BrokerConfigState) (k : ConnId) : Prop where
  spawned : .spawn (.connection k) .tcp ∈ evs
  runs : ∃ q, cfg.thread (.connection k) = .running q
  answered : 2 ≤ (writes (System.traceOf (.connection k) evs)).length

section
variable {settings : Settings} {cfg cfg₁ : BrokerConfigState} {evs evs₁ evs₂ : List BrokerEvent} {k k' : ConnId}
  {clientId filter : String} {args : Client.PubArgs} {cevs cevs' : List Client.ClientEvent}

theorem Assured.sent (h : Assured evs k args cevs) (hrun : (brokerSystem settings).Run initial evs cfg)
    (hspawn : .spawn (.connection k) .tcp ∈ evs) : ∃ source, .act (.connection k)
      (.sendRouter (.Publish args.topic (asBytes args.payload) .AtLeastOnce args.retain source)) () ∈ evs := by
  obtain ⟨ccfg, hclient⟩ := h.process
  obtain ⟨packetId, hid, hstream, hanswered⟩ := answered_of_confirms hclient h.spawned h.joined h.forwards h.confirms
  obtain ⟨username, htaken⟩ :=
    takenOver_of_answered rfl hrun hspawn h.sendable hid (h.joined.toBroker.trans hstream) hanswered
  refine ⟨args.fields.idFor (named (System.traceOf (.connection k) evs)), ?_⟩
  have hhanded := List.mem_singleton_self (BrokerMessage.Publish args.topic (asBytes args.payload) .AtLeastOnce args.retain
    (args.fields.idFor (named (System.traceOf (.connection k) evs))))
  rw [← htaken.once] at hhanded
  obtain ⟨a, ha, hmessage⟩ := List.mem_filterMap.mp hhanded
  obtain ⟨⟨a', r⟩, he, hdeed⟩ := List.mem_filterMap.mp ha
  rw [deed] at hdeed
  split_ifs at hdeed
  cases hdeed
  cases a' with
  | sendRouter message =>
    cases hmessage
    exact System.mem_traceOf.mp he
  | _ => cases hmessage

/-- A message that overtakes the SUBACK has come before. -/
theorem Welcomed.overtaken_le (h : Welcomed evs₁ cfg₁ k) (hbefore : (brokerSystem settings).Run initial evs₁ cfg₁) :
    overtaken (evs₁ ++ evs₂) k ≤ (addressed evs₁ k).length := by
  rw [overtaken]
  split_ifs with hsecond
  · obtain ⟨q, hlive⟩ := h.runs
    have hwrites : 1 < ((writes (System.traceOf (.connection k) evs₁)).map fun w => decide (w.1 = .forwarded)).length := by
      rw [List.length_map]
      exact h.answered
    rw [System.traceOf_append, writes_append, List.map_append, List.getElem?_append_left hwrites] at hsecond
    obtain ⟨w, hw, hforwarded⟩ := List.mem_map.mp (List.mem_of_getElem? hsecond)
    have hpart : w.2 ∈ forwarded (System.traceOf (.connection k) evs₁) :=
      List.mem_filterMap.mpr ⟨w, hw, if_pos (of_decide_eq_true hforwarded)⟩
    have harrived := (forwarded_arrived hbefore h.spawned hlive).subset hpart
    rw [addressed_sent (arrived_publishes hbefore)] at harrived
    obtain ⟨p, hp, -⟩ := List.mem_map.mp harrived
    exact List.length_pos_of_mem hp
  · exact Nat.zero_le _

/-- What `pub` shows as acknowledged comes to `sub`: if the subscriber had been answered before, keeps its subscription to a
    filter that matches and its connection, and the router and the subscriber have come to rest, `sub` has shown it. -/
theorem conveyed_of_joined (hbefore : (brokerSystem settings).Run initial evs₁ cfg₁)
    (hafter : (brokerSystem settings).RunOf (Upholds clientId filter k) cfg₁ evs₂ cfg)
    (henrolled : Enrolled clientId filter k cfg₁.shared.shared) (hwelcomed : Welcomed evs₁ cfg₁ k)
    (hlast : HashLast filter) (hmatches : segmentsMatch (splitSlash filter) (splitSlash args.topic) = true)
    (hfresh : cfg₁.thread (.connection k') = .fresh) (hspawn : .spawn (.connection k') .tcp ∈ evs₂)
    (hassured : Assured (evs₁ ++ evs₂) k' args cevs) (hrests : rests cfg = true) (hempty : cfg.shared.shared.queue = [])
    (hattentive : Attentive (evs₁ ++ evs₂) cfg k cevs') :
    { topic := args.topic, payload := asBytes args.payload, qos := .AtMostOnce, retain := false, packetId := none } ∈
      Client.messages (System.traceOf .main cevs') := by
  have hrun : (brokerSystem settings).Run initial (evs₁ ++ evs₂) cfg := System.RunWhere.append hbefore hafter
  have hlasts : ∀ e ∈ evs₂, Lasts e := fun e he => lasts_of_upholds (hafter.all e he)
  -- The router has taken the message, after all that it had taken before.
  obtain ⟨source, hact⟩ := hassured.sent hrun (List.mem_append_right _ hspawn)
  have hlater := (List.mem_append.mp hact).resolve_left (unsent_of_fresh hbefore hfresh)
  have hsent := sent_of_act evs₁ hlasts hlater
  rw [(keeps_of_run hrun).sent, hempty, List.append_nil] at hsent
  obtain ⟨h, hmem, horigin⟩ := List.mem_map.mp hsent
  obtain ⟨n, hget⟩ := List.mem_iff_getElem?.mp hmem
  have htime := taken_later hbefore hfresh hrun hmem horigin
  have hplace := placed_later hbefore hfresh hrun hlasts hget horigin
  have hcontent : h.content = some (args.topic, publishPacket args.topic (asBytes args.payload) false) := by
    rw [Handling.content, (Prod.mk.inj horigin).2]
  -- It has found the subscriber, and the connection of the subscriber.
  have hrouted := attested_of_run hrun h hmem
  have hcomplete := complete_of_run hrun hget (.inr hrests)
  obtain ⟨l, hlooked, htopic⟩ := hcomplete.looked _ _ hcontent
  obtain ⟨hl, hseen⟩ := hrouted.looked l hlooked
  obtain ⟨s, hs, hlookup⟩ := hseen.enrolled hbefore hafter henrolled (by omega)
  obtain ⟨sub, hsub, hclient⟩ := found_of_has hs.held hs.listed hlast (htopic ▸ hmatches)
  have hoffer : (clientId, publishPacket args.topic (asBytes args.payload) false) ∈ h.visited := by
    rw [hcomplete.visited, Handling.offers, hcontent, hlooked]
    exact List.mem_map.mpr ⟨sub, hlookup ▸ hsub, by rw [hclient]⟩
  obtain ⟨v, hv, hvisit⟩ := List.mem_map.mp hoffer
  obtain ⟨hvclient, hvpacket⟩ := Prod.mk.inj hvisit
  obtain ⟨hvtime, hvseen⟩ := hrouted.visits v hv
  obtain ⟨s', hs', hvconnection⟩ := hvseen.enrolled hbefore hafter henrolled (by omega)
  rw [hvclient, hs'.receiver] at hvconnection
  -- So it has come into the channel, after what had come there before, and `sub` has shown it.
  have hlive : (n, publishPacket args.topic (asBytes args.payload) false) ∈ (journal (evs₁ ++ evs₂)).live k := by
    rw [(keeps_of_run hrun).live]
    exact mem_delivered.mpr ⟨h, hget, v, hv, hvconnection.symm, hvpacket⟩
  obtain ⟨later, harrived, arrival, harrival, hpacket⟩ := arrives_later hbefore hplace hlasts hlive
  obtain ⟨sargs, ccfg, c', hprocess, hmain, hargs, hc, hwaits⟩ := hattentive.process
  obtain ⟨c, hstands⟩ := hattentive.stands
  have hspawned : .spawn (.connection k) .tcp ∈ evs₁ ++ evs₂ := List.mem_append_left _ hwelcomed.spawned
  obtain ⟨ps, hwritten⟩ :=
    written_of_run hrun hspawned (eq_of_between hstands) hprocess hmain hargs hattentive.joined hattentive.topics
  rw [shown_at_rest hwritten hrun hspawned hprocess hmain hstands hattentive.channel hattentive.sizes hattentive.received hc hwaits]
  obtain ⟨rest, haddressed, hmem⟩ := addressed_later harrived harrival hpacket
  rw [haddressed, List.drop_append_of_le_length (hwelcomed.overtaken_le hbefore)]
  exact List.mem_append_right _ hmem

end

def tellerArgs : Client.PubArgs := { Client.publisherArgs with clientId := "p" }

def listensMoves : List BrokerMove :=
  joinMoves 0 "c" true ++ [.act (.connection 0) (.received (.data listenBytes))] ++ turns (.connection 0) 8

def conveysMoves : List BrokerMove :=
  joinMoves 1 "p" true ++
  [.act (.connection 1) (.received (.data (Client.bytesOf (.Publish (tellerArgs.message (some 1))))))] ++
  turns (.connection 1) 7 ++ [.spawn (.router 0) .router] ++ turns (.router 0) 5 ++
  [.act (.connection 0) .forwarded] ++ turns (.connection 0) 3

def tellerMoves : List Client.ClientMove :=
  Client.mainMoves (.pub tellerArgs)
    [.go, .ready true, .wrote none, .ready true, .read (.bytes [0x20, 2, 0, 0]), .go, .wrote none, .go, .ready true,
      .read (.bytes [0x40, 2, 0, 1]), .go, .wrote none, .go, .go]

def unbegun (t : Thread Action Reply Control) : Bool :=
  match t with
  | .fresh => true
  | _ => false

theorem eq_of_unbegun {t : Thread Action Reply Control} (h : unbegun t = true) : t = .fresh := by
  cases t <;> first | rfl | cases h

/-- What the broker has to be in before and after, and what the two clients have to see. -/
def conveys (before after : List BrokerEvent × BrokerConfigState) (teller listener : List Client.ClientEvent × Client.ClientState) :
    Bool :=
  let evs := before.1 ++ after.1
  before.2.shared.shared.broker.subscriptions.allSubscriptions.any (fun s => s.clientId == "c" && s.filter == "t") &&
  before.2.shared.shared.broker.connections.lookup "c" == some 0 && before.2.shared.shared.dropped 0 == false &&
  before.1.any (startsTcp 0) && (between (before.2.thread (.connection 0))).isSome &&
  decide (2 ≤ (writes (System.traceOf (.connection 0) before.1)).length) &&
  unbegun (before.2.thread (.connection 1)) && after.1.any (startsTcp 1) &&
  rests after.2 && after.2.shared.shared.queue.isEmpty &&
  teller.1.any (Client.startsMain (.pub tellerArgs)) &&
  (heard (System.traceOf (.connection 1) evs)).flatten.isPrefixOf (Client.wire teller.1) &&
  (Client.received (System.traceOf .main teller.1)).flatten.isPrefixOf (offered evs 1).flatten &&
  (writes (System.traceOf (.connection 1) evs)).all (fun w => w.1 != .forwarded) &&
  Client.confirms (System.traceOf .main teller.1) &&
  listener.1.any (Client.startsMain (.sub Client.readerArgs)) && Client.awaits (listener.2.thread .main) &&
  (heard (System.traceOf (.connection 0) evs)).flatten.isPrefixOf (Client.wire listener.1) &&
  (between (after.2.thread (.connection 0))).isSome && (after.2.shared.shared.channels 0).isEmpty &&
  (Client.received (System.traceOf .main listener.1)).flatten == (offered evs 0).flatten &&
  (offered evs 0).all (fun data => data.length ≤ 10 * 1024 * 1024) &&
  (addressed evs 0).all (fun p => decide (Fits p.topic))

theorem conveyed_of_joined_teller : ∃ evs cevs cevs' cfg ccfg ccfg', (brokerSystem openSettings).Run initial evs cfg ∧
    Client.clientSystem.Run Client.initial cevs ccfg ∧ .spawn .main (.pub tellerArgs) ∈ cevs ∧
    Client.clientSystem.Run Client.initial cevs' ccfg' ∧ .spawn .main (.sub Client.readerArgs) ∈ cevs' ∧
    { topic := "t", payload := [0x78], qos := .AtMostOnce, retain := false, packetId := none } ∈
      Client.messages (System.traceOf .main cevs') := by
  have hplays : (execute openSettings listensMoves).any (fun before =>
      ((brokerSystem openSettings).execWhere (fun _ _ e _ => upholds "c" "t" 0 e) [] before.2 conveysMoves).any (fun after =>
        (Client.execute tellerMoves).any (fun teller => (Client.execute listenerMoves).any (conveys before after teller)))) =
      true := by decide +kernel
  obtain ⟨⟨evs₁, cfg₁⟩, hexec₁, hplays⟩ := (Option.any_eq_true _ _).mp hplays
  obtain ⟨⟨evs₂, cfg⟩, hexec₂, hplays⟩ := (Option.any_eq_true _ _).mp hplays
  obtain ⟨⟨cevs, ccfg⟩, hteller, hplays⟩ := (Option.any_eq_true _ _).mp hplays
  obtain ⟨⟨cevs', ccfg'⟩, hlistener, hplays⟩ := (Option.any_eq_true _ _).mp hplays
  simp only [conveys, Bool.and_eq_true, beq_iff_eq, decide_eq_true_eq, List.isEmpty_iff, List.isPrefixOf_iff_prefix,
    List.all_eq_true, bne_iff_ne] at hplays
  obtain ⟨hplays, htopics⟩ := hplays
  obtain ⟨hplays, hsizes⟩ := hplays
  obtain ⟨hplays, hreceived⟩ := hplays
  obtain ⟨⟨⟨⟨⟨hplays, hsub⟩, hwaits⟩, hheard⟩, hstands⟩, hchannel⟩ := hplays
  obtain ⟨⟨⟨⟨⟨hplays, hpub⟩, hheard'⟩, hreceived'⟩, hforwards⟩, hconfirms⟩ := hplays
  obtain ⟨⟨⟨⟨⟨⟨⟨⟨⟨hlisted, hconnection⟩, hserved⟩, hspawn⟩, hruns⟩, hanswered⟩, hfresh⟩, hspawn'⟩, hrests⟩, hempty⟩ := hplays
  obtain ⟨c, hstands⟩ := Option.isSome_iff_exists.mp hstands
  obtain ⟨c₁, hruns⟩ := Option.isSome_iff_exists.mp hruns
  obtain ⟨buf, stage, hwaits⟩ := Client.eq_of_awaits hwaits
  obtain ⟨sub, hsubmem, hsubkey⟩ := List.any_eq_true.mp hlisted
  simp only [Bool.and_eq_true, beq_iff_eq] at hsubkey
  have hbefore := execute_run hexec₁
  have hafter : (brokerSystem openSettings).RunOf (Upholds "c" "t" 0) cfg₁ evs₂ cfg :=
    System.execWhere_run _ (fun _ _ _ _ hok => hok) .nil hexec₂
  have hheld := held_of_run .new hbefore
  have henrolled : Enrolled "c" "t" 0 cfg₁.shared.shared :=
    ⟨hheld, ⟨sub.qos, by rw [← hsubkey.1, ← hsubkey.2]; exact hsubmem⟩, hconnection, hserved⟩
  have hassured : Assured (evs₁ ++ evs₂) 1 tellerArgs cevs :=
    { sendable := ⟨plainArgs_fit rfl rfl (by decide), by decide⟩
      process := ⟨ccfg, Client.execute_run hteller⟩
      spawned := Client.mem_of_startsMain hpub
      joined := ⟨hheard', hreceived'⟩
      forwards := hforwards
      confirms := hconfirms }
  have hattentive : Attentive (evs₁ ++ evs₂) cfg 0 cevs' :=
    { process := ⟨Client.readerArgs, ccfg', .awaiting buf stage, Client.execute_run hlistener, Client.mem_of_startsMain hsub,
        plainArgs_fit rfl rfl (by decide), hwaits, trivial⟩
      joined := ⟨hheard, hreceived ▸ List.prefix_rfl⟩
      stands := ⟨c, hstands⟩
      channel := hchannel
      received := hreceived
      sizes := hsizes
      topics := htopics }
  exact ⟨evs₁ ++ evs₂, cevs, cevs', cfg, ccfg, ccfg', System.RunWhere.append hbefore hafter, Client.execute_run hteller,
    Client.mem_of_startsMain hpub, Client.execute_run hlistener, Client.mem_of_startsMain hsub,
    conveyed_of_joined hbefore hafter henrolled ⟨mem_of_startsTcp hspawn, ⟨_, eq_of_between hruns⟩, hanswered⟩ (by decide)
      (by decide) (eq_of_unbegun hfresh) (mem_of_startsTcp hspawn') hassured hrests hempty hattentive⟩

end AtomMqtt
