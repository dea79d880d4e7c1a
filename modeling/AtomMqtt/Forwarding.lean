import AtomMqtt.Journal
import AtomMqtt.Links
import AtomMqtt.TaskSpec

set_option autoImplicit false

/-! What a TCP connection forwards. A connection writes its CONNACK first. After it, it forwards what it takes
out of its channel, in this order, between its answers. The channel brings the messages that the router, or a
new subscription, has put into it. -/
namespace AtomMqtt
open Programs Framing

def selected (tr : Trace Action Reply) : List Bytes :=
  tr.filterMap fun e =>
    match e with
    | ⟨.selectTcp, .forwarded data⟩ => some data
    | ⟨.selectWs, .forwarded data⟩ => some data
    | ⟨.recvForwarded, some data⟩ => some data
    | _ => none

def forwardedPart (w : Outgoing × Bytes) : Option Bytes := if w.1 = .forwarded then some w.2 else none

/-- What has been forwarded, the last of it perhaps in part. -/
def forwarded (tr : Trace Action Reply) : List Bytes := (writes tr).filterMap forwardedPart

theorem selected_append (tr tr' : Trace Action Reply) : selected (tr ++ tr') = selected tr ++ selected tr' :=
  List.filterMap_append

theorem forwarded_append (tr tr' : Trace Action Reply) : forwarded (tr ++ tr') = forwarded tr ++ forwarded tr' := by
  rw [forwarded, writes_append, List.filterMap_append]
  rfl

/-- A CONNACK comes first, and no other. -/
def ConnackFirst (ws : List (Outgoing × Bytes)) : Prop :=
  ws = [] ∨ ∃ data rest, ws = (.connack, data) :: rest ∧ ∀ w ∈ rest, w.1 ≠ .connack

/-- How a TCP connection stands after whole turns. -/
inductive Speaks : Trace Action Reply → Control → Prop
  | fresh : Speaks [] .tcp
  | looping {tr : Trace Action Reply} {c : Control} {l : ConnLoop} {data : Bytes} {rest : List (Outgoing × Bytes)}
      (hl : c.connLoop = some l) (hwrites : writes tr = (.connack, data) :: rest) (hrest : ∀ w ∈ rest, w.1 ≠ .connack)
      (hforwarded : forwarded tr = selected tr) : Speaks tr c
  | ended {tr : Trace Action Reply} {ok : Bool} (hfirst : ConnackFirst (writes tr)) (hforwarded : forwarded tr = selected tr) :
      Speaks tr (.exited ok)

section
variable {settings : Settings} {l : ConnLoop} {c : ConnectFields} {ctrl ctrl' : Control} {tr tr' : Trace Action Reply}

def Greets (tr : Trace Action Reply) (ctrl : Control) : Prop :=
  (∃ data, writes tr = [(.connack, data)]) ∧ selected tr = [] ∧ ((∃ l, ctrl = .tcpLoop l) ∨ ∃ ok, ctrl = .exited ok)

def Mute (tr : Trace Action Reply) : Prop := writes tr = [] ∧ selected tr = []

theorem Greets.after (h : Mute tr) (h' : Greets tr' ctrl) : Greets (tr ++ tr') ctrl := by
  obtain ⟨hwrites, hselected⟩ := h
  obtain ⟨⟨data, hconnack⟩, hnone, hctrl⟩ := h'
  refine ⟨⟨data, ?_⟩, ?_, hctrl⟩
  · rw [writes_append, hwrites, hconnack]
    rfl
  · rw [selected_append, hselected, hnone]
    rfl

theorem drops_mute (h : Drops tr) : Mute tr := by
  constructor
  · apply List.filterMap_eq_nil_iff.mpr
    rintro ⟨a, r⟩ he
    obtain rfl : a = .dropReceiver := h _ he
    rfl
  · apply List.filterMap_eq_nil_iff.mpr
    rintro ⟨a, r⟩ he
    obtain rfl : a = .dropReceiver := h _ he
    rfl

theorem registerSession_mute {username : String} : Ensures (fun tr _ => Mute tr) (registerSession c username) := by
  unfold registerSession
  cases c.clientId.isEmpty with
  | true => exact .act fun _ => .act fun _ => .act fun _ => .act fun _ => .ret ⟨rfl, rfl⟩
  | false => exact .act fun _ => .act fun _ => .act fun _ => .ret ⟨rfl, rfl⟩

theorem storeWill_mute (clientId : String) (will : WillMessage) :
    Ensures (fun tr _ => Mute tr) (storeWill clientId will) := .act fun _ => .act fun _ => .ret ⟨rfl, rfl⟩

theorem enterTcpLoop_greets {readBuf : Bytes} {clientId username : String} :
    Ensures Greets (enterTcpLoop readBuf c clientId username) := by
  unfold enterTcpLoop saveSession
  apply ensures_run
  intro _
  apply (writePacket_ensures (encodePacket_sentBytes (acceptedConnack c.version))).seq
  rintro tr sent rfl
  cases sent with
  | false => exact .ret ⟨⟨_, rfl⟩, rfl, .inr ⟨false, rfl⟩⟩
  | true =>
    apply ensures_run
    intro _
    match V3.decodePacket readBuf with
    | .ok (some (_, consumed)) => exact .ret ⟨⟨_, rfl⟩, rfl, .inl ⟨_, rfl⟩⟩
    | .ok none => exact .ret ⟨⟨_, rfl⟩, rfl, .inr ⟨false, rfl⟩⟩
    | .error _ => exact .ret ⟨⟨_, rfl⟩, rfl, .inr ⟨false, rfl⟩⟩

theorem acceptTcp_greets (readBuf : Bytes) : Ensures Greets (acceptTcp settings readBuf c) := by
  unfold acceptTcp
  cases settings.authenticator.authenticate settings.config.allowAnonymous c.username c.password with
  | Denied reason =>
    apply (writePacket_ensures (encodePacket_sentBytes (deniedConnack c.version reason))).seq
    rintro tr sent rfl
    cases sent with
    | false => exact .ret ⟨⟨_, rfl⟩, rfl, .inr ⟨false, rfl⟩⟩
    | true => exact .ret ⟨⟨_, rfl⟩, rfl, .inr ⟨true, rfl⟩⟩
  | Success username =>
    apply registerSession_mute.seq
    intro tr clientId hmute
    cases c.will with
    | none => exact enterTcpLoop_greets.mono fun _ _ h => h.after hmute
    | some will =>
      apply (storeWill_mute clientId will).seq
      intro tr' _ hmute'
      exact enterTcpLoop_greets.mono fun _ _ h => Greets.after hmute (h.after hmute')

theorem handleConnection_speaks : Ensures Speaks (handleConnection settings) := by
  have hgone : ∀ (r : Received) ok, Speaks [⟨.read, r⟩] (.exited ok) := fun r ok => .ended (.inl rfl) rfl
  unfold handleConnection
  apply ensures_ask
  intro r
  match r with
  | .failed => exact .ret (hgone _ _)
  | .closed => exact .ret (hgone _ _)
  | .data readBuf =>
    cases hfirst : decodeFirstPacket readBuf with
    | error _ =>
      simp only [hfirst]
      exact .ret (hgone _ _)
    | ok found =>
      cases found with
      | none =>
        simp only [hfirst]
        exact .ret (hgone _ _)
      | some packet =>
        cases hfields : connectFields packet with
        | none =>
          simp only [hfirst, hfields]
          exact .ret (hgone _ _)
        | some c =>
          simp only [hfirst, hfields]
          apply (acceptTcp_greets readBuf).mono
          rintro tr ctrl ⟨⟨data, hwrites⟩, hselected, hctrl⟩
          have hnone : forwarded (⟨.read, .data readBuf⟩ :: tr) = selected (⟨.read, .data readBuf⟩ :: tr) := by
            change (writes tr).filterMap forwardedPart = selected tr
            rw [hwrites, hselected]
            rfl
          rcases hctrl with ⟨l, rfl⟩ | ⟨ok, rfl⟩
          · exact .looping rfl hwrites (List.forall_mem_nil _) hnone
          · exact .ended (.inr ⟨data, [], hwrites, List.forall_mem_nil _⟩) hnone

def Carries (tr : Trace Action Reply) : Prop := (∀ w ∈ writes tr, w.1 ≠ .connack) ∧ forwarded tr = selected tr

theorem carries_of_inner {tr : Trace Action Reply} (h : ∀ e ∈ tr, e.1.outer = false) : Carries tr := by
  have hresponse : ∀ w ∈ writes tr, w.1 = .response := by
    intro w hw
    obtain ⟨⟨a, r⟩, he, hwritten⟩ := List.mem_filterMap.mp hw
    have houter := h _ he
    cases a with
    | write what data =>
      cases hwritten
      cases what <;> first | rfl | cases houter
    | _ => cases hwritten
  have hselected : selected tr = [] := by
    apply List.filterMap_eq_nil_iff.mpr
    rintro ⟨a, r⟩ he
    have houter := h _ he
    cases a <;> first | rfl | cases houter
  have hforwarded : forwarded tr = [] := by
    apply List.filterMap_eq_nil_iff.mpr
    intro w hw
    rw [forwardedPart, hresponse w hw]
    rfl
  refine ⟨?_, hforwarded.trans hselected.symm⟩
  intro w hw
  rw [hresponse w hw]
  decide

theorem handlePacket_carries {packet : MqttPacket} {size : ℕ} {again : ConnLoop → Control} :
    Ensures (fun tr _ => Carries tr) (handlePacket settings l packet size again) :=
  handlePacket_inner.ensures.mono fun _ _ => carries_of_inner

theorem cleanup_carries : Ensures (fun tr _ => Carries tr) (cleanup l) :=
  cleanup_inner.ensures.mono fun _ _ => carries_of_inner

theorem carries_forwarded {data : Bytes} {tr part : Trace Action Reply} (hpart : writes part = [(.forwarded, data)])
    (hselected : selected part = [data]) (h : Carries tr) : Carries (part ++ tr) := by
  refine ⟨?_, ?_⟩
  · intro w hw
    rw [writes_append, hpart] at hw
    rcases List.mem_cons.mp hw with rfl | hw
    · exact Outgoing.noConfusion
    · exact h.1 w hw
  · rw [forwarded_append, selected_append, h.2, forwarded, hpart, hselected]
    rfl

theorem tcpLoop_carries : Ensures (fun tr _ => Carries tr) (tcpLoop settings l) := by
  have hidle : Carries [] := ⟨List.forall_mem_nil _, rfl⟩
  unfold tcpLoop
  match decodePacketByVersion l.buf l.version with
  | .ok (some (packet, size)) => exact handlePacket_carries
  | .error _ => exact cleanup_carries
  | .ok none =>
    apply ensures_ask
    intro event
    match event with
    | .received (.data _) => exact .ret hidle
    | .received .closed => exact cleanup_carries.mono fun _ _ h => h
    | .received .failed => exact .ret hidle
    | .forwarded data =>
      apply ensures_ask
      intro sent
      have hpart : ∀ {tr}, Carries tr → Carries ([⟨.selectTcp, .forwarded data⟩, ⟨.write .forwarded data, sent⟩] ++ tr) :=
        carries_forwarded rfl rfl
      cases sent with
      | false => exact cleanup_carries.mono fun _ _ h => hpart h
      | true =>
        apply ensures_run
        intro _
        apply ensures_run
        intro _
        exact .ret (hpart hidle)

theorem forwardWs_carries {data : Bytes} {e : Entry} (hwrites : writes [e] = []) (hselected : selected [e] = [data]) :
    Ensures (fun tr _ => Carries (e :: tr)) (forwardWs l data) := by
  unfold forwardWs
  apply ensures_ask
  intro sent
  have hpart : ∀ {tr}, Carries tr → Carries ([e, ⟨.write .forwarded data, sent⟩] ++ tr) := by
    intro tr
    apply carries_forwarded
    · rw [← List.singleton_append, writes_append, hwrites]
      rfl
    · rw [← List.singleton_append, selected_append, hselected]
      rfl
  cases sent with
  | false => exact cleanup_carries.mono fun _ _ h => hpart h
  | true =>
    apply ensures_run
    intro _
    exact .ret (hpart ⟨List.forall_mem_nil _, rfl⟩)

theorem wsLoop_carries : Ensures (fun tr _ => Carries tr) (wsLoop settings l) := by
  have hidle : Carries [] := ⟨List.forall_mem_nil _, rfl⟩
  unfold wsLoop
  match decodePacketByVersion l.buf l.version with
  | .ok (some (packet, size)) => exact handlePacket_carries
  | .error _ => exact cleanup_carries
  | .ok none =>
    apply ensures_ask
    intro event
    match event with
    | .frame (.binary _) => exact .ret hidle
    | .frame .close => exact cleanup_carries.mono fun _ _ h => h
    | .frame (.ping bytes) =>
      apply ensures_run
      intro _
      exact .ret hidle
    | .frame .pong => exact .ret hidle
    | .frame .other => exact .ret hidle
    | .forwarded data => exact forwardWs_carries rfl rfl
    | .lost => exact .ret hidle

theorem wsLost_carries : Ensures (fun tr _ => Carries tr) (wsLost l) := by
  unfold wsLost
  apply ensures_ask
  intro forwarded
  cases forwarded with
  | none => exact cleanup_carries.mono fun _ _ h => h
  | some data => exact forwardWs_carries rfl rfl

theorem loop_carries (hl : ctrl.connLoop = some l) (h : Exec (body settings ctrl) tr ctrl') : Carries tr := by
  cases ctrl with
  | tcpLoop l' => exact tcpLoop_carries.of_exec h
  | wsLoop l' => exact wsLoop_carries.of_exec h
  | wsLost l' => exact wsLost_carries.of_exec h
  | _ => cases hl

theorem Speaks.turn (h : Speaks tr ctrl) (hturn : Exec (body settings ctrl) tr' ctrl') : Speaks (tr ++ tr') ctrl' := by
  cases h with
  | fresh => exact handleConnection_speaks.of_exec hturn
  | @looping _ _ l data rest hl hwrites hrest hforwarded =>
    obtain ⟨hothers, hforwarded'⟩ := loop_carries hl hturn
    have hwrites' : writes (tr ++ tr') = (.connack, data) :: (rest ++ writes tr') := by
      rw [writes_append, hwrites, List.cons_append]
    have hrest' : ∀ w ∈ rest ++ writes tr', w.1 ≠ .connack := List.forall_mem_append.mpr ⟨hrest, hothers⟩
    have hboth : forwarded (tr ++ tr') = selected (tr ++ tr') := by
      rw [forwarded_append, selected_append, hforwarded, hforwarded']
    cases loop_goes hl hturn with
    | inl hgoes =>
      obtain ⟨buf, hloop, -⟩ := hgoes
      exact .looping hloop.connLoop hwrites' hrest' hboth
    | inr hexited =>
      obtain ⟨ok, rfl⟩ := hexited
      exact .ended (.inr ⟨data, _, hwrites', hrest'⟩) hboth
  | ended hfirst hforwarded =>
    obtain ⟨hdrops, rfl⟩ := exited_turn hturn
    have hnone : Mute tr' := drops_mute hdrops
    refine .ended ?_ ?_
    · rwa [writes_append, hnone.1, List.append_nil]
    · rw [forwarded_append, selected_append, hforwarded, forwarded, hnone.1, hnone.2]
      rfl

theorem speaks_of_history {h : List (Control × Trace Action Reply)} (hhistory : History (body settings) ctrl h ctrl') :
    ∀ {tr}, Speaks tr ctrl → Speaks (tr ++ h.flatMap Prod.snd) ctrl' := by
  induction hhistory with
  | done c =>
    intro tr hspeaks
    rwa [List.flatMap_nil, List.append_nil]
  | turn hturn _ ih =>
    intro tr hspeaks
    rw [List.flatMap_cons, ← List.append_assoc]
    exact ih (hspeaks.turn hturn)

theorem Speaks.holds (h : Speaks tr ctrl) : ConnackFirst (writes tr) ∧ forwarded tr = selected tr := by
  cases h with
  | fresh => exact ⟨.inl rfl, rfl⟩
  | looping _ hwrites hrest hforwarded => exact ⟨.inr ⟨_, _, hwrites, hrest⟩, hforwarded⟩
  | ended hfirst hforwarded => exact ⟨hfirst, hforwarded⟩

theorem ConnackFirst.within {ws ws' : List (Outgoing × Bytes)} (h : ConnackFirst ws') (hwithin : ws <+: ws') :
    ConnackFirst ws := by
  rcases h with rfl | ⟨data, rest, rfl, hrest⟩
  · exact .inl (List.prefix_nil.mp hwithin)
  · cases ws with
    | nil => exact .inl rfl
    | cons w ws =>
      obtain ⟨rfl, hws⟩ := List.cons_prefix_cons.mp hwithin
      exact .inr ⟨data, ws, rfl, fun w hw => hrest w (hws.subset hw)⟩

theorem hangUp_unselected (h : ∀ e ∈ tr, e.2 = hangUp e.1) : selected tr = [] := by
  apply List.filterMap_eq_nil_iff.mpr
  rintro ⟨a, r⟩ he
  obtain rfl : r = hangUp a := h _ he
  cases a <;> rfl

end

section
variable {settings : Settings} {P : List BrokerEvent → BrokerConfigState → BrokerEvent → BrokerConfigState → Prop}
  {cfg₀ cfg : BrokerConfigState} {evs : List BrokerEvent} {k : ConnId} {c : Control}

/-- In every run a TCP connection writes its CONNACK first, and forwards what it takes out of its channel. -/
theorem speaks_of_run (hinit : cfg₀.thread (.connection k) = .fresh)
    (hrun : (brokerSystem settings).RunWhere P cfg₀ evs cfg) (hspawn : .spawn (.connection k) .tcp ∈ evs) :
    ConnackFirst (writes (System.traceOf (.connection k) evs)) ∧
      forwarded (System.traceOf (.connection k) evs) <+: selected (System.traceOf (.connection k) evs) := by
  obtain ⟨h, c, part, q, hhistory, htrace, hpartway, -⟩ := course_of_connection hinit hrun hspawn
  obtain ⟨rest, c', hexec, hrest⟩ := hpartway.completed hangUp
  obtain ⟨hfirst, hforwarded⟩ := ((speaks_of_history hhistory .fresh).turn hexec).holds
  rw [List.nil_append, ← List.append_assoc, ← htrace] at hfirst hforwarded
  rw [writes_append] at hfirst
  rw [forwarded_append, selected_append, hangUp_unselected hrest, List.append_nil] at hforwarded
  exact ⟨hfirst.within (List.prefix_append _ _), hforwarded ▸ List.prefix_append _ _⟩

theorem forwarded_between (hinit : cfg₀.thread (.connection k) = .fresh)
    (hrun : (brokerSystem settings).RunWhere P cfg₀ evs cfg) (hspawn : .spawn (.connection k) .tcp ∈ evs)
    (hstands : between (cfg.thread (.connection k)) = some c) :
    forwarded (System.traceOf (.connection k) evs) = selected (System.traceOf (.connection k) evs) := by
  obtain ⟨h, c', part, q, hhistory, htrace, hpartway, hends⟩ := course_of_connection hinit hrun hspawn
  obtain ⟨rfl, rfl⟩ := hends c (eq_of_between hstands)
  rw [List.append_nil] at htrace
  rw [htrace]
  exact (speaks_of_history hhistory .fresh).holds.2

end

section
variable {settings : Settings} {P : List BrokerEvent → BrokerConfigState → BrokerEvent → BrokerConfigState → Prop}
  {cfg : BrokerConfigState} {evs : List BrokerEvent} {k : ConnId} {j : Journal} {i : ThreadId} {a : Action} {r : Reply a}

theorem mem_arrived_act {arrival : Arrival} (h : arrival ∈ (j.act i a r).arrived k) :
    arrival ∈ j.arrived k ∨ ∃ clientId, a = .forward clientId arrival.packet := by
  cases a with
  | forward clientId packet =>
    change arrival ∈ j.arrive _ _ k at h
    rw [Journal.arrive_eq] at h
    by_cases hk : j.receiver clientId = some k
    · rw [if_pos hk] at h
      cases List.mem_append.mp h with
      | inl h => exact .inl h
      | inr h => exact .inr ⟨clientId, by rw [List.mem_singleton.mp h]⟩
    · rw [if_neg hk, List.append_nil] at h
      exact .inl h
  | selectTcp => cases r <;> exact .inl h
  | selectWs => cases r <;> exact .inl h
  | recvForwarded => cases r <;> exact .inl h
  | dropReceiver => cases i <;> exact .inl h
  | connectionsInsert clientId => cases i <;> exact .inl h
  | _ => exact .inl h

theorem forward_allowed {g : Phase} {clientId : String} {packet : MqttPacket} (h : allows settings i g (.forward clientId packet)) :
    ∃ topic payload retain, packet = publishPacket topic payload retain := by
  cases i with
  | router life =>
    obtain ⟨_, topic, payload, retain, -, rfl⟩ := h
    exact ⟨topic, payload, retain, rfl⟩
  | connection k =>
    obtain ⟨_, -, -, item, -, rfl⟩ := h
    exact ⟨item.topic, item.payload, true, rfl⟩
  | web k => exact h.elim
  | request k => exact h.elim

def Journal.Publishes (j : Journal) : Prop :=
  ∀ k, ∀ arrival ∈ j.arrived k, ∃ topic payload retain, arrival.packet = publishPacket topic payload retain

theorem arrived_publishes (hrun : (brokerSystem settings).RunWhere P initial evs cfg) : (journal evs).Publishes := by
  have hstep : ∀ {evs : List BrokerEvent} {cfg : BrokerConfigState} {e : BrokerEvent} {cfg' : BrokerConfigState},
      (brokerSystem settings).RunWhere P initial evs cfg → (brokerSystem settings).Step cfg e cfg' → P evs cfg e cfg' →
      (∀ i a r, e = .act i a r → allows settings i (phases settings evs i) a) → (journal evs).Publishes →
      (journal (evs ++ [e])).Publishes := by
    intro evs cfg e cfg' _ _ _ hallows h k arrival harrival
    rw [journal_snoc] at harrival
    cases e with
    | spawn i c => exact h k arrival harrival
    | act i a r =>
      rcases mem_arrived_act harrival with hbefore | ⟨clientId, rfl⟩
      · exact h k arrival hbefore
      · exact forward_allowed (hallows i _ r rfl)
    | world w =>
      cases w with
      | commit n => exact h k arrival harrival
      | restart => cases harrival
  exact (covers settings).induction (fun _ => rfl) (J := fun evs _ => (journal evs).Publishes)
    (fun _ => List.forall_mem_nil _) hstep hrun

theorem selected_act (i : ThreadId) (a : Action) (r : Reply a) :
    selected (System.traceOf (.connection k) [(.act i a r : BrokerEvent)]) = a.dequeues i k r := by
  by_cases hi : i = .connection k
  · subst hi
    rw [System.traceOf_act]
    cases a with
    | selectTcp => cases r <;> simp [selected, Action.dequeues]
    | selectWs => cases r <;> simp [selected, Action.dequeues]
    | recvForwarded => cases r <;> simp [selected, Action.dequeues]
    | _ => rfl
  · rw [System.traceOf_act_other (Ne.symm hi)]
    cases a with
    | selectTcp => cases r <;> simp [selected, Action.dequeues, hi]
    | selectWs => cases r <;> simp [selected, Action.dequeues, hi]
    | recvForwarded => cases r <;> simp [selected, Action.dequeues, hi]
    | _ => rfl

theorem received_of_run (hrun : (brokerSystem settings).RunWhere P initial evs cfg) :
    (cfg.thread (.connection k) = .fresh → (journal evs).received k = []) ∧
      ∀ q, cfg.thread (.connection k) = .running q →
        (journal evs).received k = selected (System.traceOf (.connection k) evs) := by
  induction hrun with
  | nil =>
    refine ⟨fun _ => rfl, ?_⟩
    intro q hq
    cases hq
  | @snoc evs cfg cfg' e run step ok ih =>
    obtain ⟨hfresh, hrunning⟩ := ih
    rw [journal_snoc, System.traceOf_append, selected_append]
    cases step with
    | @spawn i c hi hstart =>
      rw [show System.traceOf (.connection k) [(.spawn i c : BrokerEvent)] = [] from rfl]
      by_cases hik : ThreadId.connection k = i
      · subst hik
        refine ⟨fun _ => hfresh hi, ?_⟩
        intro q _
        cases System.kept_of_run rfl run with
        | inl hkept =>
          rw [hkept.2.1]
          exact hfresh hi
        | inr hkept =>
          obtain ⟨_, hbegun, -⟩ := hkept
          exact absurd hi hbegun
      · simp only [Function.update_of_ne hik]
        refine ⟨hfresh, ?_⟩
        intro q hq
        exact (hrunning q hq).trans (List.append_nil _).symm
    | @act i p a k' input s r hi hnext hperform =>
      have hreceived : ((journal evs).next (.act i a r)).received k = (journal evs).received k ++ a.dequeues i k r :=
        Journal.act_received k
      rw [hreceived, selected_act]
      by_cases hik : ThreadId.connection k = i
      · subst hik
        rw [hrunning p hi]
        refine ⟨?_, fun _ _ => rfl⟩
        intro hnow
        simp at hnow
      · simp only [Function.update_of_ne hik]
        refine ⟨?_, ?_⟩
        · intro hnow
          rw [hfresh hnow, ← selected_act, System.traceOf_act_other hik]
          rfl
        · intro q hq
          rw [hrunning q hq]
    | @world w node ends hworld =>
      cases w with
      | commit n =>
        cases hworld
        refine ⟨hfresh, ?_⟩
        intro q hq
        exact (hrunning q hq).trans (List.append_nil _).symm
      | restart =>
        obtain ⟨rfl, rfl⟩ := restart_of_world hworld
        refine ⟨fun _ => rfl, ?_⟩
        intro q hq
        change (cfg.thread (.connection k)).ended = _ at hq
        cases ht : cfg.thread (.connection k) <;> rw [ht] at hq <;> cases hq

theorem forwarded_arrived {q : Broker Control} (hrun : (brokerSystem settings).RunWhere P initial evs cfg)
    (hspawn : .spawn (.connection k) .tcp ∈ evs) (hlive : cfg.thread (.connection k) = .running q) :
    forwarded (System.traceOf (.connection k) evs) <+:
      ((journal evs).arrived k).map fun arrival => sentBytes arrival.packet := by
  rw [(mirrors_of_run hrun).channels k, (received_of_run hrun).2 q hlive]
  exact (speaks_of_run rfl hrun hspawn).2.trans (List.prefix_append _ _)

theorem forwarded_all {c : Control} (hrun : (brokerSystem settings).RunWhere P initial evs cfg)
    (hspawn : .spawn (.connection k) .tcp ∈ evs) (hstands : between (cfg.thread (.connection k)) = some c)
    (hchannel : cfg.shared.shared.channels k = []) :
    forwarded (System.traceOf (.connection k) evs) =
      ((journal evs).arrived k).map fun arrival => sentBytes arrival.packet := by
  rw [(mirrors_of_run hrun).channels k, (received_of_run hrun).2 _ (eq_of_between hstands), hchannel, List.append_nil]
  exact forwarded_between rfl hrun hspawn hstands

end
end AtomMqtt
