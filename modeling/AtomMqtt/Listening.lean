import AtomMqtt.Acknowledgement
import AtomMqtt.Forwarding

set_option autoImplicit false

/-! From the channel to `sub`. `sub` takes the first packet after the CONNACK for the SUBACK. If it is one, then
`sub` shows what comes into the channel of its connection, all of it in its order; else the first message is
lost. -/
namespace AtomMqtt
open Programs Framing

def Answering (data : Bytes) : Prop :=
  ∃ q, data = Client.bytesOf q ∧ q.WellFormed ∧ Client.published q = none

section
variable {settings : Settings} {name username clientId : String} {b bytes data : Bytes} {packet : MqttPacket} {c : ConnectFields}
  {chunks : List Bytes} {what : Outgoing} {will : Option WillMessage} {consumed : MqttResult (Option ℕ)}

theorem answer_answering {p : V3.MqttPacketV3} {response : MqttPacket}
    (h : (MqttPacket.V311 p).answer settings username = some response) : Answering (sentBytes response) := by
  cases p with
  | Publish p =>
    rw [MqttPacket.answer] at h
    split_ifs at h
    unfold publishResponseV3 at h
    split at h <;> cases h
    · exact ⟨.PubAck _, rfl, trivial, rfl⟩
    · exact ⟨.PubRec _, rfl, trivial, rfl⟩
  | PubRec p => cases h; exact ⟨.PubRel _, rfl, trivial, rfl⟩
  | PubRel p => cases h; exact ⟨.PubComp _, rfl, trivial, rfl⟩
  | Subscribe p => cases h; exact ⟨.SubAck _, rfl, trivial, rfl⟩
  | Unsubscribe p => cases h; exact ⟨.UnsubAck _, rfl, trivial, rfl⟩
  | PingReq => cases h; exact ⟨.PingResp, rfl, trivial, rfl⟩
  | _ => cases h

theorem mem_packetsIn (h : packet ∈ packetsIn .V311 bytes) : ∃ p, packet = .V311 p := by
  obtain ⟨buf, n, hdecode⟩ := decoded_of_mem h
  obtain ⟨p, rfl, -⟩ := decodePacketByVersion_v3.mp hdecode
  exact ⟨p, rfl⟩

theorem deeds_unwritten {a : Action} (h : a ∈ packet.deeds settings clientId username) : a.written = none := by
  have hflat : ∀ {γ : Type} {xs : List γ} {does : γ → List Action}, a ∈ xs.flatMap does →
      (∀ x, ∀ a ∈ does x, a.written = none) → a.written = none := by
    intro γ xs does ha hdoes
    obtain ⟨x, -, hx⟩ := List.mem_flatMap.mp ha
    exact hdoes x a hx
  unfold MqttPacket.deeds at h
  split at h
  · exact List.filterMap_eq_nil_iff.mp publishDeeds_quiet a h
  · apply hflat h
    intro f a ha
    rcases List.mem_pair.mp ha with rfl | rfl <;> rfl
  · split at h
    · rcases List.mem_pair.mp h with rfl | rfl <;> rfl
    · apply hflat h
      intro f a ha
      rcases List.mem_pair.mp ha with rfl | rfl <;> rfl

def AnswersOnly (acts : List Action) : Prop := ∀ w ∈ acts.filterMap Action.written, Answering w.2

theorem AnswersOnly.append {acts acts' : List Action} (h : AnswersOnly acts) (h' : AnswersOnly acts') :
    AnswersOnly (acts ++ acts') := by
  rw [AnswersOnly, List.filterMap_append]
  exact List.forall_mem_append.mpr ⟨h, h'⟩

theorem answersOnly_of_unwritten {acts : List Action} (h : ∀ a ∈ acts, a.written = none) : AnswersOnly acts := by
  rw [AnswersOnly, List.filterMap_eq_nil_iff.mpr h]
  exact List.forall_mem_nil _

theorem script_answersOnly (p : V3.MqttPacketV3) : AnswersOnly ((MqttPacket.V311 p).script settings clientId username) := by
  apply (answersOnly_of_unwritten fun a => deeds_unwritten).append
  cases hanswer : (MqttPacket.V311 p).answer settings username with
  | none => exact List.forall_mem_nil _
  | some response => exact List.forall_mem_singleton.mpr (answer_answering hanswer)

theorem loopScript_answersOnly : AnswersOnly (loopScript settings clientId username .V311 bytes) := by
  intro w hw
  obtain ⟨a, ha, hwritten⟩ := List.mem_filterMap.mp hw
  obtain ⟨packet, hpacket, ha⟩ := List.mem_flatMap.mp ha
  obtain ⟨p, rfl⟩ := mem_packetsIn hpacket
  exact script_answersOnly p w (List.mem_filterMap.mpr ⟨a, ha, hwritten⟩)

theorem welcome_answersOnly {later : List Bytes} (hversion : c.version = .V311) :
    AnswersOnly (c.welcome settings will consumed b name later) := by
  have hconnack : ∀ ack : V3.ConnAckPacket, AnswersOnly [.write .connack (sentBytes (.V311 (.ConnAck ack)))] :=
    fun ack => List.forall_mem_singleton.mpr ⟨.ConnAck ack, rfl, trivial, rfl⟩
  unfold ConnectFields.welcome
  split
  · rw [hversion]
    exact hconnack _
  · rw [hversion]
    have hopened : ∀ a : Action, a.written = none → AnswersOnly [a] := fun a ha =>
      answersOnly_of_unwritten (List.forall_mem_singleton.mpr ha)
    apply (hopened _ rfl).append
    apply AnswersOnly.append
    · apply answersOnly_of_unwritten
      intro a ha
      obtain ⟨w, -, ha⟩ := List.mem_flatMap.mp ha
      rcases List.mem_pair.mp ha with rfl | rfl <;> rfl
    apply (hopened _ rfl).append
    apply (hconnack _).append
    unfold ConnectFields.rest
    split
    · rw [hversion]
      exact loopScript_answersOnly
    · exact List.forall_mem_nil _

theorem tcpScript_answersOnly (h : ValidConnect .V311 b packet c) {r : Bytes} (hheard : chunks.flatten <+: b ++ r) :
    AnswersOnly (tcpScript settings name chunks) := by
  rcases tcpScript_connect h hheard with hnone | ⟨later, -, hscript⟩
  · rw [hnone]
    exact List.forall_mem_nil _
  · rw [hscript]
    exact welcome_answersOnly (h.decodeFirst []).2.1

end

theorem packets_of_writes {ws : List (Outgoing × Bytes)} : ∀ {ms : List V3.PublishPacket},
    ws.filterMap forwardedPart = ms.map (fun p => Client.bytesOf (.Publish p)) →
    (∀ w ∈ ws, w.1 ≠ .forwarded → Answering w.2) → (∀ p ∈ ms, (V3.MqttPacketV3.Publish p).WellFormed) →
    ∃ ps : List V3.MqttPacketV3, ws.map Prod.snd = ps.map Client.bytesOf ∧ (∀ q ∈ ps, q.WellFormed) ∧
      ps.filterMap Client.published = ms ∧
      (ps.map fun q => (Client.published q).isSome) = ws.map fun w => decide (w.1 = .forwarded) := by
  induction ws with
  | nil =>
    intro ms hms _ _
    obtain rfl := List.map_eq_nil_iff.mp hms.symm
    exact ⟨[], rfl, List.forall_mem_nil _, rfl, rfl⟩
  | cons w ws ih =>
    intro ms hms hanswers hfit
    obtain ⟨hfirst, hrest⟩ := List.forall_mem_cons.mp hanswers
    by_cases hw : w.1 = .forwarded
    · have hpart : forwardedPart w = some w.2 := if_pos hw
      rw [List.filterMap_cons_some hpart] at hms
      cases ms with
      | nil => cases hms
      | cons p ms =>
        obtain ⟨hdata, hms⟩ := List.cons.inj hms
        obtain ⟨hp, hfit⟩ := List.forall_mem_cons.mp hfit
        obtain ⟨ps, hps, hwell, hpublished, hplaces⟩ := ih hms hrest hfit
        refine ⟨.Publish p :: ps, ?_, List.forall_mem_cons.mpr ⟨hp, hwell⟩, ?_, ?_⟩
        · rw [List.map_cons, List.map_cons, hps, hdata]
        · have hmessage : Client.published (.Publish p) = some p := rfl
          rw [List.filterMap_cons_some hmessage, hpublished]
        · rw [List.map_cons, List.map_cons, hplaces, hw]
          rfl
    · have hpart : forwardedPart w = none := if_neg hw
      rw [List.filterMap_cons_none hpart] at hms
      obtain ⟨q, hdata, hq, hnone⟩ := hfirst hw
      obtain ⟨ps, hps, hwell, hpublished, hplaces⟩ := ih hms hrest hfit
      refine ⟨q :: ps, ?_, List.forall_mem_cons.mpr ⟨hq, hwell⟩, ?_, ?_⟩
      · rw [List.map_cons, List.map_cons, hps, hdata]
      · rw [List.filterMap_cons_none hnone, hpublished]
      · rw [List.map_cons, List.map_cons, hplaces, hnone, decide_eq_false hw]
        rfl

theorem drop_two {q : V3.MqttPacketV3} {ps : List V3.MqttPacketV3} (hq : Client.published q = none) :
    ((q :: ps).drop 2).filterMap Client.published = ((q :: ps).filterMap Client.published).drop
      (if ((q :: ps).map fun q => (Client.published q).isSome)[1]? = some true then 1 else 0) := by
  rw [List.filterMap_cons_none hq]
  cases ps with
  | nil => rfl
  | cons q' ps =>
    cases hq' : Client.published q' with
    | none => simp [hq']
    | some p => simp [hq']

/-- The messages that have come into the channel of connection `k`. -/
def addressed (evs : List BrokerEvent) (k : ConnId) : List V3.PublishPacket :=
  ((journal evs).arrived k).filterMap fun arrival =>
    match arrival.packet with
    | .V311 (.Publish p) => some p
    | _ => none

/-- A message comes between the CONNACK and the SUBACK. -/
def overtaken (evs : List BrokerEvent) (k : ConnId) : ℕ :=
  if ((writes (System.traceOf (.connection k) evs)).map fun w => decide (w.1 = .forwarded))[1]? = some true then 1 else 0

section
variable {settings : Settings} {P : List BrokerEvent → BrokerConfigState → BrokerEvent → BrokerConfigState → Prop}
  {P' : List Client.ClientEvent → Client.ClientState → Client.ClientEvent → Client.ClientState → Prop}
  {cfg : BrokerConfigState} {evs : List BrokerEvent} {k : ConnId} {q : Broker Control} {ccfg : Client.ClientState}
  {cevs : List Client.ClientEvent} {args : Client.SubArgs}

theorem addressed_publishes (h : (journal evs).Publishes) : ∀ p ∈ addressed evs k, p.qos = .AtMostOnce ∧ p.packetId = none := by
  intro p hp
  obtain ⟨arrival, harrival, hp⟩ := List.mem_filterMap.mp hp
  obtain ⟨topic, payload, retain, hpacket⟩ := h k arrival harrival
  rw [hpacket] at hp
  cases hp
  exact ⟨rfl, rfl⟩

theorem addressed_sent (h : (journal evs).Publishes) :
    ((journal evs).arrived k).map (fun arrival => sentBytes arrival.packet) =
      (addressed evs k).map fun p => Client.bytesOf (.Publish p) := by
  have harrived := h k
  unfold addressed
  generalize (journal evs).arrived k = arrivals at harrived
  induction arrivals with
  | nil => rfl
  | cons arrival arrivals ih =>
    obtain ⟨⟨topic, payload, retain, hpacket⟩, hrest⟩ := List.forall_mem_cons.mp harrived
    rw [List.map_cons, ih hrest, List.filterMap_cons, hpacket]
    rfl

structure Written (evs : List BrokerEvent) (k : ConnId) (ps : List V3.MqttPacketV3) : Prop where
  sent : offered evs k = ps.map Client.bytesOf
  wellFormed : ∀ q ∈ ps, q.WellFormed
  messages : ps.filterMap Client.published = (addressed evs k).take (forwarded (System.traceOf (.connection k) evs)).length
  late : (ps.drop 2).filterMap Client.published = (ps.filterMap Client.published).drop (overtaken evs k)

theorem written_of_run (hrun : (brokerSystem settings).RunWhere P initial evs cfg)
    (hspawn : .spawn (.connection k) .tcp ∈ evs) (hlive : cfg.thread (.connection k) = .running q)
    (hclient : Client.clientSystem.RunWhere P' Client.initial cevs ccfg) (hsub : .spawn .main (.sub args) ∈ cevs)
    (hargs : args.connect.WellFormed) (hjoined : Joined evs k cevs) (hfit : ∀ p ∈ addressed evs k, Fits p.topic) :
    ∃ ps, Written evs k ps := by
  have hpublishes := arrived_publishes hrun
  obtain ⟨r, hheard⟩ : ∃ r, (heard (System.traceOf (.connection k) evs)).flatten <+: Client.bytesOf args.connect ++ r := by
    have honly : ∀ c, .spawn .main c ∈ cevs → c = .sub args := fun c hc => System.spawn_once rfl hclient hsub hc
    cases Client.sub_wire hclient honly with
    | inl hpart => exact ⟨[], (hjoined.toBroker.trans hpart).trans (List.prefix_append _ _)⟩
    | inr hwhole =>
      obtain ⟨r, hr⟩ := hwhole
      exact ⟨r, hr ▸ hjoined.toBroker⟩
  obtain ⟨hfirst, -⟩ := speaks_of_run rfl hrun hspawn
  have hforwarded := forwarded_arrived hrun hspawn hlive
  rw [addressed_sent hpublishes, List.prefix_iff_eq_take, ← List.map_take] at hforwarded
  have hanswers : ∀ w ∈ writes (System.traceOf (.connection k) evs), w.1 ≠ .forwarded → Answering w.2 := by
    intro w hw hown
    have hdone : w ∈ (done evs k).filterMap Action.written := by
      rw [done, ← writes_deeds]
      exact List.mem_filter.mpr ⟨hw, bne_iff_ne.mpr hown⟩
    exact tcpScript_answersOnly (connect_valid hargs) hheard w
      (((done_within (.inl rfl) rfl hrun hspawn).filterMap _).subset hdone)
  have hwell : ∀ p ∈ (addressed evs k).take (forwarded (System.traceOf (.connection k) evs)).length,
      (V3.MqttPacketV3.Publish p).WellFormed := by
    intro p hp
    have hmem := List.mem_of_mem_take hp
    obtain ⟨hqos, hid⟩ := addressed_publishes hpublishes p hmem
    exact ⟨hfit p hmem, by rw [hqos, hid]; decide⟩
  obtain ⟨ps, hsent, hps, hmessages, hplaces⟩ := packets_of_writes hforwarded hanswers hwell
  refine ⟨ps, hsent, hps, hmessages, ?_⟩
  rw [overtaken, ← hplaces]
  rcases hfirst with hnone | ⟨data, rest, hconnack, -⟩
  · rw [hnone] at hsent
    rw [List.map_eq_nil_iff.mp hsent.symm]
    rfl
  · cases ps with
    | nil => rfl
    | cons p ps =>
      rw [hconnack] at hplaces
      have hp : Client.published p = none := by
        have hhead := (List.cons.inj hplaces).1
        simpa using hhead
      exact drop_two hp

theorem delimited_v3 {p : V3.MqttPacketV3} (hp : p.WellFormed) (hmax : (Client.bytesOf p).length ≤ 10 * 1024 * 1024) :
    Delimited Client.bytesOf V3.decodePacket p where
  whole := V3.decodePacket_sent hp (Client.encodePacket_eq p) hmax
  part := by
    intro received missing hsplit hmissing y n hdecode
    have henc := Client.encodePacket_eq p
    rw [hsplit] at henc hmax
    rw [decodePacketV3_part hp henc hmax hmissing] at hdecode
    split_ifs at hdecode <;> cases hdecode

theorem shown_at_rest {ps : List V3.MqttPacketV3} (hwritten : Written evs k ps)
    (hrun : (brokerSystem settings).RunWhere P initial evs cfg) (hspawn : .spawn (.connection k) .tcp ∈ evs)
    (hclient : Client.clientSystem.RunWhere P' Client.initial cevs ccfg) (hsub : .spawn .main (.sub args) ∈ cevs)
    {c : Control} (hstands : between (cfg.thread (.connection k)) = some c) (hchannel : cfg.shared.shared.channels k = [])
    (hsize : ∀ data ∈ offered evs k, data.length ≤ 10 * 1024 * 1024)
    (hall : (Client.received (System.traceOf .main cevs)).flatten = (offered evs k).flatten) {c' : Client.Control}
    (hc : ccfg.thread .main = .running (.ret c')) (hwaits : c'.Waits) :
    Client.messages (System.traceOf .main cevs) = (addressed evs k).drop (overtaken evs k) := by
  have hframes : ∀ q ∈ ps, Delimited Client.bytesOf V3.decodePacket q := by
    intro q hq
    refine delimited_v3 (hwritten.wellFormed q hq) (hsize _ ?_)
    rw [hwritten.sent]
    exact List.mem_map_of_mem hq
  have hitems := Client.cuts_decodePacket.items_of_whole hframes
  rw [Client.shows_all (.sub args) hclient hsub hc hwaits, Client.messagesIn, hall, hwritten.sent, ← List.flatMap_def, hitems,
    hwritten.late, hwritten.messages, forwarded_all hrun hspawn hstands hchannel, addressed_sent (arrived_publishes hrun),
    List.length_map, List.take_length]

/-- In every run `sub` has shown the first of the messages that have come into the channel of its connection, all of them
    when everything is at rest, but for one message if it came before the SUBACK. -/
theorem shown_of_joined (hrun : (brokerSystem settings).RunWhere P initial evs cfg)
    (hspawn : .spawn (.connection k) .tcp ∈ evs) (hlive : cfg.thread (.connection k) = .running q)
    (hclient : Client.clientSystem.RunWhere P' Client.initial cevs ccfg) (hsub : .spawn .main (.sub args) ∈ cevs)
    (hargs : args.connect.WellFormed) (hjoined : Joined evs k cevs) (hfit : ∀ p ∈ addressed evs k, Fits p.topic) :
    Client.messages (System.traceOf .main cevs) <+: (addressed evs k).drop (overtaken evs k) ∧
      ∀ c c', between (cfg.thread (.connection k)) = some c → cfg.shared.shared.channels k = [] →
        (∀ data ∈ offered evs k, data.length ≤ 10 * 1024 * 1024) →
        (Client.received (System.traceOf .main cevs)).flatten = (offered evs k).flatten →
        ccfg.thread .main = .running (.ret c') → Client.Control.Waits c' →
        Client.messages (System.traceOf .main cevs) = (addressed evs k).drop (overtaken evs k) := by
  obtain ⟨ps, hwritten⟩ := written_of_run hrun hspawn hlive hclient hsub hargs hjoined hfit
  have hoffered : (offered evs k).flatten = ps.flatMap Client.bytesOf := by rw [hwritten.sent, List.flatMap_def]
  constructor
  · have hitems := Client.cuts_decodePacket.items_of_stream (fun q hq => foremost_v3 (hwritten.wellFormed q hq))
      (hoffered ▸ hjoined.toClient)
    have hshown := (Client.shows_within (.sub args) hclient hsub).trans ((hitems.drop 2).filterMap Client.published)
    rw [hwritten.late, hwritten.messages] at hshown
    exact hshown.trans ((List.take_prefix _ _).drop _)
  · intro c c' hstands hchannel hsize hall hc hwaits
    exact shown_at_rest hwritten hrun hspawn hclient hsub hstands hchannel hsize hall hc hwaits

end

def listenBytes : Bytes :=
  Client.bytesOf (.Subscribe { packetId := 1, filters := [{ path := "t", qos := .AtLeastOnce }] })

def tellBytes : Bytes :=
  sentBytes (.V311 (.Publish { topic := "t", payload := [0x78], qos := .AtMostOnce, retain := false, packetId := none }))

def servesListenerMoves : List BrokerMove :=
  joinMoves 0 "c" true ++ [.act (.connection 0) (.received (.data listenBytes))] ++ turns (.connection 0) 8 ++
  joinMoves 1 "p" true ++ [.act (.connection 1) (.received (.data tellBytes))] ++ turns (.connection 1) 4 ++
  [.spawn (.router 0) .router] ++ turns (.router 0) 5 ++ [.act (.connection 0) .forwarded] ++ turns (.connection 0) 3

def listenerMoves : List Client.ClientMove :=
  Client.mainMoves (.sub Client.readerArgs)
    [.ready true, .ready true, .write (.written (Client.bytesOf Client.readerArgs.connect).length), .ready true,
      .read (.bytes [0x20, 2, 0, 0]), .go, .ready true, .write (.written listenBytes.length), .ready true,
      .read (.bytes [0x90, 3, 0, 1, 1]), .go, .go, .go, .go, .ready true, .read (.bytes [0x30, 4, 0, 1, 0x74, 0x78]), .go, .go,
      .ready true, .read .wouldBlock]

theorem shown_of_joined_listener : ∃ evs cfg cevs ccfg, (brokerSystem openSettings).Run initial evs cfg ∧
    Client.clientSystem.Run Client.initial cevs ccfg ∧ Joined evs 0 cevs ∧
    (Client.messages (System.traceOf .main cevs)).length = 1 ∧
    Client.messages (System.traceOf .main cevs) = (addressed evs 0).drop (overtaken evs 0) := by
  have hplays : (execute openSettings servesListenerMoves).any (fun r => (Client.execute listenerMoves).any fun r' =>
      r.1.any (startsTcp 0) && (between (r.2.thread (.connection 0))).isSome && (r.2.shared.shared.channels 0).isEmpty &&
      r'.1.any (Client.startsMain (.sub Client.readerArgs)) && Client.awaits (r'.2.thread .main) &&
      (heard (System.traceOf (.connection 0) r.1)).flatten.isPrefixOf (Client.wire r'.1) &&
      (Client.received (System.traceOf .main r'.1)).flatten == (offered r.1 0).flatten &&
      (offered r.1 0).all (fun data => data.length ≤ 10 * 1024 * 1024) &&
      (addressed r.1 0).all (fun p => decide (Fits p.topic)) &&
      (Client.messages (System.traceOf .main r'.1)).length == 1) = true := by decide +kernel
  obtain ⟨⟨evs, cfg⟩, hexec, hplays⟩ := (Option.any_eq_true _ _).mp hplays
  obtain ⟨⟨cevs, ccfg⟩, hexec', hplays⟩ := (Option.any_eq_true _ _).mp hplays
  simp only [Bool.and_eq_true, List.isPrefixOf_iff_prefix, List.all_eq_true, beq_iff_eq, decide_eq_true_eq,
    List.isEmpty_iff] at hplays
  obtain ⟨⟨⟨⟨⟨⟨⟨⟨⟨hspawn, hstands⟩, hchannel⟩, hsub⟩, hwaits⟩, hheard⟩, hall⟩, hsize⟩, hfit⟩, hshown⟩ := hplays
  obtain ⟨c, hstands⟩ := Option.isSome_iff_exists.mp hstands
  obtain ⟨buf, stage, hwaits⟩ := Client.eq_of_awaits hwaits
  have hargs : Client.readerArgs.connect.WellFormed := plainArgs_fit rfl rfl (by decide)
  have hrun := execute_run hexec
  have hclient := Client.execute_run hexec'
  have hjoined : Joined evs 0 cevs := ⟨hheard, hall ▸ List.prefix_rfl⟩
  exact ⟨evs, cfg, cevs, ccfg, hrun, hclient, hjoined, hshown,
    (shown_of_joined hrun (mem_of_startsTcp hspawn) (eq_of_between hstands) hclient (Client.mem_of_startsMain hsub) hargs
      hjoined hfit).2 c (.awaiting buf stage) hstands hchannel hsize hall hwaits trivial⟩

end AtomMqtt
