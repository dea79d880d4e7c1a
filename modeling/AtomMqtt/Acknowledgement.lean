import AtomMqtt.Links

set_option autoImplicit false

/-! From `pub` to the router. If `pub` shows that its PUBLISH is acknowledged, then the broker has let the user
in, the rules let him publish, and the message has gone to the router, once. This asks that nothing is forwarded
on the connection: `pub` drops what it has read beyond the CONNACK, so that a message that comes with it could
pass for anything. -/
namespace AtomMqtt
open Programs Framing

section
variable {ack : V3.ConnAckPacket} {reads before after : List Bytes} {rest : Bytes}

theorem connack_of_accepted (hreads : reads.flatten <+: Client.bytesOf (.ConnAck ack) ++ rest)
    (haccepted : Client.Accepted reads) : Client.bytesOf (.ConnAck ack) <+: reads.flatten := by
  obtain ⟨_, hhead, -⟩ := haccepted
  obtain ⟨n, hdecode⟩ := decode_of_head hhead
  have hfits : (V3.MqttPacketV3.ConnAck ack).WellFormed := trivial
  obtain ⟨-, -, hsplit⟩ := Client.cuts_decodePacket.head_of_stream (foremost_v3 hfits) hreads hdecode
  exact hsplit ▸ List.prefix_append _ _

theorem rest_of_acknowledged (haccepted : Client.Accepted before) (hacknowledged : Client.Acknowledged after)
    (hreads : (before ++ after).flatten <+: Client.bytesOf (.ConnAck ack) ++ rest) : rest ≠ [] := by
  rintro rfl
  rw [List.flatten_append] at hreads
  have hwhole := connack_of_accepted ((List.prefix_append _ _).trans hreads) haccepted
  obtain ⟨ack', hhead⟩ := hacknowledged
  obtain ⟨n, hdecode⟩ := decode_of_head hhead
  have hlength := hreads.length_le
  have hwhole := hwhole.length_le
  have hsize := Client.cuts_decodePacket.size hdecode
  rw [List.append_nil, List.length_append] at hlength
  omega

end

namespace Client

def Args.fields (args : Args) : ConnectFields where
  clientId := args.clientId
  version := .V311
  keepAlive := 60
  cleanSession := true
  username := args.username
  password := args.password
  will := none

def PubArgs.message (args : PubArgs) (packetId : Option UInt16) : V3.PublishPacket :=
  { topic := args.topic, payload := asBytes args.payload, qos := .AtLeastOnce, retain := args.retain, packetId }

/-- The strings are not longer than what their packets can say. -/
structure PubArgs.Sendable (args : PubArgs) : Prop where
  connect : args.connect.WellFormed
  topic : Fits args.topic

end Client

theorem string_length {s : String} (h : Fits s) : (encodeString s).length ≤ 65537 := by
  have hfits : (asBytes s).length ≤ 65535 := h
  rw [encodeString_length]
  omega

theorem option_length {o : Option String} (h : ∀ s, o = some s → Fits s) : (o.elim [] encodeString).length ≤ 65537 := by
  cases o with
  | none => exact Nat.zero_le _
  | some s => exact string_length (h s rfl)

theorem connect_valid {args : Client.Args} (h : (V3.MqttPacketV3.Connect (Client.connectPacket args)).WellFormed) :
    ValidConnect .V311 (Client.bytesOf (.Connect (Client.connectPacket args)))
      (.V311 (.Connect (Client.connectPacket args))) args.fields := by
  obtain ⟨hid, hwill, husername, hpassword⟩ := h
  have hp : (MqttPacket.V311 (.Connect (Client.connectPacket args))).WellFormed := ⟨hid, hwill, husername, hpassword⟩
  refine validConnect_sent hp rfl ?_
  change (frame PacketType.Connect.toU8 (V3.connectRemaining (Client.connectPacket args))).length ≤ _
  have hremaining : (V3.connectRemaining (Client.connectPacket args)).length ≤ 10 + 65537 * 3 := by
    have hid := string_length hid
    have husername := option_length husername
    have hpassword := option_length hpassword
    have hname : (asBytes "MQTT").length = 4 := by decide
    have hkeepAlive : (u16ToBeBytes 60).length = 2 := rfl
    simp only [V3.connectRemaining, Client.connectPacket, Option.elim_none, List.length_append, List.length_cons,
      List.length_nil, hname, hkeepAlive] at hid husername hpassword ⊢
    omega
  have hlen : (encodeRemainingLength (V3.connectRemaining (Client.connectPacket args)).length).length ≤ 3 + 1 :=
    encodeRemainingLength_length_le_iff.mpr (by omega)
  rw [frame_length]
  omega

theorem within_or_past {α : Type} {part before after : List α} {x : α} (h : part <+: before ++ x :: after) :
    part <+: before ∨ before ++ [x] <+: part := by
  cases List.prefix_or_prefix_of_prefix h (List.prefix_append _ _) with
  | inl h => exact .inl h
  | inr h' =>
    obtain ⟨rest, rfl⟩ := h'
    rw [List.prefix_append_right_inj] at h
    cases rest with
    | nil => exact .inl (by rw [List.append_nil])
    | cons y rest =>
      obtain ⟨rfl, -⟩ := List.cons_prefix_cons.mp h
      exact .inr ((List.prefix_append_right_inj _).mpr (List.prefix_append [y] rest))

def Action.handed : Action → Option BrokerMessage
  | .sendRouter message => some message
  | _ => none

/-- What is done for a client that is let in, before its packets. -/
def ConnectFields.opened (c : ConnectFields) (clientId username : String) : List Action :=
  [.sessionsInsert clientId (SessionState.new clientId c.version c.cleanSession c.keepAlive (some username)),
    .sendEvent (c.saved clientId username), .write .connack (sentBytes (acceptedConnack c.version))]

section
variable {settings : Settings} {c : ConnectFields} {name username clientId : String} {b later : Bytes} {args : Client.PubArgs}
  {packetId : Option UInt16} {acts : List Action}

theorem welcome_success
    (hauth : settings.authenticator.authenticate settings.config.allowAnonymous c.username c.password = .Success username) :
    c.welcome settings none (.ok (some b.length)) b name [later] =
      c.opened (c.idFor name) username ++ loopScript settings (c.idFor name) username c.version later := by
  simp only [ConnectFields.welcome, hauth, ConnectFields.rest, List.drop_length, List.flatten_cons, List.flatten_nil,
    List.append_nil, List.nil_append]
  rfl

theorem loopScript_pub (hargs : args.Sendable) (hid : packetId.isSome = true)
    (hlater : later <+: Client.bytesOf (.Publish (args.message packetId)) ++ Client.bytesOf .Disconnect) :
    loopScript settings clientId username .V311 later <+:
      MqttPacket.script settings clientId username (.V311 (.Publish (args.message packetId))) ++
        [.willsRemove clientId, .sendEvent (.RemoveWill clientId)] := by
  have hpublish : (V3.MqttPacketV3.Publish (args.message packetId)).WellFormed :=
    ⟨hargs.topic, iff_of_true hid (by decide : QoS.AtLeastOnce ≠ .AtMostOnce)⟩
  have hall : ∀ packet ∈ [MqttPacket.V311 (.Publish (args.message packetId)), .V311 .Disconnect],
      Foremost sentBytes (fun buf => decodePacketByVersion buf .V311) packet := by
    intro packet hpacket
    rcases List.mem_pair.mp hpacket with rfl | rfl
    · exact foremost_byVersion hpublish
    · exact foremost_byVersion (p := .Disconnect) trivial
  have hpackets := (cuts_decodePacketByVersion .V311).items_of_stream hall hlater
  exact hpackets.flatMap _

/-- The broker has taken over the message of `pub`. -/
structure TakenOver (settings : Settings) (args : Client.PubArgs) (username clientId : String) (acts : List Action) : Prop where
  user : settings.authenticator.authenticate settings.config.allowAnonymous args.username args.password = .Success username
  allowed : settings.acl.authorizePublish username args.topic = true
  once : acts.filterMap Action.handed = [.Publish args.topic (asBytes args.payload) .AtLeastOnce args.retain clientId]
  all : publishDeeds settings clientId username (args.message none) ⊆ acts

theorem publishDeeds_quiet {p : V3.PublishPacket} :
    (publishDeeds settings clientId username p).filterMap Action.written = [] := by
  unfold publishDeeds
  split_ifs <;> rfl

theorem publishDeeds_handed {p : V3.PublishPacket} (hacl : settings.acl.authorizePublish username p.topic = true) :
    (publishDeeds settings clientId username p).filterMap Action.handed = [p.message clientId] := by
  unfold publishDeeds
  rw [if_pos hacl]
  split_ifs <;> rfl

def OnlyConnack (acts : List Action) : Prop :=
  ∃ ack, acts.filterMap Action.written <+: [(.connack, Client.bytesOf (.ConnAck ack))]

theorem takenOver_of_stream (hargs : args.Sendable) (hid : packetId.isSome = true)
    (hlater : later <+: Client.bytesOf (.Publish (args.message packetId)) ++ Client.bytesOf .Disconnect)
    (hacts : acts <+: args.fields.welcome settings none (.ok (some b.length)) b name [later]) :
    OnlyConnack acts ∨ ∃ username, TakenOver settings args username (args.fields.idFor name) acts := by
  cases hauth : settings.authenticator.authenticate settings.config.allowAnonymous args.username args.password with
  | Denied reason =>
    rw [welcome_denied hauth] at hacts
    exact .inl ⟨_, hacts.filterMap _⟩
  | Success username =>
    rw [welcome_success hauth] at hacts
    have hscript := hacts.trans ((List.prefix_append_right_inj _).mpr (loopScript_pub hargs hid hlater))
    obtain ⟨pid, rfl⟩ := Option.isSome_iff_exists.mp hid
    cases hacl : settings.acl.authorizePublish username args.topic with
    | false =>
      have hnothing : MqttPacket.script settings (args.fields.idFor name) username
          (.V311 (.Publish (args.message (some pid)))) = [] := by
        simp only [MqttPacket.script, MqttPacket.deeds, MqttPacket.publish, publishDeeds, MqttPacket.answer,
          Client.PubArgs.message, hacl]
        rfl
      rw [hnothing] at hscript
      exact .inl ⟨_, hscript.filterMap _⟩
    | true =>
      have hanswer : MqttPacket.script settings (args.fields.idFor name) username (.V311 (.Publish (args.message (some pid)))) =
          publishDeeds settings (args.fields.idFor name) username (args.message none) ++
            [.write .response (sentBytes (.V311 (.PubAck { packetId := pid })))] := by
        simp only [MqttPacket.script, MqttPacket.deeds, MqttPacket.publish, MqttPacket.answer, Client.PubArgs.message, hacl]
        rfl
      rw [hanswer, List.append_assoc, ← List.append_assoc] at hscript
      rcases within_or_past hscript with hwithin | hpast
      · have hwritten := hwithin.filterMap Action.written
        rw [List.filterMap_append, publishDeeds_quiet, List.append_nil] at hwritten
        exact .inl ⟨_, hwritten⟩
      · refine .inr ⟨username, hauth, hacl, ?_, ?_⟩
        · have hleast := hpast.filterMap Action.handed
          have hmost := hscript.filterMap Action.handed
          simp only [List.filterMap_append, publishDeeds_handed (p := args.message none) hacl] at hleast hmost
          exact (hleast.eq_of_length_le hmost.length_le).symm
        · intro a ha
          exact hpast.subset (List.mem_append_left _ (List.mem_append_right _ ha))

end

section
variable {settings : Settings} {P : List BrokerEvent → BrokerConfigState → BrokerEvent → BrokerConfigState → Prop}
  {P' : List Client.ClientEvent → Client.ClientState → Client.ClientEvent → Client.ClientState → Prop}
  {cfg₀ cfg : BrokerConfigState} {evs : List BrokerEvent} {k : ConnId} {ccfg : Client.ClientState}
  {cevs : List Client.ClientEvent} {args : Client.PubArgs}

theorem answered_of_confirms (hclient : Client.clientSystem.RunWhere P' Client.initial cevs ccfg)
    (hpub : .spawn .main (.pub args) ∈ cevs) (hjoined : Joined evs k cevs)
    (hforwards : ∀ w ∈ writes (System.traceOf (.connection k) evs), w.1 ≠ .forwarded)
    (hconfirms : Client.confirms (System.traceOf .main cevs) = true) :
    ∃ packetId, packetId.isSome = true ∧ Client.wire cevs <+: args.stream .AtLeastOnce packetId ∧ ¬ OnlyConnack (done evs k) := by
  obtain ⟨packetId, before, after, hconfirmed⟩ := Client.pub_honest hclient hpub hconfirms
  have hstream : Client.wire cevs <+: args.stream .AtLeastOnce packetId := by
    rw [(Client.pub_wire hclient hpub).2]
    exact hconfirmed.within
  have hwritten : offered evs k = ((done evs k).filterMap Action.written).map Prod.snd := by
    rw [done, ← writes_deeds, List.filter_eq_self.mpr]
    · rfl
    · intro w hw
      exact bne_iff_ne.mpr (hforwards w hw)
  refine ⟨packetId, hconfirmed.id, hstream, ?_⟩
  rintro ⟨ack, hwithin⟩
  have hoffered : (offered evs k).flatten <+: [Client.bytesOf (.ConnAck ack)].flatten := by
    rw [hwritten]
    exact (hwithin.map Prod.snd).flatten
  have hreads := hjoined.toClient.trans hoffered
  rw [hconfirmed.reads] at hreads
  exact rest_of_acknowledged hconfirmed.accepted hconfirmed.acknowledged hreads rfl

theorem takenOver_of_answered (hinit : cfg₀.thread (.connection k) = .fresh)
    (hrun : (brokerSystem settings).RunWhere P cfg₀ evs cfg) (hspawn : .spawn (.connection k) .tcp ∈ evs)
    (hargs : args.Sendable) {packetId : Option UInt16} (hid : packetId.isSome = true)
    (hheard : (heard (System.traceOf (.connection k) evs)).flatten <+: args.stream .AtLeastOnce packetId)
    (hanswered : ¬ OnlyConnack (done evs k)) : ∃ username, TakenOver settings args username
      (args.fields.idFor (named (System.traceOf (.connection k) evs))) (done evs k) := by
  have hdone := done_within (.inl rfl) hinit hrun hspawn
  rcases tcpScript_connect (connect_valid hargs.connect) hheard with hnone | ⟨later, hsplit, hscript⟩
  · rw [due, Control.opening, hnone, List.prefix_nil] at hdone
    rw [hdone] at hanswered
    exact (hanswered ⟨{ sessionPresent := false, returnCode := .Accepted }, List.nil_prefix⟩).elim
  · rw [← hsplit] at hheard
    rw [due, Control.opening, hscript] at hdone
    have hlater := (List.prefix_append_right_inj _).mp hheard
    exact (takenOver_of_stream hargs hid hlater hdone).resolve_left hanswered

/-- A `pub` that shows its PUBACK has handed on its message, whatever the other tasks of the broker do and where the reads
    of both sides end. -/
theorem acknowledged_of_joined (hinit : cfg₀.thread (.connection k) = .fresh)
    (hrun : (brokerSystem settings).RunWhere P cfg₀ evs cfg) (hspawn : .spawn (.connection k) .tcp ∈ evs)
    (hclient : Client.clientSystem.RunWhere P' Client.initial cevs ccfg) (hpub : .spawn .main (.pub args) ∈ cevs)
    (hargs : args.Sendable) (hjoined : Joined evs k cevs)
    (hforwards : ∀ w ∈ writes (System.traceOf (.connection k) evs), w.1 ≠ .forwarded)
    (hconfirms : Client.confirms (System.traceOf .main cevs) = true) :
    ∃ username, TakenOver settings args username
      (args.fields.idFor (named (System.traceOf (.connection k) evs))) (done evs k) := by
  obtain ⟨packetId, hid, hstream, hanswered⟩ := answered_of_confirms hclient hpub hjoined hforwards hconfirms
  exact takenOver_of_answered hinit hrun hspawn hargs hid (hjoined.toBroker.trans hstream) hanswered

end

theorem plainArgs_fit {args : Client.Args} (husername : args.username = none) (hpassword : args.password = none)
    (hid : Fits args.clientId) : (V3.MqttPacketV3.Connect (Client.connectPacket args)).WellFormed := by
  refine ⟨hid, ?_, ?_, ?_⟩
  · intro w hw
    cases hw
  · intro u hu
    cases husername.symm.trans hu
  · intro s hs
    cases hpassword.symm.trans hs

def servesPublisherMoves : List BrokerMove :=
  joinMoves 0 "c" true ++
  [.act (.connection 0) (.received (.data (Client.bytesOf (.Publish (Client.publisherArgs.message (some 1))))))] ++
  turns (.connection 0) 7

theorem acknowledged_of_joined_publisher : ∃ evs cfg cevs ccfg, (brokerSystem openSettings).Run initial evs cfg ∧
    Client.clientSystem.Run Client.initial cevs ccfg ∧ Joined evs 0 cevs ∧
    ∃ username, TakenOver openSettings Client.publisherArgs username
      (Client.publisherArgs.fields.idFor (named (System.traceOf (.connection 0) evs))) (done evs 0) := by
  have hplays : (execute openSettings servesPublisherMoves).any (fun r => (Client.execute Client.publisherMoves).any fun r' =>
      r.1.any (startsTcp 0) && r'.1.any (Client.startsMain (.pub Client.publisherArgs)) &&
      (heard (System.traceOf (.connection 0) r.1)).flatten.isPrefixOf (Client.wire r'.1) &&
      (Client.received (System.traceOf .main r'.1)).flatten.isPrefixOf (offered r.1 0).flatten &&
      (writes (System.traceOf (.connection 0) r.1)).all (fun w => w.1 != .forwarded) &&
      Client.confirms (System.traceOf .main r'.1)) = true := by decide +kernel
  obtain ⟨⟨evs, cfg⟩, hexec, hplays⟩ := (Option.any_eq_true _ _).mp hplays
  obtain ⟨⟨cevs, ccfg⟩, hexec', hplays⟩ := (Option.any_eq_true _ _).mp hplays
  simp only [Bool.and_eq_true, List.isPrefixOf_iff_prefix, List.all_eq_true, bne_iff_ne] at hplays
  obtain ⟨⟨⟨⟨⟨hspawn, hpub⟩, hheard⟩, hreceived⟩, hforwards⟩, hconfirms⟩ := hplays
  have hargs : Client.publisherArgs.Sendable := ⟨plainArgs_fit rfl rfl (by decide), by decide⟩
  have hrun := execute_run hexec
  have hclient := Client.execute_run hexec'
  have hjoined : Joined evs 0 cevs := ⟨hheard, hreceived⟩
  exact ⟨evs, cfg, cevs, ccfg, hrun, hclient, hjoined, acknowledged_of_joined rfl hrun (mem_of_startsTcp hspawn) hclient
    (Client.mem_of_startsMain hpub) hargs hjoined hforwards hconfirms⟩

end AtomMqtt
