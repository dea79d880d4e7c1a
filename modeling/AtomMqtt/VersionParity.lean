import AtomMqtt.BrokerSystem

set_option autoImplicit false

/-! The two versions of a packet. The processors of 3.1.1 and 5.0 perform the same actions for packets with the
same fields; only their answers differ. -/
namespace AtomMqtt
open Programs

def V3.AckPacket.inV5 (p : V3.AckPacket) : V5.AckPacket :=
  { packetId := p.packetId, reasonCode := .Success, properties := V5.Properties.new }

def V3.SubscribeFilter.inV5 (f : V3.SubscribeFilter) : V5.SubscribeFilter :=
  { path := f.path, qos := f.qos, noLocal := false, retainAsPublished := false, retainHandling := .Send }

/-- The packet of version 5.0 with the same fields: no properties, `Success`, and no options. -/
def V3.MqttPacketV3.inV5 : V3.MqttPacketV3 → Option V5.MqttPacketV5
  | .Connect _ => none
  | .ConnAck p =>
    some (.ConnAck { sessionPresent := p.sessionPresent, reasonCode := .Success, properties := V5.Properties.new })
  | .Publish p =>
    some (.Publish { topic := p.topic, payload := p.payload, qos := p.qos, retain := p.retain, packetId := p.packetId,
                     properties := V5.Properties.new })
  | .PubAck p => some (.PubAck p.inV5)
  | .PubRec p => some (.PubRec p.inV5)
  | .PubRel p => some (.PubRel p.inV5)
  | .PubComp p => some (.PubComp p.inV5)
  | .Subscribe p =>
    some (.Subscribe { packetId := p.packetId, filters := p.filters.map V3.SubscribeFilter.inV5,
                       properties := V5.Properties.new })
  | .SubAck p =>
    some (.SubAck { packetId := p.packetId, reasonCodes := p.returnCodes.map fun _ => .Success,
                    properties := V5.Properties.new })
  | .Unsubscribe p =>
    some (.Unsubscribe { packetId := p.packetId, filters := p.filters, properties := V5.Properties.new })
  | .UnsubAck p =>
    some (.UnsubAck { packetId := p.packetId, reasonCodes := [], properties := V5.Properties.new })
  | .PingReq => some .PingReq
  | .PingResp => some .PingResp
  | .Disconnect => some (.Disconnect { reasonCode := .Success, properties := V5.Properties.new })

section
variable {settings : Settings} {clientId username : String}

theorem alike_run {α β : Type} {a : Action} {f : Unit → Broker α} {g : Unit → Broker β} (h : Alike (f ()) (g ())) :
    Alike (run a >>= f) (run a >>= g) := .act fun _ => h

theorem subscribeFilters_alike (filters : List V3.SubscribeFilter) :
    Alike
      (filters.mapM fun filter =>
        if !settings.acl.authorizeSubscribe username filter.path then (return 0x80 : Broker UInt8)
        else do
          acceptSubscription clientId filter.path filter.qos
          return filter.qos.toU8)
      ((filters.map V3.SubscribeFilter.inV5).mapM fun filter =>
        if !settings.acl.authorizeSubscribe username filter.path then (return .NotAuthorized : Broker V5.ReasonCode)
        else do
          acceptSubscription clientId filter.path filter.qos
          return .Success) := by
  apply Alike.mapM_map
  intro filter
  rw [V3.SubscribeFilter.inV5]
  cases settings.acl.authorizeSubscribe username filter.path with
  | false => exact .ret _ _
  | true => exact (Alike.refl _).bind fun _ _ => .ret _ _

theorem processPacket_alike {p : V3.MqttPacketV3} {p' : V5.MqttPacketV5} (h : p.inV5 = some p') :
    Alike (processV3Packet settings p clientId username) (processV5Packet settings p' clientId username) := by
  cases p <;> cases h
  case Publish p =>
    unfold processV3Packet processV5Packet
    apply alike_run
    apply alike_run
    cases settings.acl.authorizePublish username p.topic with
    | false => exact .ret _ _
    | true => exact (Alike.refl _).bind fun _ _ => .ret _ _
  case Subscribe p =>
    unfold processV3Packet processV5Packet
    exact (subscribeFilters_alike p.filters).bind fun _ _ => alike_run (.ret _ _)
  case Unsubscribe p =>
    unfold processV3Packet processV5Packet
    exact (Alike.refl _).bind fun _ _ => .ret _ _
  case Disconnect =>
    unfold processV3Packet processV5Packet
    apply alike_run
    apply alike_run
    apply alike_run
    exact .ret _ _
  all_goals exact .ret _ _

end

/-- Whatever the replies, a packet of version 3.1.1 and the same packet of version 5.0 make the processors
    perform the same actions in the same order. So from every state they leave the same one. -/
theorem versions_agree (settings : Settings) (clientId username : String) {p : V3.MqttPacketV3} {p' : V5.MqttPacketV5}
    (h : p.inV5 = some p') :
    (∀ tr, (∃ result, Exec (processV3Packet settings p clientId username) tr result) ↔
      ∃ result, Exec (processV5Packet settings p' clientId username) tr result) ∧
    ∀ i input s,
      (runAlone i input (processV3Packet settings p clientId username) s).map (fun last => (last.1, last.2.1)) =
        (runAlone i input (processV5Packet settings p' clientId username) s).map fun last => (last.1, last.2.1) := by
  have halike : Alike (processV3Packet settings p clientId username) (processV5Packet settings p' clientId username) :=
    processPacket_alike h
  constructor
  · intro tr
    constructor
    · intro hexec
      obtain ⟨result, hexec⟩ := hexec
      exact halike.exec hexec
    · intro hexec
      obtain ⟨result, hexec⟩ := hexec
      exact halike.symm.exec hexec
  · intro i input s
    exact halike.runOn s

theorem versions_agree_unsubscribe :
    (runAlone (.connection 0) (fun _ => .go) (processV3Packet openSettings (.Unsubscribe { packetId := 1, filters := ["t"] })
        "c" "anonymous") (Shared.start BrokerState.new [])).map (fun last => last.1) =
      some [⟨.unsubscribe "c" "t", ()⟩, ⟨.sendEvent (.RemoveSubscription "c" "t"), ()⟩, ⟨.syncSubscriptionsActive, ()⟩] ∧
    (runAlone (.connection 0) (fun _ => .go) (processV5Packet openSettings (.Unsubscribe
        { packetId := 1, filters := ["t"], properties := V5.Properties.new }) "c" "anonymous")
        (Shared.start BrokerState.new [])).map (fun last => last.1) =
      some [⟨.unsubscribe "c" "t", ()⟩, ⟨.sendEvent (.RemoveSubscription "c" "t"), ()⟩, ⟨.syncSubscriptionsActive, ()⟩] := by
  have hsame := (versions_agree openSettings "c" "anonymous" (p := .Unsubscribe { packetId := 1, filters := ["t"] }) rfl).2
    (.connection 0) (fun _ => .go) (Shared.start BrokerState.new [])
  have htrace := congrArg (Option.map Prod.fst) hsame
  simp only [Option.map_map] at htrace
  refine ⟨rfl, ?_⟩
  exact htrace.symm.trans rfl

end AtomMqtt
