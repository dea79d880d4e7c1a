import AtomMqtt.Effects
import AtomMqtt.PacketTraces
import AtomMqtt.V5RoundTrip

set_option autoImplicit false

/-! What a subscriber's own decoder makes of a delivery. The router and the replay of retained messages enqueue
a PUBLISH of version 3.1.1 for every connection. Read as 5.0, the first byte of the payload is taken for the
length of the properties. -/
namespace AtomMqtt
open Programs Scanning

def publishContent : MqttPacket → Option (String × Bytes)
  | .V311 (.Publish p) => some (p.topic, p.payload)
  | .V5 (.Publish p) => some (p.topic, p.payload)
  | _ => none

/-- The bytes decode, with none left over, to one PUBLISH with this topic and payload. -/
def DeliversTo (version : ProtocolVersion) (bytes : Bytes) (topic : String) (payload : Bytes) : Prop :=
  ∃ packet, decodePacketByVersion bytes version = .ok (some (packet, bytes.length)) ∧
    publishContent packet = some (topic, payload)

def publishBytes (topic : String) (payload : Bytes) (retain : Bool) : Bytes :=
  frame (publishFixedByte .AtMostOnce retain false) (encodeString topic ++ payload)

theorem encodePacket_publishPacket (topic : String) (payload : Bytes) (retain : Bool) :
    encodePacket (publishPacket topic payload retain) = .ok (publishBytes topic payload retain) := rfl

theorem sentBytes_publishPacket (topic : String) (payload : Bytes) (retain : Bool) :
    sentBytes (publishPacket topic payload retain) = publishBytes topic payload retain := by
  rw [sentBytes, encodePacket_publishPacket]
  rfl

theorem decodeV3_publishBytes {topic : String} (htopic : Fits topic) (payload : Bytes) (retain : Bool) :
    V3.decodeBody .Publish (encodeString topic ++ payload) (publishFixedByte .AtMostOnce retain false) =
      .ok (.Publish { topic, payload, qos := .AtMostOnce, retain, packetId := none }) := by
  have hbody := V3.decodePublish_remaining
    (p := { topic, payload, qos := .AtMostOnce, retain, packetId := none }) ⟨htopic, by simp⟩ false
  change V3.decodePublish (encodeString topic ++ payload) _ = _ at hbody
  rw [V3.decodeBody, hbody]
  rfl

theorem Properties.decode_pos {data : Bytes} {properties : V5.Properties} {consumed : ℕ} (hdata : data ≠ [])
    (h : V5.Properties.decode data = .ok (properties, consumed)) : 0 < consumed := by
  have hne : data.isEmpty = false := by simpa using hdata
  simp only [V5.Properties.decode, hne, Bool.false_eq_true, if_false] at h
  obtain ⟨⟨propsLen, lenBytes⟩, hr, h⟩ := bind_eq_ok.mp h
  have hpos : 0 < lenBytes := decodeRemainingLoop_pos hr
  simp only at h
  split at h
  · cases h
    exact hpos
  · split at h
    · cases h
    · obtain ⟨_, _, h⟩ := bind_eq_ok.mp h
      cases h
      omega

/-- Read as 5.0, a PUBLISH of version 3.1.1 loses the bytes that are read as its properties. -/
theorem decodeV5_publishBytes {topic : String} (htopic : Fits topic) (payload : Bytes) (retain : Bool) :
    V5.decodePublish (encodeString topic ++ payload) (publishFixedByte .AtMostOnce retain false) =
      V5.Properties.decode payload >>= fun (properties, consumed) =>
        if consumed ≤ payload.length then
          .ok { topic, payload := payload.drop consumed, qos := .AtMostOnce, retain, packetId := none, properties }
        else .error .panic := by
  simp only [V5.decodePublish, publishFixedByte_qos, okOr, ok_bind, publishFixedByte_retain]
  have htop := Scan.reads_string htopic [] payload
  simp only [ReadsAt, List.nil_append, List.length_nil, Nat.zero_add] at htop
  have hle : (encodeString topic).length ≤ (encodeString topic ++ payload).length := by
    simp only [List.length_append]
    omega
  simp only [Scan.runOn, V5.scanPublish, bind_apply, htop, V5.scanProperties, Scan.onRest, onRest, hle, if_true,
    List.drop_left]
  cases V5.Properties.decode payload with
  | error e => rfl
  | ok result =>
    obtain ⟨properties, consumed⟩ := result
    simp only [readIf, bne_self_eq_false, Bool.false_eq_true, if_false, pure_apply, Scan.takeRest, takeRest, ok_bind]
    by_cases hfit : consumed ≤ payload.length
    · have hpos : (encodeString topic).length + consumed ≤ (encodeString topic ++ payload).length := by
        simp only [List.length_append]
        omega
      have hdrop : (encodeString topic ++ payload).drop ((encodeString topic).length + consumed) =
          payload.drop consumed := by
        rw [← List.drop_drop, List.drop_left]
      simp only [hfit, hpos, if_true, hdrop]
    · have hpos : ¬ (encodeString topic).length + consumed ≤ (encodeString topic ++ payload).length := by
        simp only [List.length_append]
        omega
      simp only [hfit, hpos, if_false]

theorem encodeRemainingLength_length_le {n : ℕ} (h : n < 128 * 128 * 128) : (encodeRemainingLength n).length ≤ 3 :=
  encodeRemainingLength_length_le_iff.mpr h

theorem publishBytes_empty_length {topic : String} (htopic : Fits topic) (retain : Bool) :
    (publishBytes topic [] retain).length ≤ 10 * 1024 * 1024 := by
  have hlen := encodeString_length topic
  have hfits : (asBytes topic).length ≤ 65535 := htopic
  have hthree := encodeRemainingLength_length_le (n := (encodeString topic).length) (by omega)
  rw [publishBytes, frame_length, List.append_nil]
  omega

theorem deliversTo_v3_iff {topic : String} (htopic : Fits topic) (payload : Bytes) (retain : Bool) :
    DeliversTo .V311 (publishBytes topic payload retain) topic payload ↔
      (publishBytes topic payload retain).length ≤ 10 * 1024 * 1024 := by
  constructor
  · intro h
    obtain ⟨packet, hdecode, -⟩ := h
    obtain ⟨p, -, hp⟩ := decodePacketByVersion_v3.mp hdecode
    obtain ⟨_, _, _, _, _, _, _, _, _, _, hmax, _⟩ := decodeFrame_eq_some_iff.mp hp
    exact hmax
  · intro hmax
    have hframe := decodeFrame_frame V3.decodeBody [] (publishFixedByte_type .AtMostOnce retain false) hmax
      (by decide)
    rw [List.append_nil, decodeV3_publishBytes htopic] at hframe
    exact ⟨_, decodePacketByVersion_v3.mpr ⟨_, rfl, hframe⟩, rfl⟩

theorem deliversTo_v5_iff {topic : String} (htopic : Fits topic) (payload : Bytes) (retain : Bool) :
    DeliversTo .V5 (publishBytes topic payload retain) topic payload ↔ payload = [] := by
  have hframe : (publishBytes topic payload retain).length ≤ 10 * 1024 * 1024 →
      V5.decodePacket (publishBytes topic payload retain) =
        (fun packet => some (packet, (publishBytes topic payload retain).length)) <$>
          V5.decodeBody .Publish (encodeString topic ++ payload) (publishFixedByte .AtMostOnce retain false) := by
    intro hmax
    have h := decodeFrame_frame V5.decodeBody [] (publishFixedByte_type .AtMostOnce retain false) hmax
      (by decide)
    rwa [List.append_nil] at h
  constructor
  · intro h
    obtain ⟨packet, hdecode, hcontent⟩ := h
    obtain ⟨p, rfl, hp⟩ := decodePacketByVersion_v5.mp hdecode
    obtain ⟨_, _, _, _, _, _, _, _, _, _, hmax, _⟩ := decodeFrame_eq_some_iff.mp hp
    rw [hframe hmax, V5.decodeBody] at hp
    rw [decodeV5_publishBytes htopic] at hp
    cases hprops : V5.Properties.decode payload with
    | error e =>
      rw [hprops] at hp
      cases hp
    | ok result =>
      obtain ⟨properties, consumed⟩ := result
      rw [hprops] at hp
      simp only [ok_bind] at hp
      by_cases hfit : consumed ≤ payload.length
      · rw [if_pos hfit] at hp
        cases hp
        have hpayload : payload.drop consumed = payload := by
          simp only [publishContent, Option.some.injEq, Prod.mk.injEq] at hcontent
          exact hcontent.2
        by_contra hne
        have hlen := congrArg List.length hpayload
        have hlt := List.length_pos_of_ne_nil hne
        have hpos := Properties.decode_pos hne hprops
        rw [List.length_drop] at hlen
        omega
      · rw [if_neg hfit] at hp
        cases hp
  · intro hempty
    subst hempty
    have hdecode := hframe (publishBytes_empty_length htopic retain)
    rw [V5.decodeBody, decodeV5_publishBytes htopic] at hdecode
    exact ⟨_, decodePacketByVersion_v5.mpr ⟨_, rfl, hdecode⟩, rfl⟩

/-- The forwards of a trace, in order: the client whose channel is looked up, and the packet. -/
def forwards (tr : Trace Action Reply) : List (String × MqttPacket) :=
  tr.filterMap fun e =>
    match e.1 with
    | .forward clientId packet => some (clientId, packet)
    | _ => none

theorem forwards_append (tr tr' : Trace Action Reply) : forwards (tr ++ tr') = forwards tr ++ forwards tr' :=
  List.filterMap_append

theorem forM_forwards {xs : List Subscription} {packet : MqttPacket} :
    Ensures (fun tr _ => forwards tr = xs.map fun sub => (sub.clientId, packet))
      (xs.forM fun sub => run (.forward sub.clientId packet)) := by
  induction xs with
  | nil => exact .ret rfl
  | cons sub xs ih =>
    change Ensures _ (run (.forward sub.clientId packet) >>= fun _ => xs.forM fun sub => run (.forward sub.clientId packet))
    apply ensures_run
    intro r
    apply ih.mono
    intro tr _ htr
    exact congrArg ((sub.clientId, packet) :: ·) htr

theorem forM_forwardWeb_forwards {xs : List Subscription} {message : WebMessage} :
    Ensures (fun tr _ => forwards tr = []) (xs.forM fun sub => run (.forwardWeb sub.clientId message)) := by
  refine .forM (P := fun tr => forwards tr = []) rfl ?_ fun sub _ => ensures_run_last fun _ => rfl
  intro tr tr' htr htr'
  rw [forwards_append, htr, htr', List.append_nil]

theorem routePublish_forwards (topic : String) (payload : Bytes) (qos : QoS) (retain : Bool) (sourceClient : String) :
    Ensures (fun tr _ => ∃ subscribers, ⟨.lookup topic, subscribers⟩ ∈ tr ∧
        forwards tr = subscribers.map fun sub => (sub.clientId, publishPacket topic payload false))
      (routePublish topic payload qos retain sourceClient) := by
  unfold routePublish
  apply ensures_ask
  intro subscribers
  apply ensures_run
  intro r
  apply forM_forwards.seq
  intro tr _ htr
  apply forM_forwardWeb_forwards.seq
  intro tr' _ htr'
  have hall : forwards (tr ++ tr') = subscribers.map fun sub => (sub.clientId, publishPacket topic payload false) := by
    rw [forwards_append, htr, htr', List.append_nil]
  cases retain with
  | false =>
    refine .ret ⟨subscribers, List.mem_cons_self, ?_⟩
    rw [List.append_nil]
    exact hall
  | true =>
    refine ensures_run_last fun r => ⟨subscribers, List.mem_cons_self, ?_⟩
    change forwards (tr ++ (tr' ++ _)) = _
    rw [← List.append_assoc, forwards_append, hall]
    exact List.append_nil _

/-- Each forward goes to the client itself and carries a retained message that was read before. -/
def Replays (clientId : String) (tr : Trace Action Reply) : Prop :=
  ∀ e ∈ forwards tr, e.1 = clientId ∧ ∃ items, ⟨.retainedIter, items⟩ ∈ tr ∧
    ∃ item ∈ items, e.2 = publishPacket item.topic item.payload true

theorem replays_composed (clientId : String) : Composed clientId (Replays clientId) where
  nil := List.forall_mem_nil _
  append := by
    intro tr tr' htr htr' e he
    rw [forwards_append, List.mem_append] at he
    cases he with
    | inl h =>
      obtain ⟨hclient, items, hitems, hitem⟩ := htr e h
      exact ⟨hclient, items, List.mem_append_left tr' hitems, hitem⟩
    | inr h =>
      obtain ⟨hclient, items, hitems, hitem⟩ := htr' e h
      exact ⟨hclient, items, List.mem_append_right tr hitems, hitem⟩
  action := by
    intro a r ha
    cases a <;> first | exact List.forall_mem_nil _ | exact ha.elim
  replay := by
    intro filter
    unfold replayRetained
    apply ensures_ask
    intro items
    apply Ensures.mono (P := fun tr _ => ∀ e ∈ forwards tr, e.1 = clientId ∧
      ∃ item ∈ items, e.2 = publishPacket item.topic item.payload true)
    · apply Ensures.forM (List.forall_mem_nil _)
      · intro tr tr' htr htr'
        rw [forwards_append]
        exact List.forall_mem_append.mpr ⟨htr, htr'⟩
      · intro item hitem
        split
        · apply ensures_run_last
          intro _ e he
          rw [List.mem_singleton.mp he]
          exact ⟨rfl, item, hitem, rfl⟩
        · exact .ret (List.forall_mem_nil _)
    · intro tr _ htr e he
      obtain ⟨hclient, hitem⟩ := htr e he
      exact ⟨hclient, items, List.mem_cons_self, hitem⟩

theorem forward_channel {s : Shared} {clientId : String} {k : ConnId} (topic : String) (payload : Bytes) (retain : Bool)
    (hk : s.receiver clientId = some k) :
    (s.forward clientId (publishPacket topic payload retain)).channels =
      Function.update s.channels k (s.channels k ++ [publishBytes topic payload retain]) := by
  rw [forward_eq, hk, sentBytes_publishPacket]

/-- What the router passes on of a published message, and what a SUBSCRIBE replays, is enqueued as one
    PUBLISH of version 3.1.1 for every connection that still receives. Its topic and payload come out of the 3.1.1 decoder
    unless the packet is over 10 MiB, and out of the 5.0 decoder only if the payload is empty. -/
theorem delivered_in_v3 (settings : Settings) :
    (∀ topic payload qos retain source tr, Exec (routeMessage (.Publish topic payload qos retain source)) tr () →
      ∀ e ∈ forwards tr, e.2 = publishPacket topic payload false) ∧
    (∀ packet clientId username tr result, Exec (processPacket settings packet clientId username) tr result →
      Replays clientId tr) ∧
    ∀ (s : Shared) clientId k topic payload retain, s.receiver clientId = some k →
      (asBytes topic).length ≤ 65535 →
      ∃ bytes, (s.forward clientId (publishPacket topic payload retain)).channels =
          Function.update s.channels k (s.channels k ++ [bytes]) ∧
        (DeliversTo .V311 bytes topic payload ↔ bytes.length ≤ 10 * 1024 * 1024) ∧
        (DeliversTo .V5 bytes topic payload ↔ payload = []) := by
  constructor
  · intro topic payload qos retain source tr hexec e he
    obtain ⟨subscribers, -, hforwards⟩ := (routePublish_forwards topic payload qos retain source).of_exec hexec
    rw [hforwards] at he
    obtain ⟨sub, -, rfl⟩ := List.mem_map.mp he
    rfl
  constructor
  · intro packet clientId username tr result hexec
    exact (((replays_composed clientId).processPacket packet).of_exec hexec).1
  · intro s clientId k topic payload retain hk htopic
    refine ⟨publishBytes topic payload retain, forward_channel topic payload retain hk, ?_, ?_⟩
    · exact deliversTo_v3_iff htopic payload retain
    · exact deliversTo_v5_iff htopic payload retain

def misreadMoves : List BrokerMove :=
  [.spawn (.router 0) .router, .spawn (.connection 0) (.ws []), .spawn (.request 0) (.publishRequest "t" "x" 0 false),
    .act (.connection 0) (.item (.frame (.binary (sentBytes (.V5 (.Connect (plainConnectV5 "c" true none)))))))] ++
  turns (.connection 0) 8 ++
  [.act (.connection 0) (.frame (.binary (sentBytes (.V5 (.Subscribe
    { packetId := 1, properties := V5.Properties.new,
      filters := [{ path := "t", qos := .AtMostOnce, noLocal := false, retainAsPublished := false,
                    retainHandling := .Send }] })))))] ++
  turns (.connection 0) 8 ++ turns (.request 0) 3 ++ turns (.router 0) 4

def received : BrokerEvent → Option (ThreadId × BrokerMessage)
  | .act (.router _) .recvRouter message => some message
  | _ => none

/-- The router has enqueued for it what its own decoder does not read as that message. -/
theorem delivered_misread : ∃ evs cfg session bytes, (brokerSystem openSettings).Run initial evs cfg ∧
    evs.filterMap received = [(.request 0, .Publish "t" [0x78] .AtMostOnce false "web-ui")] ∧
    cfg.shared.shared.broker.sessions.lookup "c" = some session ∧ session.protocolVersion = .V5 ∧
    cfg.shared.shared.broker.connections.lookup "c" = some 0 ∧ cfg.shared.shared.channels 0 = [bytes] ∧
    ¬ DeliversTo session.protocolVersion bytes "t" [0x78] := by
  have hrun : (execute openSettings misreadMoves).map (fun r => (r.1.filterMap received,
      r.2.shared.shared.broker.sessions.lookup "c", r.2.shared.shared.broker.connections.lookup "c",
      r.2.shared.shared.channels 0)) =
      some ([(.request 0, .Publish "t" [0x78] .AtMostOnce false "web-ui")],
        some (SessionState.new "c" .V5 true 60 (some "anonymous")), some 0, [publishBytes "t" [0x78] false]) := by
    decide +kernel
  obtain ⟨⟨evs, cfg⟩, hexec, heq⟩ := Option.map_eq_some_iff.mp hrun
  simp only [Prod.mk.injEq] at heq
  obtain ⟨hreceived, hsession, hconnection, hchannel⟩ := heq
  refine ⟨evs, cfg, _, _, execute_run hexec, hreceived, hsession, rfl, hconnection, hchannel, ?_⟩
  intro h
  exact absurd ((deliversTo_v5_iff (by decide) [0x78] false).mp h) (by decide)

end AtomMqtt
