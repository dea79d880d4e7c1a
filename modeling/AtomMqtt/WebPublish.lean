import AtomMqtt.Resending
import AtomMqtt.RouterCopies
import AtomMqtt.WebServer

set_option autoImplicit false

/-! A message that is published over HTTP. Its topic has come out of no packet, so nothing has bounded it before
the length is written in 16 bits. -/
namespace AtomMqtt
open Programs

theorem fits_of_deliversTo {bytes : Bytes} {topic : String} {payload : Bytes}
    (h : DeliversTo .V311 bytes topic payload) : Fits topic := by
  obtain ⟨packet, hdecode, hcontent⟩ := h
  obtain ⟨p, rfl, hp⟩ := decodePacketByVersion_v3.mp hdecode
  have hformed := V3.decodePacket_wellFormed hp
  cases p with
  | Publish p =>
    simp only [publishContent, Option.some.injEq, Prod.mk.injEq] at hcontent
    rw [← hcontent.1]
    exact hformed.1
  | _ => cases hcontent

theorem publishBytes_length_le_iff (topic : String) (payload : Bytes) (retain : Bool) :
    (publishBytes topic payload retain).length ≤ 10 * 1024 * 1024 ↔
      (asBytes topic).length + payload.length ≤ 10 * 1024 * 1024 - 7 := by
  have hrest : (encodeString topic ++ payload).length = 2 + (asBytes topic).length + payload.length := by
    rw [List.length_append, encodeString_length]
  rw [publishBytes, frame_length, hrest]
  generalize hlen : 2 + (asBytes topic).length + payload.length = n
  have hthree := encodeRemainingLength_length_le_iff (k := 2) (n := n)
  have hfour := encodeRemainingLength_length_le_iff (k := 3) (n := n)
  omega

theorem deliversTo_v3_exact (topic : String) (payload : Bytes) (retain : Bool) :
    DeliversTo .V311 (publishBytes topic payload retain) topic payload ↔
      (asBytes topic).length ≤ 65535 ∧ (asBytes topic).length + payload.length ≤ 10 * 1024 * 1024 - 7 := by
  rw [← publishBytes_length_le_iff topic payload retain]
  constructor
  · intro h
    have hfits := fits_of_deliversTo h
    exact ⟨hfits, (deliversTo_v3_iff hfits payload retain).mp h⟩
  · rintro ⟨hfits, hlen⟩
    exact (deliversTo_v3_iff hfits payload retain).mpr hlen

/-- What the router forwards of the message goes to every subscription found, and a client of version 3.1.1 that is
    connected then is sent this topic and payload. -/
def ForwardsIntact (message : BrokerMessage) (topic : String) (payload : Bytes) : Prop :=
  ∀ tr, Exec (routeMessage message) tr () →
    (∃ subscribers, ⟨.lookup topic, subscribers⟩ ∈ tr ∧
      (forwards tr).map Prod.fst = subscribers.map Subscription.clientId) ∧
    ∀ e ∈ forwards tr, ∀ (s : Shared) (k : ConnId) (session : SessionState),
      s.receiver e.1 = some k → s.broker.sessions.lookup e.1 = some session →
      session.protocolVersion = .V311 →
        ∃ bytes, (s.forward e.1 e.2).channels = Function.update s.channels k (s.channels k ++ [bytes]) ∧
          DeliversTo .V311 bytes topic payload

theorem exec_run {α : Type} {a : Action} {f : Unit → Broker α} {tr : Trace Action Reply} {x : α} (r : Reply a)
    (h : Exec (f ()) tr x) : Exec (run a >>= f) (⟨a, r⟩ :: tr) x := .act a r h

theorem routePublish_forwardsOne (topic : String) (payload : Bytes) (qos : QoS) (retain : Bool) (sourceClient : String)
    (sub : Subscription) : ∃ tr, Exec (routePublish topic payload qos retain sourceClient) tr () ∧
      (sub.clientId, publishPacket topic payload false) ∈ forwards tr := by
  have hkeep : ∃ tr, Exec (if retain then run (.retainedInsert topic { topic, payload, qos }) else pure ()) tr () := by
    cases retain with
    | false => exact ⟨_, .ret ()⟩
    | true => exact ⟨_, exec_run () (.ret ())⟩
  obtain ⟨tr, hkeep⟩ := hkeep
  have hforward : Exec ([sub].forM fun sub => run (.forward sub.clientId (publishPacket topic payload false))) _ () :=
    exec_run () (.ret ())
  have hweb : Exec ([sub].forM fun sub => run (.forwardWeb sub.clientId (.Publish topic payload qos.toU8 sourceClient))) _ () :=
    exec_run () (.ret ())
  exact ⟨_, exec_ask_iff.mpr (exec_run () (hforward.bind (hweb.bind hkeep))), List.mem_cons_self⟩

theorem routePublish_intact_iff {topic : String} {payload : Bytes} (qos : QoS) (retain : Bool) (sourceClient : String) :
    ForwardsIntact (.Publish topic payload qos retain sourceClient) topic payload ↔
      (asBytes topic).length ≤ 65535 ∧ (asBytes topic).length + payload.length ≤ 10 * 1024 * 1024 - 7 := by
  rw [← deliversTo_v3_exact topic payload false]
  constructor
  · intro h
    -- a state in which the client of the subscription is connected
    let s : Shared := Shared.start { BrokerState.new with
      sessions := (∅ : DashMap String SessionState).insert "c" (SessionState.new "c" .V311 true 60 none)
      connections := (∅ : DashMap String ConnId).insert "c" 0 } []
    have hconnection : s.receiver "c" = some 0 := by
      rw [Shared.receiver, show s.broker.connections.lookup "c" = some 0 from AList.lookup_insert _]
      rfl
    have hsession : s.broker.sessions.lookup "c" = some (SessionState.new "c" .V311 true 60 none) :=
      AList.lookup_insert _
    obtain ⟨tr, hexec, hforward⟩ := routePublish_forwardsOne topic payload qos retain sourceClient
      { clientId := "c", filter := topic, qos := .AtMostOnce }
    obtain ⟨bytes, hchannels, hdelivers⟩ := (h tr hexec).2 _ hforward s 0 _ hconnection hsession rfl
    rw [forward_channel topic payload false hconnection] at hchannels
    have hbytes := congrFun hchannels 0
    rw [Function.update_self, Function.update_self] at hbytes
    obtain rfl : publishBytes topic payload false = bytes := by simpa using hbytes
    exact hdelivers
  · intro hdelivers tr hexec
    obtain ⟨subscribers, hlookup, hforwards⟩ :=
      (routePublish_forwards topic payload qos retain sourceClient).of_exec hexec
    refine ⟨⟨subscribers, hlookup, ?_⟩, ?_⟩
    · rw [hforwards, List.map_map]
      rfl
    · intro e he s k session hk _ _
      rw [hforwards] at he
      obtain ⟨sub, -, rfl⟩ := List.mem_map.mp he
      exact ⟨_, forward_channel topic payload false hk, hdelivers⟩

def webRouted (tr : Trace WebAction WebReply) : List BrokerMessage :=
  tr.filterMap fun e =>
    match e.1 with
    | .broker (.sendRouter message) => some message
    | _ => none

def AnswersPublished (tr : Trace WebAction WebReply) : Prop :=
  ∃ topic subscriberCount r, ⟨.respond (.Ok (.published topic subscriberCount)), r⟩ ∈ tr

/-- A request for this topic and payload that is answered with success has sent the router one message, and what
    the router makes of it is intact. -/
def ReachesIntact (topic payload : String) : Prop :=
  ∀ (qos : UInt8) (retain : Bool) (tr : Trace WebAction WebReply) (c : WebControl),
    Exec (publish { topic, payload, qos, retain }) tr c → AnswersPublished tr →
      ∃ message, webRouted tr = [message] ∧ ForwardsIntact message topic (asBytes payload)

theorem publish_sends (body : PublishRequest) :
    Ensures (fun tr _ => webRouted tr = [.Publish body.topic (asBytes body.payload) ((QoS.fromU8 body.qos).getD .AtMostOnce)
        body.retain "web-ui"] ∧ AnswersPublished tr) (publish body) := by
  unfold publish publishRequest
  refine .act fun r => ?_
  cases hretain : body.retain && !body.payload.isEmpty with
  | false =>
    refine .act fun _ => .act fun subs => .act fun r' => .ret ⟨rfl, body.topic, subs.length, r', ?_⟩
    simp
  | true =>
    refine .act fun _ => .act fun _ => .act fun subs => .act fun r' => .ret ⟨rfl, body.topic, subs.length, r', ?_⟩
    simp

theorem exec_liftRun {α : Type} {a : Action} {f : Unit → Web α} {tr : Trace WebAction WebReply} {x : α} (r : Reply a)
    (h : Exec (f ()) tr x) : Exec (liftBroker (run a) >>= f) (⟨.broker a, r⟩ :: tr) x := by
  change Exec (Program.act (R := WebReply) (.broker a) fun _ => f ()) _ x
  exact exec_act_iff.mpr ⟨r, tr, rfl, h⟩

theorem exec_liftAsk {α : Type} {a : Action} {f : Reply a → Web α} {tr : Trace WebAction WebReply} {x : α} (r : Reply a)
    (h : Exec (f r) tr x) : Exec (liftBroker (ask a) >>= f) (⟨.broker a, r⟩ :: tr) x := by
  change Exec (Program.act (R := WebReply) (.broker a) f) _ x
  exact exec_act_iff.mpr ⟨r, tr, rfl, h⟩

theorem publish_executes (topic payload : String) :
    ∃ tr c, Exec (publish { topic, payload, qos := 0, retain := false }) tr c := by
  have hrequest : Exec (publishRequest { topic, payload, qos := 0, retain := false }) _ 0 :=
    exec_liftRun () (exec_liftRun () (exec_liftAsk [] (.ret 0)))
  have hanswer : Exec (answer (.Ok (.published topic 0))) [⟨.respond (.Ok (.published topic 0)), ()⟩]
      (.broker (.exited true)) := by
    change Exec (Program.act (R := WebReply) (.respond _) fun _ => .ret _) _ _
    exact exec_act_iff.mpr ⟨(), [], rfl, .ret _⟩
  exact ⟨_, _, hrequest.bind hanswer⟩

theorem fits_of_reachesIntact {topic payload : String} (h : ReachesIntact topic payload) :
    (asBytes topic).length ≤ 65535 ∧
      (asBytes topic).length + (asBytes payload).length ≤ 10 * 1024 * 1024 - 7 := by
  obtain ⟨tr, c, hexec⟩ := publish_executes topic payload
  obtain ⟨hsent, hanswer⟩ := (publish_sends { topic, payload, qos := 0, retain := false }).of_exec hexec
  obtain ⟨message, hrouted, hintact⟩ := h 0 false tr c hexec hanswer
  rw [hsent] at hrouted
  obtain rfl := (List.cons.inj hrouted).1
  exact (routePublish_intact_iff _ false "web-ui").mp hintact

/-- A message over HTTP reaches the clients of version 3.1.1 intact exactly if its topic fits in the 16 bits of its
    length and the packet stays within 10 MiB. -/
theorem reachesIntact_iff (topic payload : String) : ReachesIntact topic payload ↔
    (asBytes topic).length ≤ 65535 ∧
      (asBytes topic).length + (asBytes payload).length ≤ 10 * 1024 * 1024 - 7 := by
  constructor
  · exact fits_of_reachesIntact
  · intro hfits qos retain tr c hexec _
    obtain ⟨hsent, -⟩ := (publish_sends { topic, payload, qos, retain }).of_exec hexec
    exact ⟨_, hsent, (routePublish_intact_iff _ retain "web-ui").mpr hfits⟩

theorem asBytes_replicate (c : Char) (n : ℕ) :
    (asBytes (String.ofList (List.replicate n c))).length = n * c.utf8Size := by
  simp [asBytes, List.utf8Encode]

/-- One byte more than the length can say: the topic is read as the empty one, the rest as the payload. -/
theorem reachesIntact_fails : ¬ ReachesIntact (String.ofList (List.replicate 65536 'a')) "x" := by
  intro h
  have hfits := (fits_of_reachesIntact h).1
  rw [asBytes_replicate] at hfits
  exact absurd hfits (by decide)

end AtomMqtt
