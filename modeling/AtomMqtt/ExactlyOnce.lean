import AtomMqtt.Handover
import AtomMqtt.PacketLoop

set_option autoImplicit false

/-! A QoS 2 PUBLISH and its retransmissions. A handler keeps nothing about packet ids: each copy of a PUBLISH
goes to the router, and PUBREC and PUBCOMP are answers to single packets. -/
namespace AtomMqtt
open Programs

def V3.PublishPacket.message (p : V3.PublishPacket) (clientId : String) : BrokerMessage :=
  .Publish p.topic p.payload p.qos p.retain clientId

def routed (tr : Trace Action Reply) : List BrokerMessage :=
  tr.filterMap fun e =>
    match e.1 with
    | .sendRouter message => some message
    | _ => none

/-- What the router is sent for a packet of a user. -/
def routes (settings : Settings) (clientId username : String) (packet : MqttPacket) : List BrokerMessage :=
  match packet.publish with
  | some p => if settings.acl.authorizePublish username p.topic then [p.message clientId] else []
  | none => []

theorem routed_append (tr tr' : Trace Action Reply) : routed (tr ++ tr') = routed tr ++ routed tr' :=
  List.filterMap_append

section
variable {settings : Settings} {clientId username : String} {l : ConnLoop} {packet : MqttPacket}

theorem acceptPublish_routes (topic : String) (payload : Bytes) (qos : QoS) (retain : Bool) :
    Ensures (fun tr _ => routed tr = [.Publish topic payload qos retain clientId])
      (acceptPublish clientId topic payload qos retain) := by
  unfold acceptPublish
  apply ensures_run
  intro _
  cases retain with
  | false => exact .ret rfl
  | true =>
    cases payload.isEmpty with
    | true =>
      apply ensures_run
      intro _
      exact ensures_run_last fun _ => rfl
    | false =>
      apply ensures_run
      intro _
      exact ensures_run_last fun _ => rfl

theorem publish_routes {p : V3.PublishPacket} {denied accepted : MqttResult (Option MqttPacket)} :
    Ensures (fun tr _ => routed tr =
        if settings.acl.authorizePublish username p.topic then [p.message clientId] else []) (do
      metrics .incrementMessagesReceived
      metrics (.incrementBytesReceived p.payload.length)
      if !settings.acl.authorizePublish username p.topic then return denied
      else do
        acceptPublish clientId p.topic p.payload p.qos p.retain
        return accepted) := by
  apply ensures_run
  intro _
  apply ensures_run
  intro _
  cases settings.acl.authorizePublish username p.topic with
  | false => exact .ret rfl
  | true =>
    apply (acceptPublish_routes p.topic p.payload p.qos p.retain).seq
    intro tr _ hrouted
    apply Ensures.ret
    rw [List.append_nil]
    exact hrouted

theorem routed_of_local {tr : Trace Action Reply} (h : ∀ e ∈ tr, LocalAction clientId e.1) : routed tr = [] := by
  apply List.filterMap_eq_nil_iff.mpr
  intro e he
  have hlocal := h e he
  obtain ⟨a, r⟩ := e
  cases a <;> first | rfl | exact hlocal.elim

theorem processPacket_routes : Ensures (fun tr _ => routed tr = routes settings clientId username packet)
    (processPacket settings packet clientId username) := by
  cases hpublish : packet.publish with
  | none =>
    apply (processPacket_only hpublish).ensures.mono
    intro tr _ hlocal
    rw [routed_of_local hlocal, routes, hpublish]
  | some p =>
    rw [routes, hpublish]
    cases packet with
    | V311 packet =>
      cases packet <;> cases hpublish
      exact publish_routes
    | V5 packet =>
      cases packet <;> cases hpublish
      exact publish_routes

theorem writePacket_routes {what : Outgoing} : Ensures (fun tr _ => routed tr = []) (writePacket what packet) := by
  obtain ⟨bytes, hencode⟩ := encodePacket_ok packet
  apply (writePacket_ensures hencode).mono
  intro tr sent htr
  subst htr
  cases sent <;> rfl

theorem handlePacket_routes {size : ℕ} {again : ConnLoop → Control} :
    Ensures (fun tr _ => routed tr = routes settings l.clientId (l.username.getD "anonymous") packet)
      (handlePacket settings l packet size again) := by
  unfold handlePacket
  apply ensures_run
  intro _
  apply processPacket_routes.seq
  intro tr result hrouted
  match result with
  | .error _ =>
    apply Ensures.ret
    rw [List.append_nil]
    exact hrouted
  | .ok none =>
    apply Ensures.ret
    rw [List.append_nil]
    exact hrouted
  | .ok (some response) =>
    apply writePacket_routes.seq
    intro tr' sent hnone
    have hboth : routed (tr ++ tr') = routes settings l.clientId (l.username.getD "anonymous") packet := by
      rw [routed_append, hnone, List.append_nil]
      exact hrouted
    cases sent with
    | false =>
      apply Ensures.ret
      rw [List.append_nil]
      exact hboth
    | true =>
      apply Ensures.ret
      rw [List.append_nil]
      exact hboth

end

section
variable {settings : Settings} {c c' : Control} {l : ConnLoop}

theorem turn_routes {tr : Trace Action Reply} {packet : MqttPacket} (hl : c.connLoop = some l)
    (hpacket : c.packet = some packet) (h : Exec (body settings c) tr c') :
    routed tr = routes settings l.clientId (l.username.getD "anonymous") packet := by
  obtain ⟨l', size, rfl | rfl, hdecode⟩ := loop_of_packet hpacket
  · cases hl
    change Exec (tcpLoop settings l) tr c' at h
    rw [tcpLoop, hdecode] at h
    exact handlePacket_routes.of_exec h
  · cases hl
    change Exec (wsLoop settings l) tr c' at h
    rw [wsLoop, hdecode] at h
    exact handlePacket_routes.of_exec h

theorem exited_history {ok : Bool} {h : List (Control × Trace Action Reply)}
    (hhistory : History (body settings) (.exited ok) h c) : ∀ turn ∈ h, turn.1 = .exited ok := by
  generalize hstart : Control.exited ok = start at hhistory
  induction hhistory with
  | done c => exact List.forall_mem_nil _
  | turn first rest ih =>
    subst hstart
    obtain ⟨-, rfl⟩ := exited_turn first
    exact List.forall_mem_cons.mpr ⟨rfl, ih rfl⟩

theorem history_routes {h : List (Control × Trace Action Reply)} (hhistory : History (body settings) c h c') :
    ∀ {l : ConnLoop}, c.connLoop = some l → ∀ turn ∈ h, ∀ packet, turn.1.packet = some packet →
      routed turn.2 = routes settings l.clientId (l.username.getD "anonymous") packet := by
  induction hhistory with
  | done c =>
    intro l _
    exact List.forall_mem_nil _
  | @turn c c₁ c₂ tr h first rest ih =>
    intro l hl turn hturn packet hpacket
    cases List.mem_cons.mp hturn with
    | inl hfirst =>
      subst hfirst
      exact turn_routes hl hpacket first
    | inr hrest =>
      cases loop_goes hl first with
      | inl hgoes =>
        obtain ⟨buf, hloop, _⟩ := hgoes
        exact ih hloop.connLoop turn hrest packet hpacket
      | inr hexited =>
        obtain ⟨ok, rfl⟩ := hexited
        rw [exited_history rest turn hrest] at hpacket
        cases hpacket

end

/-- A QoS 2 PUBLISH with packet id `n`. -/
def MqttPacket.exactlyOnce (n : V3.PacketId) (packet : MqttPacket) : Option V3.PublishPacket :=
  packet.publish.filter fun p => p.qos = .ExactlyOnce ∧ p.packetId = some n

def MqttPacket.releases (n : V3.PacketId) : MqttPacket → Bool
  | .V311 (.PubRel p) => p.packetId == n
  | .V5 (.PubRel p) => p.packetId == n
  | _ => false

/-- The turns from one PUBREL for `n` to the next one. -/
def exchanges (n : V3.PacketId) (h : List (Control × Trace Action Reply)) : List (List (Control × Trace Action Reply)) :=
  h.splitOnP fun turn => turn.1.packet.any fun packet => packet.releases n

/-- The QoS 2 PUBLISH packets with id `n` that these turns handle, each with what the router is sent for it. -/
def copies (n : V3.PacketId) (exchange : List (Control × Trace Action Reply)) :
    List (V3.PublishPacket × List BrokerMessage) :=
  exchange.filterMap fun turn =>
    (turn.1.packet.bind fun packet => packet.exactlyOnce n).map fun p => (p, routed turn.2)

theorem mem_of_splitOnP {α : Type} {separates : α → Bool} {xs part : List α} (h : part ∈ xs.splitOnP separates) :
    ∀ x ∈ part, x ∈ xs := by
  induction xs generalizing part with
  | nil =>
    rw [List.splitOnP_nil, List.mem_singleton] at h
    rw [h]
    exact List.forall_mem_nil _
  | cons y ys ih =>
    intro x hx
    rw [List.splitOnP_cons_eq_if_modifyHead] at h
    split at h
    · cases List.mem_cons.mp h with
      | inl hnil =>
        rw [hnil] at hx
        cases hx
      | inr hpart => exact List.mem_cons_of_mem y (ih hpart x hx)
    · obtain ⟨first, parts, hparts⟩ := List.exists_cons_of_ne_nil (List.splitOnP_ne_nil separates ys)
      rw [hparts, List.modifyHead_cons] at h
      rw [hparts] at ih
      cases List.mem_cons.mp h with
      | inl hfirst =>
        rw [hfirst] at hx
        cases List.mem_cons.mp hx with
        | inl hy =>
          rw [hy]
          exact List.mem_cons_self
        | inr hx => exact List.mem_cons_of_mem y (ih List.mem_cons_self x hx)
      | inr hpart => exact List.mem_cons_of_mem y (ih (List.mem_cons_of_mem first hpart) x hx)

section
variable {settings : Settings} {c c' : Control} {l : ConnLoop} {h exchange : List (Control × Trace Action Reply)}
  {n : V3.PacketId} {p : V3.PublishPacket}

theorem copy_routes (hhistory : History (body settings) c h c') (hl : c.connLoop = some l)
    (hexchange : exchange ∈ exchanges n h) {copy : V3.PublishPacket × List BrokerMessage}
    (hcopy : copy ∈ copies n exchange) : copy.2 =
      if settings.acl.authorizePublish (l.username.getD "anonymous") copy.1.topic then [copy.1.message l.clientId] else [] := by
  obtain ⟨turn, hturn, hmap⟩ := List.mem_filterMap.mp hcopy
  obtain ⟨p, hbind, rfl⟩ := Option.map_eq_some_iff.mp hmap
  obtain ⟨packet, hpacket, honce⟩ := Option.bind_eq_some_iff.mp hbind
  have hpublish : packet.publish = some p := (Option.filter_eq_some_iff.mp honce).1
  have hrouted := history_routes hhistory hl turn (mem_of_splitOnP hexchange turn hturn) packet hpacket
  rw [routes, hpublish] at hrouted
  exact hrouted

theorem copies_routed (hhistory : History (body settings) c h c') (hl : c.connLoop = some l)
    (hexchange : exchange ∈ exchanges n h) (hsame : ∀ copy ∈ copies n exchange, copy.1 = p) :
    (copies n exchange).flatMap Prod.snd =
      if settings.acl.authorizePublish (l.username.getD "anonymous") p.topic then
        List.replicate (copies n exchange).length (p.message l.clientId) else [] := by
  have hroutes : ∀ copy ∈ copies n exchange, copy.2 =
      if settings.acl.authorizePublish (l.username.getD "anonymous") p.topic then [p.message l.clientId] else [] := by
    intro copy hcopy
    rw [copy_routes hhistory hl hexchange hcopy, hsame copy hcopy]
  rw [List.flatMap_congr hroutes]
  cases settings.acl.authorizePublish (l.username.getD "anonymous") p.topic with
  | false => exact List.flatMap_eq_nil_iff.mpr fun _ _ => rfl
  | true =>
    change (copies n exchange).flatMap (fun _ => [p.message l.clientId]) = List.replicate _ _
    induction copies n exchange with
    | nil => rfl
    | cons copy rest ih => exact congrArg (p.message l.clientId :: ·) ih

/-- The router is sent a QoS 2 PUBLISH of one exchange exactly once if the rules allow it and the client
    does not retransmit it. -/
theorem exactlyOnce_iff (hhistory : History (body settings) c h c') (hl : c.connLoop = some l)
    (hexchange : exchange ∈ exchanges n h)
    (hsame : ∀ copy ∈ copies n exchange, copy.1 = p) :
    (copies n exchange).flatMap Prod.snd = [p.message l.clientId] ↔
      settings.acl.authorizePublish (l.username.getD "anonymous") p.topic = true ∧ (copies n exchange).length = 1 := by
  rw [copies_routed hhistory hl hexchange hsame]
  cases settings.acl.authorizePublish (l.username.getD "anonymous") p.topic with
  | false => simp
  | true =>
    have hlength : List.replicate (copies n exchange).length (p.message l.clientId) = [p.message l.clientId] ↔
        (copies n exchange).length = 1 := by
      constructor
      · intro h
        rw [← List.length_replicate (n := (copies n exchange).length) (a := p.message l.clientId), h]
        rfl
      · intro h
        rw [h]
        rfl
    simpa using hlength

end

def orderPublish : V3.PublishPacket where
  topic := "t"
  payload := [0x78]
  qos := .ExactlyOnce
  retain := false
  packetId := some 7

def receivedLoop (sent : List V3.MqttPacketV3) : ConnLoop where
  clientId := "c"
  version := .V311
  cleanSession := true
  username := some "anonymous"
  buf := sent.flatMap fun packet => sentBytes (.V311 packet)

def handled (sent : List V3.MqttPacketV3) : List (Control × Trace Action Reply) :=
  (followHistory (body openSettings) writableReply sent.length (.tcpLoop (receivedLoop sent))).1

theorem exactlyOnce_unretransmitted : ∃ exchange ∈ exchanges 7 (handled [.Publish orderPublish,
      .PubRel { packetId := 7 }, .Publish orderPublish]),
    (copies 7 exchange).flatMap Prod.snd = [orderPublish.message "c"] := by
  have hlast := List.getLast_mem (List.splitOnP_ne_nil (fun turn => turn.1.packet.any fun packet => packet.releases 7)
    (handled [.Publish orderPublish, .PubRel { packetId := 7 }, .Publish orderPublish]))
  refine ⟨_, hlast, ?_⟩
  apply (exactlyOnce_iff (history_follow (body openSettings) writableReply 3 _) rfl hlast (p := orderPublish) ?_).mpr
  · exact ⟨rfl, by decide +kernel⟩
  · decide +kernel

/-- The client sends the PUBLISH again before its PUBREL: the router is sent it twice. -/
theorem exactlyOnce_retransmitted : ∃ h c', History (body openSettings)
      (.tcpLoop (receivedLoop [.Publish orderPublish, .Publish orderPublish, .PubRel { packetId := 7 }])) h c' ∧
    packets h = [.V311 (.Publish orderPublish), .V311 (.Publish orderPublish), .V311 (.PubRel { packetId := 7 })] ∧
    ∃ exchange ∈ exchanges 7 h, (copies 7 exchange).map Prod.fst = [orderPublish, orderPublish] ∧
      (copies 7 exchange).flatMap Prod.snd = [orderPublish.message "c", orderPublish.message "c"] := by
  refine ⟨_, _, history_follow (body openSettings) writableReply 3 _, ?_, ?_⟩
  · decide +kernel
  · decide +kernel

end AtomMqtt
