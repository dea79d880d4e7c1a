import AtomMqtt.ClientReads

set_option autoImplicit false

/-! What the client sends. What `pub` has sent in a run is the beginning of a CONNECT, a PUBLISH and a
DISCONNECT, and it confirms the PUBLISH if a PUBACK came first after it. What `sub` sends begins with its
CONNECT, whatever its other tasks send in between. -/
namespace AtomMqtt.Client
open Programs Framing

def out (e : Σ a : Action, Reply a) : Bytes :=
  match e with
  | ⟨.writeAll data, none⟩ => data
  | ⟨.writeAll data, some n⟩ => data.take n
  | ⟨.tryWrite data, .written n⟩ => data.take n
  | _ => []

def written (tr : Trace Action Reply) : Bytes := tr.flatMap out

def wire (evs : List ClientEvent) : Bytes :=
  evs.flatMap fun e =>
    match e with
    | .act _ a r => out ⟨a, r⟩
    | _ => []

def spawns (tr : Trace Action Reply) : List Task :=
  tr.filterMap fun e =>
    match e.1 with
    | .spawn task => some task
    | _ => none

def confirms (tr : Trace Action Reply) : Bool := tr.any fun e => e.1 == .println .pubAckReceived

theorem written_append (tr tr' : Trace Action Reply) : written (tr ++ tr') = written tr ++ written tr' :=
  List.flatMap_append

theorem spawns_append (tr tr' : Trace Action Reply) : spawns (tr ++ tr') = spawns tr ++ spawns tr' :=
  List.filterMap_append

theorem confirms_append (tr tr' : Trace Action Reply) : confirms (tr ++ tr') = (confirms tr || confirms tr') :=
  List.any_append

theorem wire_append (evs evs' : List ClientEvent) : wire (evs ++ evs') = wire evs ++ wire evs' := List.flatMap_append

section
variable {P : List ClientEvent → ClientState → ClientEvent → ClientState → Prop} {cfg : ClientState}
  {evs : List ClientEvent}

theorem perform_spawned {s s' : Process} {a : Action} {r : Reply a} {input : Input} (h : s.perform a input = some (s', r)) :
    s'.spawned = spawns [⟨a, r⟩] ++ s.spawned := by
  unfold Process.perform at h
  split at h
  · cases h
  · split at h <;> first | (cases h; rfl) | (split at h <;> first | (cases h; rfl) | cases h) | cases h

theorem wire_step {cfg' : ClientState} {e : ClientEvent} (hfresh : ∀ i, i ≠ .main → cfg.thread i = .fresh)
    (step : clientSystem.Step cfg e cfg') : wire [e] = written (System.traceOf .main [e]) := by
  cases step with
  | spawn hi hstart => rfl
  | @act i p a k input s r hi hnext hperform =>
    have hmain : i = .main := by
      by_contra hne
      cases hi.symm.trans (hfresh i hne)
    subst hmain
    rfl
  | @world w _ _ _ => exact w.elim

theorem main_alone (hrun : clientSystem.RunWhere P initial evs cfg) (hspawns : spawns (System.traceOf .main evs) = []) :
    cfg.shared.spawned = [] ∧ (∀ i, i ≠ .main → cfg.thread i = .fresh) ∧ wire evs = written (System.traceOf .main evs) := by
  induction hrun with
  | nil => exact ⟨rfl, fun _ _ => rfl, rfl⟩
  | @snoc evs cfg cfg' e run step ok ih =>
    rw [System.traceOf_append, spawns_append, List.append_eq_nil_iff] at hspawns
    obtain ⟨hbefore, hnow⟩ := hspawns
    obtain ⟨hspawned, hfresh, hwire⟩ := ih hbefore
    rw [wire_append, System.traceOf_append, written_append, hwire, wire_step hfresh step]
    cases step with
    | @spawn i c hi hstart =>
      have hmain : i = .main := by
        cases i with
        | main => rfl
        | _ => cases c <;> simp [clientSystem, Process.start, hspawned] at hstart
      subst hmain
      refine ⟨hspawned, ?_, rfl⟩
      intro i hi
      exact (Function.update_of_ne hi _ _).trans (hfresh i hi)
    | @act i p a k input s r hi hnext hperform =>
      have hmain : i = .main := by
        by_contra hne
        cases hi.symm.trans (hfresh i hne)
      subst hmain
      rw [System.traceOf_act] at hnow ⊢
      refine ⟨?_, ?_, ?_⟩
      · rw [perform_spawned hperform, hnow, hspawned]
        rfl
      · intro i hi
        exact (Function.update_of_ne hi _ _).trans (hfresh i hi)
      · rfl
    | @world w _ _ _ => exact w.elim

end
/-- A turn that is silent but for what it sends. -/
def Sends (left : Bytes) (next failure : Control) (tr : Trace Action Reply) (c : Control) : Prop :=
  spawns tr = [] ∧ received tr = [] ∧ confirms tr = false ∧
    ∃ rest, left = written tr ++ rest ∧ (c = next ∧ rest = [] ∨ c = .sending rest next failure ∨ c = failure)

section
variable {next failure : Control}

theorem sendRest_sends (left : Bytes) : Ensures (Sends left next failure) (sendRest left next failure) := by
  unfold sendRest
  split
  · rename_i hempty
    exact .ret ⟨rfl, rfl, rfl, [], List.isEmpty_iff.mp hempty, .inl ⟨rfl, rfl⟩⟩
  · apply ensures_ask
    intro r
    match r with
    | .written n =>
      refine .ret ⟨rfl, rfl, rfl, left.drop n, ?_, ?_⟩
      · exact (List.take_append_drop n left).symm.trans (congrArg (· ++ _) (List.append_nil _).symm)
      · split
        · rename_i hempty
          exact .inl ⟨rfl, List.isEmpty_iff.mp hempty⟩
        · exact .inr (.inl rfl)
    | .wouldBlock =>
      apply ensures_ask
      intro ok
      cases ok with
      | false => exact .ret ⟨rfl, rfl, rfl, left, rfl, .inr (.inr rfl)⟩
      | true => exact .ret ⟨rfl, rfl, rfl, left, rfl, .inr (.inl rfl)⟩
    | .failed => exact .ret ⟨rfl, rfl, rfl, left, rfl, .inr (.inr rfl)⟩

theorem sendBytesArc_sends (bytes : Bytes) : Ensures (Sends bytes next failure) (sendBytesArc bytes next failure) := by
  unfold sendBytesArc
  apply ensures_ask
  intro ok
  cases ok with
  | false => exact .ret ⟨rfl, rfl, rfl, bytes, rfl, .inr (.inr rfl)⟩
  | true => exact (sendRest_sends bytes).mono fun _ _ h => h

end

def PubArgs.packet (args : PubArgs) (qos : QoS) (packetId : Option UInt16) : V3.MqttPacketV3 :=
  .Publish { topic := args.topic, payload := asBytes args.payload, qos, retain := args.retain, packetId }

def PubArgs.connect (args : PubArgs) : V3.MqttPacketV3 := .Connect (connectPacket args.toArgs)

def PubArgs.stream (args : PubArgs) (qos : QoS) (packetId : Option UInt16) : Bytes :=
  bytesOf args.connect ++ (bytesOf (args.packet qos packetId) ++ bytesOf .Disconnect)

/-- These reads begin with an accepting CONNACK. -/
def Accepted (reads : List Bytes) : Prop :=
  ∃ ack, (items V3.decodePacket reads.flatten).head? = some (.ConnAck ack) ∧ ack.returnCode = .Accepted

/-- These reads begin with a PUBACK. -/
def Acknowledged (reads : List Bytes) : Prop := ∃ ack, (items V3.decodePacket reads.flatten).head? = some (.PubAck ack)

def PubArgs.publishes (args : PubArgs) (packetId : Option UInt16) : Σ a : Action, Reply a :=
  ⟨.writeAll (bytesOf (args.packet .AtLeastOnce packetId)), none⟩

/-- Before the PUBLISH the CONNECT has gone out and an accepting CONNACK has come in first, and what comes in after it
    begins with a PUBACK. -/
structure Confirmed (args : PubArgs) (tr : Trace Action Reply) (packetId : Option UInt16) (before after : Trace Action Reply) :
    Prop where
  qos : parseQos args.qos = some .AtLeastOnce
  id : packetId.isSome = true
  within : written tr <+: args.stream .AtLeastOnce packetId
  split : tr = before ++ args.publishes packetId :: after
  connected : written before = bytesOf args.connect
  accepted : Accepted (received before)
  unshown : confirms before = false
  acknowledged : Acknowledged (received after)

theorem Confirmed.reads {args : PubArgs} {tr before after : Trace Action Reply} {packetId : Option UInt16}
    (h : Confirmed args tr packetId before after) : received tr = received before ++ received after := by
  rw [h.split, received_append]
  rfl

/-- What is shown of a PUBACK is so. -/
def Honest (args : PubArgs) (tr : Trace Action Reply) : Prop :=
  confirms tr = true → ∃ packetId before after, Confirmed args tr packetId before after

def Quiet (tr : Trace Action Reply) : Prop := spawns tr = [] ∧ confirms tr = false

theorem Quiet.append {tr tr' : Trace Action Reply} (h : Quiet tr) (h' : Quiet tr') : Quiet (tr ++ tr') := by
  obtain ⟨hspawns, hconfirms⟩ := h
  obtain ⟨hspawns', hconfirms'⟩ := h'
  constructor
  · rw [spawns_append, hspawns, hspawns']
    rfl
  · rw [confirms_append, hconfirms, hconfirms']
    rfl

/-- In one of the two loops of a task that reads a packet for this. -/
def Control.ReadsFor (buf : Bytes) (stage : Stage) (c : Control) : Prop :=
  c = .reading buf stage ∨ c = .awaiting buf stage ∧ V3.decodePacket buf = .ok none

/-- How far `pub` has come after whole turns. -/
inductive Publishes (args : PubArgs) (tr : Trace Action Reply) : Control → Prop
  | start (hwritten : written tr = []) (hreceived : received tr = []) (hquiet : Quiet tr) : Publishes args tr (.pub args)
  | connack {c : Control} {buf : Bytes} {qos : QoS} (hqos : parseQos args.qos = some qos)
      (hc : Control.ReadsFor buf (.pubConnack args qos) c) (hwritten : written tr = bytesOf args.connect)
      (hreads : Reads V3.decodePacket [] (received tr) [] buf) (hquiet : Quiet tr) : Publishes args tr c
  | ack {c : Control} {buf : Bytes} {packetId : Option UInt16} {before after : Trace Action Reply}
      (hqos : parseQos args.qos = some .AtLeastOnce) (hid : packetId.isSome = true)
      (hc : Control.ReadsFor buf .pubAck c) (hsplit : tr = before ++ args.publishes packetId :: after)
      (hconnected : written before = bytesOf args.connect) (hsilent : written after = [])
      (haccepted : Accepted (received before)) (hreads : Reads V3.decodePacket [] (received after) [] buf)
      (hquiet : Quiet tr) : Publishes args tr c
  | ended {c : Control} (hc : c = .exited ∨ ∃ ok, c = .ending ok)
      (hwritten : ∃ qos packetId, written tr <+: args.stream qos packetId) (hspawns : spawns tr = [])
      (hhonest : Honest args tr) : Publishes args tr c

def Silent (tr : Trace Action Reply) : Prop := written tr = [] ∧ Quiet tr

section
variable {args : PubArgs} {qos : QoS} {buf : Bytes} {stage : Stage} {c c' : Control} {tr tr' : Trace Action Reply}

theorem finish_silent (ok : Bool) : Ensures (fun tr c => Silent tr ∧ received tr = [] ∧ c = .exited) (finish ok) := by
  unfold finish
  apply ensures_run
  intro _
  exact .ret ⟨⟨rfl, rfl, rfl⟩, rfl, rfl⟩

theorem tryReadBuf_silent (hfailed : ∀ buf, readFailed buf stage = finish false) (hdecode : V3.decodePacket buf = .ok none) :
    Ensures (fun tr c => Silent tr ∧ (c = .exited ∨
        ∃ buf', c.ReadsFor buf' stage ∧ Reads V3.decodePacket buf (received tr) [] buf'))
      (tryReadBuf buf stage) := by
  unfold tryReadBuf
  simp only [hfailed]
  have hfinish : ∀ before : Trace Action Reply, Silent before → Ensures (fun tr c => Silent (before ++ tr) ∧ (c = .exited ∨
      ∃ buf', c.ReadsFor buf' stage ∧ Reads V3.decodePacket buf (received (before ++ tr)) [] buf')) (finish false) := by
    rintro before ⟨hwritten, hquiet⟩
    apply (finish_silent false).mono
    rintro tr c ⟨⟨hwritten', hquiet'⟩, -, rfl⟩
    refine ⟨⟨?_, hquiet.append hquiet'⟩, .inl rfl⟩
    rw [written_append, hwritten, hwritten']
    rfl
  apply ensures_ask
  intro ready
  cases ready with
  | false => exact hfinish [⟨.readable, false⟩] ⟨rfl, rfl, rfl⟩
  | true =>
    apply ensures_ask
    intro r
    match r with
    | .failed => exact hfinish [⟨.readable, true⟩, ⟨.tryRead, .failed⟩] ⟨rfl, rfl, rfl⟩
    | .wouldBlock => exact .ret ⟨⟨rfl, rfl, rfl⟩, .inr ⟨buf, .inr ⟨rfl, hdecode⟩, .done buf⟩⟩
    | .bytes bytes =>
      dsimp only
      split
      · exact hfinish [⟨.readable, true⟩, ⟨.tryRead, .bytes bytes⟩] ⟨rfl, rfl, rfl⟩
      · split
        · exact hfinish [⟨.readable, true⟩, ⟨.tryRead, .bytes bytes⟩] ⟨rfl, rfl, rfl⟩
        · exact .ret ⟨⟨rfl, rfl, rfl⟩, .inr ⟨buf ++ bytes, .inl rfl, .chunk hdecode (.done _)⟩⟩

theorem reads_turn (hfailed : ∀ buf, readFailed buf stage = finish false) (hc : c.ReadsFor buf stage)
    (hturn : Exec (body c) tr' c') :
    (∃ packet size, V3.decodePacket buf = .ok (some (packet, size)) ∧
      Exec (handlePacket stage packet (buf.drop size)) tr' c') ∨
    Silent tr' ∧ (c' = .exited ∨ ∃ buf', c'.ReadsFor buf' stage ∧ Reads V3.decodePacket buf (received tr') [] buf') := by
  rcases hc with rfl | ⟨rfl, hdecode⟩
  · change Exec (readPacket buf stage) tr' c' at hturn
    unfold readPacket at hturn
    match hdecode : V3.decodePacket buf with
    | .ok (some (packet, size)) =>
      rw [hdecode] at hturn
      exact .inl ⟨packet, size, rfl, hturn⟩
    | .ok none =>
      rw [hdecode] at hturn
      exact .inr ((tryReadBuf_silent hfailed hdecode).of_exec hturn)
    | .error _ =>
      rw [hdecode] at hturn
      simp only [hfailed] at hturn
      obtain ⟨hsilent, -, rfl⟩ := (finish_silent false).of_exec hturn
      exact .inr ⟨hsilent, .inl rfl⟩
  · exact .inr ((tryReadBuf_silent hfailed hdecode).of_exec hturn)

theorem disconnect_sends : Ensures (fun tr c => written tr <+: bytesOf .Disconnect ∧ Quiet tr ∧
      received tr = [] ∧ c = .exited) disconnect := by
  unfold disconnect
  rw [encoding_eq]
  apply ensures_ask
  intro r
  apply ensures_run
  intro _
  apply (finish_silent true).mono
  rintro tr c ⟨⟨hwritten, hquiet⟩, hreceived, rfl⟩
  refine ⟨?_, hquiet, hreceived, rfl⟩
  cases r with
  | none =>
    change bytesOf .Disconnect ++ written tr <+: _
    rw [hwritten, List.append_nil]
  | some n =>
    change (bytesOf .Disconnect).take n ++ written tr <+: _
    rw [hwritten, List.append_nil]
    exact List.take_prefix n _

theorem publish_sends : Ensures (fun tr c => Quiet tr ∧ ∃ packetId,
      (c = .exited ∧ written tr <+: bytesOf (args.packet qos packetId) ++ bytesOf .Disconnect) ∨
        qos = .AtLeastOnce ∧ packetId.isSome = true ∧ c = .reading [] .pubAck ∧
          ∃ before after, tr = before ++ args.publishes packetId :: after ∧ (written before = [] ∧ received before = []) ∧
            written after = [] ∧ received after = []) (publish args qos) := by
  have hid : Ensures (fun tr (packetId : Option UInt16) => Silent tr ∧ received tr = [] ∧
      packetId.isSome = (qos != .AtMostOnce)) (packetIdFor qos) := by
    cases qos with
    | AtMostOnce => exact .ret ⟨⟨rfl, rfl, rfl⟩, rfl, rfl⟩
    | _ => exact .act fun r => .ret ⟨⟨rfl, rfl, rfl⟩, rfl, rfl⟩
  unfold publish
  apply hid.seq
  rintro tr packetId ⟨⟨hwritten, hquiet⟩, hreceived, hsome⟩
  simp only [encoding_eq]
  apply ensures_ask
  intro r
  cases r with
  | some n =>
    apply (finish_silent false).mono
    rintro tr' c ⟨⟨hwritten', hquiet'⟩, -, rfl⟩
    refine ⟨hquiet.append hquiet', packetId, .inl ⟨rfl, ?_⟩⟩
    rw [written_append, hwritten]
    change (bytesOf (args.packet qos packetId)).take n ++ written tr' <+: _
    rw [hwritten', List.append_nil]
    exact (List.take_prefix n _).trans (List.prefix_append _ _)
  | none =>
    apply ensures_run
    intro _
    by_cases hqos : qos = .AtLeastOnce
    · subst hqos
      exact .ret ⟨hquiet.append ⟨rfl, rfl⟩, packetId, .inr ⟨rfl, hsome, rfl, tr, _, rfl, ⟨hwritten, hreceived⟩, rfl, rfl⟩⟩
    · have hno : (qos == .AtLeastOnce) = false := by cases qos <;> first | rfl | exact absurd rfl hqos
      simp only [hno, Bool.false_eq_true, if_false]
      apply disconnect_sends.mono
      rintro tr' c ⟨hwritten', hquiet', -, rfl⟩
      refine ⟨hquiet.append hquiet', packetId, .inl ⟨rfl, ?_⟩⟩
      rw [written_append, hwritten]
      change bytesOf (args.packet qos packetId) ++ written tr' <+: bytesOf (args.packet qos packetId) ++ _
      exact (List.prefix_append_right_inj _).mpr hwritten'

theorem Quiet.honest (h : Quiet tr) : Honest args tr := by
  intro hconfirms
  cases h.2.symm.trans hconfirms

theorem Honest.append_silent (h : Honest args tr) (hsilent : Silent tr') (hreceived : received tr' = []) :
    Honest args (tr ++ tr') := by
  obtain ⟨hwritten', -, hconfirms'⟩ := hsilent
  have hsame : written (tr ++ tr') = written tr := by rw [written_append, hwritten', List.append_nil]
  intro hconfirms
  rw [confirms_append, hconfirms', Bool.or_false] at hconfirms
  obtain ⟨packetId, before, after, hconfirmed⟩ := h hconfirms
  refine ⟨packetId, before, after ++ tr', { hconfirmed with within := ?_, split := ?_, acknowledged := ?_ }⟩
  · exact hsame ▸ hconfirmed.within
  · rw [hconfirmed.split, List.append_assoc]
    rfl
  · rw [received_append, hreceived, List.append_nil]
    exact hconfirmed.acknowledged

theorem Publishes.unconfirmed (hwritten : ∃ qos packetId, written tr <+: args.stream qos packetId)
    (hquiet : Quiet tr) : Publishes args tr .exited :=
  .ended (.inl rfl) hwritten hquiet.1 hquiet.honest

theorem Publishes.stops (hwritten : ∃ qos packetId, written tr <+: args.stream qos packetId) (hquiet : Quiet tr)
    (hsilent : Silent tr') : Publishes args (tr ++ tr') .exited := by
  obtain ⟨hnone, hquiet'⟩ := hsilent
  refine .unconfirmed ?_ (hquiet.append hquiet')
  rwa [written_append, hnone, List.append_nil]

theorem runPub_publishes (hwritten : written tr = []) (hreceived : received tr = []) (hquiet : Quiet tr)
    (hturn : Exec (runPub args) tr' c') : Publishes args (tr ++ tr') c' := by
  have hnothing : ∀ part : Trace Action Reply, written part <+: bytesOf args.connect → Quiet part →
      Publishes args (tr ++ part) .exited := by
    intro part hpart hquiet'
    refine .unconfirmed ⟨.AtMostOnce, none, ?_⟩ (hquiet.append hquiet')
    rw [written_append, hwritten]
    exact hpart.trans (List.prefix_append _ _)
  unfold runPub at hturn
  cases hqos : parseQos args.qos with
  | none =>
    rw [hqos] at hturn
    obtain ⟨⟨hsilent, hquiet'⟩, -, rfl⟩ := (finish_silent false).of_exec hturn
    exact hnothing _ (hsilent ▸ List.nil_prefix) hquiet'
  | some qos =>
    rw [hqos] at hturn
    obtain ⟨_, tail, rfl, htail⟩ := exec_act_iff.mp hturn
    obtain ⟨ok, tail', rfl, htail'⟩ := exec_act_iff.mp htail
    cases ok with
    | false =>
      obtain ⟨⟨hsilent, hquiet'⟩, -, rfl⟩ := (finish_silent false).of_exec htail'
      exact hnothing _ (show written tail' <+: _ from hsilent ▸ List.nil_prefix) hquiet'
    | true =>
      simp only [Program.bind, if_true, encoding_eq] at htail'
      obtain ⟨r, tail'', rfl, hrest⟩ := exec_act_iff.mp htail'
      cases r with
      | some n =>
        obtain ⟨⟨hsilent, hquiet'⟩, -, rfl⟩ := (finish_silent false).of_exec hrest
        refine hnothing _ ?_ hquiet'
        change (bytesOf args.connect).take n ++ written tail'' <+: _
        rw [hsilent, List.append_nil]
        exact List.take_prefix n _
      | none =>
        obtain ⟨rfl, rfl⟩ := exec_ret_iff.mp hrest
        refine .connack hqos (.inl rfl) ?_ ?_ (hquiet.append ⟨rfl, rfl⟩)
        · rw [written_append, hwritten]
          exact List.append_nil _
        · rw [received_append, hreceived]
          exact .done []

theorem head_of_reads {chunks : List Bytes} {packet : V3.MqttPacketV3} {size : ℕ}
    (hreads : Reads V3.decodePacket [] chunks [] buf) (hdecode : V3.decodePacket buf = .ok (some (packet, size))) :
    (items V3.decodePacket chunks.flatten).head? = some packet := by
  have hitems := cuts_decodePacket.items_of_reads hreads
  rw [List.nil_append, List.nil_append, cuts_decodePacket.items_cons hdecode] at hitems
  rw [hitems]
  rfl

theorem handlePacket_publishes_connack {packet : V3.MqttPacketV3} {size : ℕ} (hqos : parseQos args.qos = some qos)
    (hwritten : written tr = bytesOf args.connect) (hreads : Reads V3.decodePacket [] (received tr) [] buf)
    (hquiet : Quiet tr) (hdecode : V3.decodePacket buf = .ok (some (packet, size)))
    (hturn : Exec (handlePacket (.pubConnack args qos) packet (buf.drop size)) tr' c') :
    Publishes args (tr ++ tr') c' := by
  have hbegun : ∃ qos packetId, written tr <+: args.stream qos packetId :=
    ⟨qos, none, hwritten ▸ List.prefix_append _ _⟩
  have hrefused : Exec (finish false) tr' c' → Publishes args (tr ++ tr') c' := by
    intro hfinish
    obtain ⟨hsilent, -, rfl⟩ := (finish_silent false).of_exec hfinish
    exact .stops hbegun hquiet hsilent
  cases packet with
  | ConnAck ack =>
    change Exec (if ack.returnCode = .Accepted then publish args qos else finish false) tr' c' at hturn
    split at hturn
    · rename_i haccepted
      obtain ⟨hquiet', packetId, ⟨rfl, hsent⟩ | ⟨rfl, hid, rfl, before, after, rfl, hbefore, hafter⟩⟩ :=
        publish_sends.of_exec hturn
      · refine .unconfirmed ⟨qos, packetId, ?_⟩ (hquiet.append hquiet')
        rw [written_append, hwritten]
        exact (List.prefix_append_right_inj _).mpr hsent
      · refine .ack hqos hid (.inl rfl) (List.append_assoc _ _ _).symm ?_ hafter.1 ?_ ?_ (hquiet.append hquiet')
        · rw [written_append, hwritten, hbefore.1, List.append_nil]
        · rw [received_append, hbefore.2, List.append_nil]
          exact ⟨ack, head_of_reads hreads hdecode, haccepted⟩
        · rw [hafter.2]
          exact .done []
    · exact hrefused hturn
  | _ => exact hrefused hturn

theorem written_split {packetId : Option UInt16} {before after : Trace Action Reply}
    (hsplit : tr = before ++ args.publishes packetId :: after) (hconnected : written before = bytesOf args.connect)
    (hsilent : written after = []) : written tr = bytesOf args.connect ++ bytesOf (args.packet .AtLeastOnce packetId) := by
  rw [hsplit, written_append, hconnected]
  change _ ++ (bytesOf (args.packet .AtLeastOnce packetId) ++ written after) = _
  rw [hsilent, List.append_nil]

theorem handlePacket_publishes_ack {packet : V3.MqttPacketV3} {size : ℕ} {packetId : Option UInt16}
    {before after : Trace Action Reply} (hqos : parseQos args.qos = some .AtLeastOnce) (hid : packetId.isSome = true)
    (hsplit : tr = before ++ args.publishes packetId :: after) (hconnected : written before = bytesOf args.connect)
    (hsilent : written after = []) (haccepted : Accepted (received before))
    (hreads : Reads V3.decodePacket [] (received after) [] buf) (hquiet : Quiet tr)
    (hdecode : V3.decodePacket buf = .ok (some (packet, size)))
    (hturn : Exec (handlePacket .pubAck packet (buf.drop size)) tr' c') : Publishes args (tr ++ tr') c' := by
  have hsends : ∀ part : Trace Action Reply, written part <+: bytesOf .Disconnect →
      written (tr ++ part) <+: args.stream .AtLeastOnce packetId := by
    intro part hpart
    rw [written_append, written_split hsplit hconnected hsilent, List.append_assoc]
    exact (List.prefix_append_right_inj _).mpr ((List.prefix_append_right_inj _).mpr hpart)
  have hother : Exec disconnect tr' c' → Publishes args (tr ++ tr') c' := by
    intro h
    obtain ⟨hsent, hquiet', -, rfl⟩ := disconnect_sends.of_exec h
    exact .unconfirmed ⟨_, _, hsends _ hsent⟩ (hquiet.append hquiet')
  cases packet with
  | PubAck ack =>
    obtain ⟨_, tail, rfl, htail⟩ := exec_act_iff.mp hturn
    obtain ⟨hsent, hquiet', hnone, rfl⟩ := disconnect_sends.of_exec htail
    have hspawns : spawns (tr ++ ⟨.println .pubAckReceived, ()⟩ :: tail) = [] := by
      rw [spawns_append, hquiet.1]
      exact hquiet'.1
    refine .ended (.inl rfl) ⟨_, _, hsends _ hsent⟩ hspawns ?_
    intro _
    refine ⟨packetId, before, after ++ ⟨.println .pubAckReceived, ()⟩ :: tail, hqos, hid, hsends _ hsent, ?_, hconnected,
      haccepted, ?_, ack, ?_⟩
    · rw [hsplit, List.append_assoc]
      rfl
    · have hunshown := hquiet.2
      rw [hsplit, confirms_append, Bool.or_eq_false_iff] at hunshown
      exact hunshown.1
    · rw [received_append]
      change (items V3.decodePacket (received after ++ received tail).flatten).head? = _
      rw [hnone, List.append_nil]
      exact head_of_reads hreads hdecode
  | _ => exact hother hturn

theorem Publishes.turn (h : Publishes args tr c) (hturn : Exec (body c) tr' c') : Publishes args (tr ++ tr') c' := by
  cases h with
  | start hwritten hreceived hquiet => exact runPub_publishes hwritten hreceived hquiet hturn
  | @connack _ buf qos hqos hc hwritten hreads hquiet =>
    rcases reads_turn (fun _ => rfl) hc hturn with ⟨packet, size, hdecode, hhandle⟩ | ⟨hsilent, rfl | ⟨buf', hc', hreads'⟩⟩
    · exact handlePacket_publishes_connack hqos hwritten hreads hquiet hdecode hhandle
    · exact .stops ⟨qos, none, hwritten ▸ List.prefix_append _ _⟩ hquiet hsilent
    · refine .connack hqos hc' ?_ ?_ (hquiet.append hsilent.2)
      · rw [written_append, hsilent.1, List.append_nil, hwritten]
      · rw [received_append]
        exact hreads.append hreads'
  | @ack _ buf packetId before after hqos hid hc hsplit hconnected hsent haccepted hreads hquiet =>
    have hwritten := written_split hsplit hconnected hsent
    rcases reads_turn (fun _ => rfl) hc hturn with ⟨packet, size, hdecode, hhandle⟩ | ⟨hsilent, rfl | ⟨buf', hc', hreads'⟩⟩
    · exact handlePacket_publishes_ack hqos hid hsplit hconnected hsent haccepted hreads hquiet hdecode hhandle
    · refine .stops ⟨.AtLeastOnce, packetId, ?_⟩ hquiet hsilent
      rw [hwritten, PubArgs.stream, ← List.append_assoc]
      exact List.prefix_append _ _
    · have hafter : tr ++ tr' = before ++ args.publishes packetId :: (after ++ tr') := by
        rw [hsplit, List.append_assoc]
        rfl
      refine .ack hqos hid hc' hafter hconnected ?_ haccepted ?_ (hquiet.append hsilent.2)
      · rw [written_append, hsent, hsilent.1]
        rfl
      · rw [received_append]
        exact hreads.append hreads'
  | ended hc hwritten hspawns hhonest =>
    rcases hc with rfl | ⟨ok, rfl⟩
    · obtain ⟨rfl, rfl⟩ := exec_ret_iff.mp hturn
      rw [List.append_nil]
      exact .ended (.inl rfl) hwritten hspawns hhonest
    · obtain ⟨hsilent, hreceived, rfl⟩ := (finish_silent ok).of_exec hturn
      refine .ended (.inl rfl) ?_ ?_ (hhonest.append_silent hsilent hreceived)
      · rwa [written_append, hsilent.1, List.append_nil]
      · rw [spawns_append, hspawns, hsilent.2.1, List.append_nil]

theorem publishes_of_history {h : List (Control × Trace Action Reply)} (hhistory : History body c h c') :
    ∀ {tr}, Publishes args tr c → Publishes args (tr ++ h.flatMap Prod.snd) c' := by
  induction hhistory with
  | done c =>
    intro tr hpublishes
    rwa [List.flatMap_nil, List.append_nil]
  | turn hturn _ ih =>
    intro tr hpublishes
    rw [List.flatMap_cons, ← List.append_assoc]
    exact ih (hpublishes.turn hturn)

theorem Publishes.holds (h : Publishes args tr c) : (∃ qos packetId, written tr <+: args.stream qos packetId) ∧
    spawns tr = [] ∧ Honest args tr := by
  cases h with
  | start hwritten _ hquiet => exact ⟨⟨.AtMostOnce, none, hwritten ▸ List.nil_prefix⟩, hquiet.1, hquiet.honest⟩
  | connack _ _ hwritten _ hquiet =>
    exact ⟨⟨.AtMostOnce, none, hwritten ▸ List.prefix_append _ _⟩, hquiet.1, hquiet.honest⟩
  | @ack _ _ packetId _ _ _ _ _ hsplit hconnected hsent _ _ hquiet =>
    refine ⟨⟨.AtLeastOnce, packetId, ?_⟩, hquiet.1, hquiet.honest⟩
    rw [written_split hsplit hconnected hsent, PubArgs.stream, ← List.append_assoc]
    exact List.prefix_append _ _
  | ended _ hwritten hspawns hhonest => exact ⟨hwritten, hspawns, hhonest⟩

end

theorem earlier_split {α : Type} {xs ys before after : List α} {x : α} (hlast : x ∉ ys)
    (h : xs ++ ys = before ++ x :: after) : ∃ after', xs = before ++ x :: after' ∧ after = after' ++ ys := by
  obtain ⟨more, rfl, hys⟩ | ⟨more, rfl, hmore⟩ := List.append_eq_append_iff.mp h
  · exact absurd (hys ▸ List.mem_append_right _ List.mem_cons_self) hlast
  · cases more with
    | nil =>
      obtain rfl : x :: after = ys := hmore
      exact absurd List.mem_cons_self hlast
    | cons y more =>
      obtain ⟨rfl, hafter⟩ := List.cons.inj hmore
      exact ⟨more, rfl, hafter⟩

theorem publishes_goesOut {args : PubArgs} {packetId : Option UInt16} {tr : Trace Action Reply}
    (h : ∀ e ∈ tr, e.2 = hangUp e.1) : args.publishes packetId ∉ tr := by
  intro hmem
  have hreply := h _ hmem
  cases hreply

theorem hangUp_unsent {tr : Trace Action Reply} (h : ∀ e ∈ tr, e.2 = hangUp e.1) : written tr = [] := by
  apply List.flatMap_eq_nil_iff.mpr
  rintro ⟨a, r⟩ he
  obtain rfl : r = hangUp a := h _ he
  cases a <;> rfl

def SubArgs.connect (args : SubArgs) : V3.MqttPacketV3 := .Connect (connectPacket args.toArgs)

/-- How far the CONNECT of `sub` has gone out after whole turns. -/
inductive Connects (args : SubArgs) (tr : Trace Action Reply) : Control → Prop
  | start (hwritten : written tr = []) (hspawns : spawns tr = []) : Connects args tr (.sub args)
  | connecting {left : Bytes} {qos : QoS} (hwritten : bytesOf args.connect = written tr ++ left) (hspawns : spawns tr = []) :
      Connects args tr (.sending left (.reading [] (.subConnack args qos)) (.ending false))
  | sent {c : Control} (hwritten : bytesOf args.connect <+: written tr) : Connects args tr c
  | ended {c : Control} (hc : c = .exited ∨ ∃ ok, c = .ending ok) (hwritten : written tr <+: bytesOf args.connect)
      (hspawns : spawns tr = []) : Connects args tr c

section
variable {args : SubArgs} {c c' : Control} {tr tr' : Trace Action Reply}

theorem connects_of_sends {left : Bytes} {qos : QoS} (hwritten : bytesOf args.connect = written tr ++ left)
    (hspawns : spawns tr = []) (hsends : Sends left (.reading [] (.subConnack args qos)) (.ending false) tr' c') :
    Connects args (tr ++ tr') c' := by
  obtain ⟨hspawns', -, -, rest, rfl, hc⟩ := hsends
  have hnone : spawns (tr ++ tr') = [] := by rw [spawns_append, hspawns, hspawns', List.append_nil]
  have hsent : bytesOf args.connect = written (tr ++ tr') ++ rest := by rw [written_append, List.append_assoc, hwritten]
  rcases hc with ⟨rfl, rfl⟩ | rfl | rfl
  · apply Connects.sent
    rw [hsent, List.append_nil]
  · exact .connecting hsent hnone
  · exact .ended (.inr ⟨false, rfl⟩) (hsent ▸ List.prefix_append _ _) hnone

theorem Connects.ended_of (hwritten : written tr <+: bytesOf args.connect) (hspawns : spawns tr = []) {ok : Bool}
    (hturn : Exec (finish ok) tr' c') : Connects args (tr ++ tr') c' := by
  obtain ⟨⟨hsilent, hspawns', -⟩, -, rfl⟩ := (finish_silent ok).of_exec hturn
  refine .ended (.inl rfl) ?_ ?_
  · rwa [written_append, hsilent, List.append_nil]
  · rw [spawns_append, hspawns, hspawns', List.append_nil]

theorem Connects.turn (h : Connects args tr c) (hturn : Exec (body c) tr' c') : Connects args (tr ++ tr') c' := by
  cases h with
  | start hwritten hspawns =>
    have hnone : written tr <+: bytesOf args.connect := hwritten ▸ List.nil_prefix
    change Exec (runSub args) tr' c' at hturn
    unfold runSub at hturn
    cases hqos : parseQos args.qos with
    | none =>
      rw [hqos] at hturn
      exact .ended_of hnone hspawns hturn
    | some qos =>
      rw [hqos] at hturn
      obtain ⟨ok, tail, rfl, htail⟩ := exec_act_iff.mp hturn
      rw [← List.singleton_append, ← List.append_assoc]
      have hspawns' : spawns (tr ++ [⟨.connect, ok⟩]) = [] := by
        rw [spawns_append, hspawns]
        rfl
      have hnone' : written (tr ++ [⟨.connect, ok⟩]) = [] := by
        rw [written_append, hwritten]
        rfl
      cases ok with
      | false => exact .ended_of (hnone' ▸ List.nil_prefix) hspawns' htail
      | true =>
        simp only [Program.bind, if_true, encoding_eq] at htail
        refine connects_of_sends ?_ hspawns' ((sendBytesArc_sends _).of_exec htail)
        rw [hnone']
        rfl
  | connecting hwritten hspawns => exact connects_of_sends hwritten hspawns ((sendRest_sends _).of_exec hturn)
  | sent hwritten =>
    apply Connects.sent
    rw [written_append]
    exact hwritten.trans (List.prefix_append _ _)
  | ended hc hwritten hspawns =>
    rcases hc with rfl | ⟨ok, rfl⟩
    · obtain ⟨rfl, rfl⟩ := exec_ret_iff.mp hturn
      rw [List.append_nil]
      exact .ended (.inl rfl) hwritten hspawns
    · exact .ended_of hwritten hspawns hturn

theorem connects_of_history {h : List (Control × Trace Action Reply)} (hhistory : History body c h c') :
    ∀ {tr}, Connects args tr c → Connects args (tr ++ h.flatMap Prod.snd) c' := by
  induction hhistory with
  | done c =>
    intro tr hconnects
    rwa [List.flatMap_nil, List.append_nil]
  | turn hturn _ ih =>
    intro tr hconnects
    rw [List.flatMap_cons, ← List.append_assoc]
    exact ih (hconnects.turn hturn)

theorem Connects.holds (h : Connects args tr c) :
    (written tr <+: bytesOf args.connect ∧ spawns tr = []) ∨ bytesOf args.connect <+: written tr := by
  cases h with
  | start hwritten hspawns => exact .inl ⟨hwritten ▸ List.nil_prefix, hspawns⟩
  | connecting hwritten hspawns => exact .inl ⟨hwritten ▸ List.prefix_append _ _, hspawns⟩
  | sent hwritten => exact .inr hwritten
  | ended _ hwritten hspawns => exact .inl ⟨hwritten, hspawns⟩

end

section
variable {P : List ClientEvent → ClientState → ClientEvent → ClientState → Prop} {cfg : ClientState}
  {evs : List ClientEvent}

theorem publishes_course {args : PubArgs} (hrun : clientSystem.RunWhere P initial evs cfg)
    (hspawn : .spawn .main (.pub args) ∈ evs) : ∃ rest c, (∀ e ∈ rest, e.2 = hangUp e.1) ∧
      Publishes args (System.traceOf .main evs ++ rest) c := by
  obtain ⟨h, c, part, q, hhistory, htrace, hpartway, -⟩ := System.course_of_run rfl hrun hspawn
  obtain ⟨rest, c', hexec, hrest⟩ := hpartway.completed hangUp
  have hstart : Publishes args [] (.pub args) := .start rfl rfl ⟨rfl, rfl⟩
  have hend := (publishes_of_history hhistory hstart).turn hexec
  rw [List.nil_append, ← List.append_assoc, ← htrace] at hend
  exact ⟨rest, c', hrest, hend⟩

theorem pub_wire {args : PubArgs} (hrun : clientSystem.RunWhere P initial evs cfg)
    (hspawn : .spawn .main (.pub args) ∈ evs) :
    (∃ qos packetId, wire evs <+: args.stream qos packetId) ∧ wire evs = written (System.traceOf .main evs) := by
  obtain ⟨rest, c, hrest, hend⟩ := publishes_course hrun hspawn
  obtain ⟨⟨qos, packetId, hwithin⟩, hspawns, -⟩ := hend.holds
  rw [spawns_append, List.append_eq_nil_iff] at hspawns
  obtain ⟨-, -, hwire⟩ := main_alone hrun hspawns.1
  rw [written_append, hangUp_unsent hrest, List.append_nil, ← hwire] at hwithin
  exact ⟨⟨qos, packetId, hwithin⟩, hwire⟩

theorem pub_honest {args : PubArgs} (hrun : clientSystem.RunWhere P initial evs cfg)
    (hspawn : .spawn .main (.pub args) ∈ evs) : Honest args (System.traceOf .main evs) := by
  obtain ⟨rest, c, hrest, hend⟩ := publishes_course hrun hspawn
  have hsame : written (System.traceOf .main evs ++ rest) = written (System.traceOf .main evs) := by
    rw [written_append, hangUp_unsent hrest, List.append_nil]
  intro hconfirms
  have hshown : confirms (System.traceOf .main evs ++ rest) = true := by
    rw [confirms_append, hconfirms]
    rfl
  obtain ⟨packetId, before, after, hconfirmed⟩ := hend.holds.2.2 hshown
  obtain ⟨after', htrace, rfl⟩ := earlier_split (publishes_goesOut hrest) hconfirmed.split
  refine ⟨packetId, before, after', { hconfirmed with within := ?_, split := htrace, acknowledged := ?_ }⟩
  · exact hsame ▸ hconfirmed.within
  · have hacknowledged := hconfirmed.acknowledged
    rwa [received_append, hangUp_silent hrest, List.append_nil] at hacknowledged

/-- What `pub` has sent is a part of its stream, however its reads end; and it shows a PUBACK only if it has sent the
    PUBLISH with QoS 1, with an accepting CONNACK before and the PUBACK after it. -/
theorem publishes_of_run {args : PubArgs} (hrun : clientSystem.RunWhere P initial evs cfg)
    (hspawn : .spawn .main (.pub args) ∈ evs) : (∃ qos packetId, wire evs <+: args.stream qos packetId) ∧
      wire evs = written (System.traceOf .main evs) ∧ Honest args (System.traceOf .main evs) :=
  ⟨(pub_wire hrun hspawn).1, (pub_wire hrun hspawn).2, pub_honest hrun hspawn⟩

end

def publisherArgs : PubArgs :=
  { clientId := "c", username := none, password := none, topic := "t", payload := "x", qos := 1, retain := false }

def publisherMoves : List ClientMove :=
  mainMoves (.pub publisherArgs)
    [.go, .ready true, .wrote none, .ready true, .read (.bytes [0x20, 2, 0, 0]), .go, .wrote none, .go, .ready true,
      .read (.bytes [0x40, 2, 0, 1]), .go, .wrote none, .go, .go]

theorem publishes_of_run_publisher : ∃ evs cfg, clientSystem.Run initial evs cfg ∧
    .spawn .main (.pub publisherArgs) ∈ evs ∧ wire evs = publisherArgs.stream .AtLeastOnce (some 1) ∧
    ∃ packetId before after, Confirmed publisherArgs (System.traceOf .main evs) packetId before after := by
  have hplays : (execute publisherMoves).any (fun r => r.1.any (startsMain (.pub publisherArgs)) &&
      wire r.1 == publisherArgs.stream .AtLeastOnce (some 1) && confirms (System.traceOf .main r.1)) = true := by
    decide +kernel
  obtain ⟨⟨evs, cfg⟩, hexec, hplays⟩ := (Option.any_eq_true _ _).mp hplays
  simp only [Bool.and_eq_true, beq_iff_eq] at hplays
  obtain ⟨⟨hspawn, hwire⟩, hconfirms⟩ := hplays
  have hrun := execute_run hexec
  have hspawn := mem_of_startsMain hspawn
  exact ⟨evs, cfg, hrun, hspawn, hwire, (publishes_of_run hrun hspawn).2.2 hconfirms⟩

section
variable {P : List ClientEvent → ClientState → ClientEvent → ClientState → Prop} {cfg : ClientState}
  {evs : List ClientEvent}

theorem connects_of_run {args : SubArgs} (hrun : clientSystem.RunWhere P initial evs cfg)
    (honly : ∀ c, .spawn .main c ∈ evs → c = .sub args) :
    (written (System.traceOf .main evs) <+: bytesOf args.connect ∧ spawns (System.traceOf .main evs) = []) ∨
      bytesOf args.connect <+: written (System.traceOf .main evs) := by
  cases System.kept_of_run rfl hrun with
  | inl hfresh =>
    rw [hfresh.2.1]
    exact .inl ⟨List.nil_prefix, rfl⟩
  | inr hkept =>
    obtain ⟨c, -, hspawn, -, h, c', part, q, hhistory, htrace, hpartway, -⟩ := hkept
    obtain rfl := honly c hspawn
    obtain ⟨rest, c'', hexec, hrest⟩ := hpartway.completed hangUp
    have hstart : Connects args [] (.sub args) := .start rfl rfl
    have hholds := ((connects_of_history hhistory hstart).turn hexec).holds
    rw [List.nil_append, ← List.append_assoc, ← htrace, written_append, hangUp_unsent hrest, List.append_nil, spawns_append,
      List.append_eq_nil_iff] at hholds
    exact hholds.imp_left fun ⟨hwithin, hspawns, _⟩ => ⟨hwithin, hspawns⟩

theorem sub_wire {args : SubArgs} (hrun : clientSystem.RunWhere P initial evs cfg)
    (honly : ∀ c, .spawn .main c ∈ evs → c = .sub args) :
    wire evs <+: bytesOf args.connect ∨ bytesOf args.connect <+: wire evs := by
  suffices h : (spawns (System.traceOf .main evs) = [] ∧ wire evs <+: bytesOf args.connect) ∨
      bytesOf args.connect <+: wire evs from h.imp_left And.right
  induction hrun with
  | nil => exact .inl ⟨rfl, List.nil_prefix⟩
  | @snoc evs cfg cfg' e run step ok ih =>
    have hall := connects_of_run (run.snoc step ok) honly
    have hearlier : ∀ c, .spawn .main c ∈ evs → c = .sub args := fun c hc => honly c (List.mem_append_left _ hc)
    cases ih hearlier with
    | inr hsent =>
      rw [wire_append]
      exact .inr (hsent.trans (List.prefix_append _ _))
    | inl halone =>
      obtain ⟨-, hfresh, hwire⟩ := main_alone run halone.1
      have hsame : wire (evs ++ [e]) = written (System.traceOf .main (evs ++ [e])) := by
        rw [wire_append, System.traceOf_append, written_append, hwire, wire_step hfresh step]
      rw [hsame]
      exact hall.imp_left fun ⟨hwithin, hspawns⟩ => ⟨hspawns, hwithin⟩

end

end AtomMqtt.Client
