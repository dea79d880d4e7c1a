import AtomMqtt.Scripts

set_option autoImplicit false

/-! Connections in the runs of the broker. In every run a connection has done the first part of what its input
asks for, and all of it whenever it waits. So other tasks, and where the reads end, decide only how far it gets;
and what it does is for its own client and for a user that the authenticator lets in. -/
namespace AtomMqtt
open Programs Framing

def Action.early : Action → Bool
  | .read | .wsNext | .generateClientId => true
  | _ => false

def Action.outer : Action → Bool
  | .read | .wsNext | .generateClientId | .selectTcp | .selectWs | .recvForwarded | .write .connack _
  | .write .forwarded _ => true
  | _ => false

section
variable {settings : Settings} {l : ConnLoop} {clientId username : String}

theorem late_of_inner {a : Action} (h : a.outer = false) : a.early = false := by
  cases a <;> first | rfl | cases h

theorem inner_of_local {a : Action} (h : LocalAction clientId a) : a.outer = false := by
  cases a <;> first | rfl | exact h.elim

theorem processPacket_inner (packet : MqttPacket) :
    Only (fun a => a.outer = false) (processPacket settings packet clientId username) := by
  cases hpublish : packet.publish with
  | none => exact (processPacket_only hpublish).mono fun _ => inner_of_local
  | some p =>
    refine publish_only hpublish (fun _ => rfl) ?_
    intro _
    unfold acceptPublish
    refine only_run rfl ?_
    cases p.retain with
    | false => exact .ret _
    | true => cases p.payload.isEmpty <;> exact only_run rfl (only_run_last rfl)

theorem handlePacket_inner {packet : MqttPacket} {size : ℕ} {again : ConnLoop → Control} :
    Only (fun a => a.outer = false) (handlePacket settings l packet size again) := by
  unfold handlePacket
  refine only_run rfl ?_
  refine Only.bind (processPacket_inner packet) ?_
  intro result
  match result with
  | .error _ => exact .ret _
  | .ok none => exact .ret _
  | .ok (some response) =>
    refine (writePacket_only (fun _ => rfl) (fun _ => rfl) response).bind fun sent => ?_
    cases sent <;> exact .ret _

theorem cleanup_inner : Only (fun a => a.outer = false) (cleanup l) :=
  only_run rfl (only_run rfl (only_run rfl (only_run rfl (.ret _))))

theorem handlePacket_late {packet : MqttPacket} {size : ℕ} {again : ConnLoop → Control} :
    Only (fun a => a.early = false) (handlePacket settings l packet size again) :=
  handlePacket_inner.mono fun _ => late_of_inner

theorem cleanup_late : Only (fun a => a.early = false) (cleanup l) := cleanup_inner.mono fun _ => late_of_inner

theorem tcpLoop_late : Only (fun a => a.early = false) (tcpLoop settings l) := by
  unfold tcpLoop
  match decodePacketByVersion l.buf l.version with
  | .ok (some (packet, size)) => exact handlePacket_late
  | .error _ => exact cleanup_late
  | .ok none =>
    refine only_ask rfl ?_
    intro event
    match event with
    | .received (.data _) => exact .ret _
    | .received .closed => exact cleanup_late
    | .received .failed => exact .ret _
    | .forwarded data =>
      refine only_ask rfl ?_
      intro sent
      cases sent with
      | false => exact cleanup_late
      | true => exact only_run rfl (only_run rfl (.ret _))

theorem forwardWs_late {data : Bytes} : Only (fun a => a.early = false) (forwardWs l data) := by
  refine only_ask rfl ?_
  intro sent
  cases sent with
  | false => exact cleanup_late
  | true => exact only_run rfl (.ret _)

theorem wsLoop_late : Only (fun a => a.early = false) (wsLoop settings l) := by
  unfold wsLoop
  match decodePacketByVersion l.buf l.version with
  | .ok (some (packet, size)) => exact handlePacket_late
  | .error _ => exact cleanup_late
  | .ok none =>
    refine only_ask rfl ?_
    intro event
    match event with
    | .frame (.binary _) => exact .ret _
    | .frame .close => exact cleanup_late
    | .frame (.ping _) => exact only_run rfl (.ret _)
    | .frame .pong => exact .ret _
    | .frame .other => exact .ret _
    | .forwarded data => exact forwardWs_late
    | .lost => exact .ret _

theorem wsLost_late : Only (fun a => a.early = false) (wsLost l) := by
  refine only_ask rfl ?_
  intro forwarded
  cases forwarded with
  | none => exact cleanup_late
  | some data => exact forwardWs_late

theorem taken_of_late {tr : Trace Action Reply} (h : ∀ e ∈ tr, e.1.early = false) : taken tr = [] := by
  apply taken_of_none
  intro e he
  have ha := h e he
  obtain ⟨a, r⟩ := e
  cases a <;> first | rfl | cases ha

theorem generated_of_late {tr : Trace Action Reply} (h : ∀ e ∈ tr, e.1.early = false) : generated tr = [] := by
  apply List.filterMap_eq_nil_iff.mpr
  rintro ⟨a, r⟩ he
  have ha := h _ he
  cases a <;> first | rfl | cases ha

theorem loop_late {c c' : Control} {tr : Trace Action Reply} (hl : c.connLoop = some l) (h : Exec (body settings c) tr c') :
    taken tr = [] ∧ generated tr = [] := by
  have hlate : ∀ e ∈ tr, e.1.early = false := by
    cases c with
    | tcpLoop l' => exact tcpLoop_late.ensures.of_exec h
    | wsLoop l' => exact wsLoop_late.ensures.of_exec h
    | wsLost l' => exact wsLost_late.ensures.of_exec h
    | _ => cases hl
  exact ⟨taken_of_late hlate, generated_of_late hlate⟩

end

theorem drops_silent {tr : Trace Action Reply} (h : Drops tr) : deeds tr = [] ∧ arrived tr = [] := by
  constructor
  · apply List.filterMap_eq_nil_iff.mpr
    rintro ⟨a, r⟩ he
    obtain rfl : a = .dropReceiver := h _ he
    rfl
  · apply List.filterMap_eq_nil_iff.mpr
    rintro ⟨a, r⟩ he
    obtain rfl : a = .dropReceiver := h _ he
    rfl

/-- How a connection that began with `start` stands after whole turns. -/
inductive Performs (settings : Settings) (start : Control) (tr : Trace Action Reply) : Control → Prop
  | gathering {c : Control} (hstart : c = .tcp ∨ ∃ buf, c = .ws buf) (hnew : arrived tr = [] ∧ generated tr = [] ∧ deeds tr = [])
      (hdue : ∀ name later, start.opening settings name (taken tr ++ later) = c.opening settings name later) :
      Performs settings start tr c
  | looping {c : Control} {l : ConnLoop} (hl : c.StandsIn l)
      (hdue : ∀ later, start.opening settings (named tr) (heard tr ++ later) =
        deeds tr ++ l.script settings (l.buf ++ later.flatten)) : Performs settings start tr c
  | ended {ok : Bool} (hdue : ∀ later, deeds tr <+: start.opening settings (named tr) (heard tr ++ later)) :
      Performs settings start tr (.exited ok)

section
variable {settings : Settings} {start c c' : Control} {tr tr' : Trace Action Reply} {h : List (Control × Trace Action Reply)}

theorem performs_of_opens (hnew : arrived tr = [] ∧ generated tr = [] ∧ deeds tr = [])
    (hdue : ∀ name later, start.opening settings name (taken tr ++ later) = c.opening settings name later)
    (harrived : arrived tr' = [])
    (hopens : Opens settings (fun later => c.opening settings (named tr') (taken tr' ++ later)) tr' c') :
    Performs settings start (tr ++ tr') c' := by
  obtain ⟨hbefore, hnone, hdeeds⟩ := hnew
  have hnamed : named (tr ++ tr') = named tr' := by rw [named, named, generated_append, hnone, List.nil_append]
  have hheard : heard (tr ++ tr') = taken tr ++ taken tr' := by
    rw [heard, taken_append, arrived_append, hbefore, harrived, List.append_nil, List.append_nil]
  have hdone : deeds (tr ++ tr') = deeds tr' := by rw [deeds_append, hdeeds, List.nil_append]
  cases hopens with
  | inl hopens =>
    obtain ⟨l, hl, hloop⟩ := hopens
    refine .looping hl ?_
    intro later
    rw [hnamed, hheard, hdone, List.append_assoc, hdue]
    exact hloop later
  | inr hopens =>
    obtain ⟨⟨ok, rfl⟩, hwithin⟩ := hopens
    refine .ended ?_
    intro later
    rw [hnamed, hheard, hdone, List.append_assoc, hdue]
    exact hwithin later

theorem Performs.turn (h : Performs settings start tr c) (hturn : Exec (body settings c) tr' c') :
    Performs settings start (tr ++ tr') c' := by
  cases h with
  | gathering hstart hnew hdue =>
    rcases hstart with rfl | ⟨buf, rfl⟩
    · obtain ⟨harrived, hopens⟩ := tcp_opens hturn
      exact performs_of_opens hnew hdue harrived hopens
    · obtain ⟨harrived, hgathers | hopens⟩ := ws_opens hturn
      · obtain ⟨buf', rfl, hgenerated, hdeeds, hscript⟩ := hgathers
        refine .gathering (.inr ⟨buf', rfl⟩) ⟨?_, ?_, ?_⟩ ?_
        · rw [arrived_append, hnew.1, harrived, List.append_nil]
        · rw [generated_append, hnew.2.1, hgenerated, List.append_nil]
        · rw [deeds_append, hnew.2.2, hdeeds, List.append_nil]
        · intro name later
          rw [taken_append, List.append_assoc, hdue]
          exact hscript name later
      · exact performs_of_opens hnew hdue harrived hopens
  | @looping _ l hl hdue =>
    obtain ⟨htaken, hgenerated⟩ := loop_late hl.connLoop hturn
    have hheard : heard (tr ++ tr') = heard tr ++ arrived tr' := by
      rw [heard, heard, taken_append, arrived_append, htaken, List.append_nil, List.append_assoc]
    cases turn_script hl.connLoop hturn with
    | inl hgoes =>
      obtain ⟨l', hl', hscript⟩ := hgoes
      refine .looping hl' ?_
      intro later
      rw [named_append_none hgenerated, hheard, List.append_assoc, hdue, hscript, deeds_append, List.append_assoc]
    | inr hexits =>
      obtain ⟨⟨ok, rfl⟩, hwithin⟩ := hexits
      refine .ended ?_
      intro later
      rw [named_append_none hgenerated, hheard, List.append_assoc, hdue, deeds_append]
      exact (List.prefix_append_right_inj (deeds tr)).mpr (hwithin _)
  | ended hdue =>
    obtain ⟨hdrops, rfl⟩ := exited_turn hturn
    have hlate : ∀ e ∈ tr', e.1.early = false := fun e he => by rw [hdrops e he]; rfl
    have hquiet : deeds tr' = [] ∧ arrived tr' = [] := drops_silent hdrops
    refine .ended ?_
    intro later
    rw [named_append_none (generated_of_late hlate), heard, taken_append, arrived_append, deeds_append, hquiet.1, hquiet.2,
      taken_of_late hlate, List.append_nil, List.append_nil, List.append_nil]
    exact hdue later

theorem Performs.turns (hhistory : History (body settings) c h c') :
    ∀ {tr}, Performs settings start tr c → Performs settings start (tr ++ h.flatMap Prod.snd) c' := by
  induction hhistory with
  | done c =>
    intro tr hperforms
    rwa [List.flatMap_nil, List.append_nil]
  | turn hturn _ ih =>
    intro tr hperforms
    rw [List.flatMap_cons, ← List.append_assoc]
    exact ih (hperforms.turn hturn)

theorem performs_of_history (hstart : start = .tcp ∨ ∃ buf, start = .ws buf) (hhistory : History (body settings) start h c') :
    Performs settings start (h.flatMap Prod.snd) c' := by
  have hnew : Performs settings start [] start := .gathering hstart ⟨rfl, rfl, rfl⟩ fun _ _ => rfl
  exact Performs.turns hhistory hnew

theorem Performs.within (h : Performs settings start tr c) :
    deeds tr <+: start.opening settings (named tr) (heard tr) := by
  cases h with
  | gathering _ hnew _ =>
    rw [hnew.2.2]
    exact List.nil_prefix
  | looping _ hdue =>
    have hnow := hdue []
    rw [List.append_nil] at hnow
    rw [hnow]
    exact List.prefix_append _ _
  | ended hdue =>
    have hnow := hdue []
    rwa [List.append_nil] at hnow

end

def hangUp : ∀ a, Reply a
  | .read => .failed
  | .wsNext => .ended
  | .selectTcp => .received .failed
  | .selectWs => .lost
  | .generateClientId => ""
  | _ => default

theorem hangUp_silent {tr : Trace Action Reply} (h : ∀ e ∈ tr, e.2 = hangUp e.1) :
    taken tr = [] ∧ arrived tr = [] ∧ ∀ id ∈ generated tr, id = "" := by
  refine ⟨?_, ?_, ?_⟩
  · apply List.filterMap_eq_nil_iff.mpr
    rintro ⟨a, r⟩ he
    obtain rfl : r = hangUp a := h _ he
    cases a <;> rfl
  · apply List.filterMap_eq_nil_iff.mpr
    rintro ⟨a, r⟩ he
    obtain rfl : r = hangUp a := h _ he
    cases a <;> rfl
  · intro id hid
    obtain ⟨⟨a, r⟩, he, hid⟩ := List.mem_filterMap.mp hid
    obtain rfl : r = hangUp a := h _ he
    cases a <;> first | cases hid; rfl | cases hid

/-- The task is between two turns and has nothing in its buffer that it could handle. -/
def Control.Waits : Control → Prop
  | .tcp => True
  | .ws _ => True
  | .tcpLoop l => decodePacketByVersion l.buf l.version = .ok none
  | .wsLoop l => decodePacketByVersion l.buf l.version = .ok none
  | .wsLost _ => True
  | _ => False

instance : (c : Control) → Decidable c.Waits
  | .tcp => .isTrue trivial
  | .ws _ => .isTrue trivial
  | .tcpLoop l => inferInstanceAs (Decidable (decodePacketByVersion l.buf l.version = .ok none))
  | .wsLoop l => inferInstanceAs (Decidable (decodePacketByVersion l.buf l.version = .ok none))
  | .wsLost _ => .isTrue trivial
  | .router => .isFalse id
  | .webSession _ _ => .isFalse id
  | .publishRequest _ _ _ _ => .isFalse id
  | .deleteRetainedRequest _ => .isFalse id
  | .disconnectRequest _ => .isFalse id
  | .exited _ => .isFalse id

theorem waits_of_standsIn {c : Control} {l : ConnLoop} (hl : c.StandsIn l) (h : c.Waits) :
    decodePacketByVersion l.buf l.version = .ok none := by
  cases hl with
  | tcpLoop l => exact h
  | wsLoop l => exact h
  | wsLost hwaits => exact hwaits

theorem Performs.all {settings : Settings} {start c : Control} {tr : Trace Action Reply}
    (h : Performs settings start tr c) (hwaits : c.Waits) : deeds tr = start.opening settings (named tr) (heard tr) := by
  cases h with
  | gathering hstart hnew hdue =>
    obtain ⟨harrived, -, hdeeds⟩ := hnew
    have hnow := hdue (named tr) []
    rw [List.append_nil] at hnow
    rw [heard, harrived, List.append_nil, hnow, hdeeds]
    rcases hstart with rfl | ⟨buf, rfl⟩ <;> rfl
  | looping hl hdue =>
    have hnow := hdue []
    rw [List.append_nil, List.flatten_nil, List.append_nil, script_of_waits (waits_of_standsIn hl hwaits), List.append_nil]
      at hnow
    exact hnow.symm
  | ended _ => exact hwaits.elim

/-- What connection `k` has done for others in a run. -/
def done (evs : List BrokerEvent) (k : ConnId) : List Action := deeds (System.traceOf (.connection k) evs)

/-- What the input of connection `k` asks for, if it was served from `start` on: over TCP its first read, the bytes
    after that one, and the id that it has been given. -/
def due (settings : Settings) (start : Control) (evs : List BrokerEvent) (k : ConnId) : List Action :=
  start.opening settings (named (System.traceOf (.connection k) evs)) (heard (System.traceOf (.connection k) evs))

section
variable {settings : Settings} {P : List BrokerEvent → BrokerConfigState → BrokerEvent → BrokerConfigState → Prop}
  {cfg₀ cfg : BrokerConfigState} {evs : List BrokerEvent} {k : ConnId} {start c : Control}

theorem course_of_connection (hinit : cfg₀.thread (.connection k) = .fresh)
    (hrun : (brokerSystem settings).RunWhere P cfg₀ evs cfg) (hspawn : .spawn (.connection k) start ∈ evs) :
    ∃ h c part q, History (body settings) start h c ∧
      System.traceOf (.connection k) evs = h.flatMap Prod.snd ++ part ∧ Partway (body settings c) part q ∧
      ∀ c', cfg.thread (.connection k) = .running (.ret c') → part = [] ∧ c' = c := by
  obtain ⟨h, c, part, q, hhistory, htrace, hpartway, hstands⟩ := System.course_of_run hinit hrun hspawn
  exact ⟨h, c, part, q, hhistory, htrace, hpartway, fun c' hc' => (hstands _ hc').2 c' rfl⟩

theorem done_within (hstart : start = .tcp ∨ start = .ws []) (hinit : cfg₀.thread (.connection k) = .fresh)
    (hrun : (brokerSystem settings).RunWhere P cfg₀ evs cfg) (hspawn : .spawn (.connection k) start ∈ evs) :
    done evs k <+: due settings start evs k := by
  obtain ⟨h, c, part, q, hhistory, htrace, hpartway, -⟩ := course_of_connection hinit hrun hspawn
  have hperforms := performs_of_history (hstart.imp_right fun h => ⟨[], h⟩) hhistory
  obtain ⟨rest, c', hexec, hrest⟩ := hpartway.completed hangUp
  obtain ⟨htaken, harrived, hblank⟩ := hangUp_silent hrest
  have hwithin := (hperforms.turn hexec).within
  rw [← List.append_assoc, ← htrace, named_append_blank hblank, heard, taken_append, arrived_append, htaken, harrived,
    List.append_nil, List.append_nil, deeds_append] at hwithin
  exact (List.prefix_append _ _).trans hwithin

theorem done_all (hstart : start = .tcp ∨ start = .ws []) (hinit : cfg₀.thread (.connection k) = .fresh)
    (hrun : (brokerSystem settings).RunWhere P cfg₀ evs cfg) (hspawn : .spawn (.connection k) start ∈ evs)
    (hstands : between (cfg.thread (.connection k)) = some c) (hwaits : c.Waits) :
    done evs k = due settings start evs k := by
  obtain ⟨h, c', part, q, hhistory, htrace, hpartway, hends⟩ := course_of_connection hinit hrun hspawn
  have hperforms := performs_of_history (hstart.imp_right fun h => ⟨[], h⟩) hhistory
  obtain ⟨rfl, rfl⟩ := hends c (eq_of_between hstands)
  rw [List.append_nil] at htrace
  rw [done, due, htrace]
  exact hperforms.all hwaits

/-- Whatever the other tasks do, a connection does what its input asks for, in this order, and only that; and when it
    waits for more, it has done all of it. -/
theorem behaviour_of_run (hstart : start = .tcp ∨ start = .ws []) (hinit : cfg₀.thread (.connection k) = .fresh)
    (hrun : (brokerSystem settings).RunWhere P cfg₀ evs cfg) (hspawn : .spawn (.connection k) start ∈ evs) :
    done evs k <+: due settings start evs k ∧
      ∀ c, between (cfg.thread (.connection k)) = some c → c.Waits → done evs k = due settings start evs k :=
  ⟨done_within hstart hinit hrun hspawn, fun _ => done_all hstart hinit hrun hspawn⟩

end

def orderBytes : Bytes :=
  sentBytes (.V311 (.Publish { topic := "t", payload := [0x78], qos := .AtLeastOnce, retain := false, packetId := some 7 }))

def piecesMoves : List BrokerMove :=
  joinMoves 0 "" true ++
  [.act (.connection 0) (.received (.data (orderBytes.take 3))),
    .act (.connection 0) (.received (.data (orderBytes.drop 3)))] ++ turns (.connection 0) 7

def startsTcp (k : ConnId) : BrokerEvent → Bool
  | .spawn (.connection j) .tcp => j == k
  | _ => false

theorem mem_of_startsTcp {evs : List BrokerEvent} {k : ConnId} (h : evs.any (startsTcp k) = true) :
    .spawn (.connection k) .tcp ∈ evs := by
  obtain ⟨e, he, hstarts⟩ := List.any_eq_true.mp h
  cases e with
  | spawn i c =>
    cases i with
    | connection j =>
      cases c with
      | tcp =>
        obtain rfl : j = k := eq_of_beq hstarts
        exact he
      | _ => cases hstarts
    | _ => cases hstarts
  | _ => cases hstarts

def piecesDone : List Action :=
  [.sessionsInsert "anonymous_1" (SessionState.new "anonymous_1" .V311 true 60 (some "anonymous")),
    .sendEvent (.SaveSession "anonymous_1" 4 true 60 (some "anonymous")), .write .connack [0x20, 2, 0, 0],
    .sendRouter (.Publish "t" [0x78] .AtLeastOnce false "anonymous_1"), .write .response [0x40, 2, 0, 7]]

structure PlaysPieces (evs : List BrokerEvent) (cfg : BrokerConfigState) (k : ConnId) : Prop where
  run : (brokerSystem openSettings).Run initial evs cfg
  spawn : .spawn (.connection k) .tcp ∈ evs
  name : named (System.traceOf (.connection k) evs) = "anonymous_1"
  first : (heard (System.traceOf (.connection k) evs)).head? =
    some (sentBytes (.V311 (.Connect (plainConnectV3 "" true none))))
  bytes : (heard (System.traceOf (.connection k) evs)).flatten =
    sentBytes (.V311 (.Connect (plainConnectV3 "" true none))) ++ orderBytes
  done : done evs k = piecesDone
  waits : ∃ c, between (cfg.thread (.connection k)) = some c ∧ c.Waits

def playsPieces (k : ConnId) (evs : List BrokerEvent) (cfg : BrokerConfigState) : Bool :=
  let tr := System.traceOf (.connection k) evs
  evs.any (startsTcp k) && named tr == "anonymous_1" &&
    (heard tr).head? == some (sentBytes (.V311 (.Connect (plainConnectV3 "" true none)))) &&
    (heard tr).flatten == sentBytes (.V311 (.Connect (plainConnectV3 "" true none))) ++ orderBytes &&
    done evs k == piecesDone && (between (cfg.thread (.connection k))).any fun c => decide c.Waits

theorem playsPieces_of_execute {moves : List BrokerMove} {k : ConnId}
    (h : (execute openSettings moves).any (fun r => playsPieces k r.1 r.2) = true) : ∃ evs cfg, PlaysPieces evs cfg k := by
  obtain ⟨⟨evs, cfg⟩, hexec, hplays⟩ := (Option.any_eq_true _ _).mp h
  simp only [playsPieces, Bool.and_eq_true, beq_iff_eq] at hplays
  obtain ⟨⟨⟨⟨⟨hspawn, hname⟩, hfirst⟩, hbytes⟩, hdone⟩, hwaits⟩ := hplays
  obtain ⟨c, hstands, hwaits⟩ := (Option.any_eq_true _ _).mp hwaits
  exact ⟨evs, cfg, execute_run hexec, mem_of_startsTcp hspawn, hname, hfirst, hbytes, hdone, c, hstands,
    of_decide_eq_true hwaits⟩

theorem pieces_played : ∃ evs cfg, PlaysPieces evs cfg 0 := by
  have hplays : (execute openSettings piecesMoves).any (fun r => playsPieces 0 r.1 r.2) = true := by decide +kernel
  exact playsPieces_of_execute hplays

theorem behaviour_of_run_pieces : ∃ evs cfg, (brokerSystem openSettings).Run initial evs cfg ∧
    done evs 0 = piecesDone ∧ done evs 0 = due openSettings .tcp evs 0 := by
  obtain ⟨evs, cfg, hplays⟩ := pieces_played
  obtain ⟨c, hstands, hwaits⟩ := hplays.waits
  exact ⟨evs, cfg, hplays.run, hplays.done, (behaviour_of_run (.inl rfl) rfl hplays.run hplays.spawn).2 c hstands hwaits⟩

theorem loopScript_grows {settings : Settings} {clientId username : String} {version : ProtocolVersion} (bytes more : Bytes) :
    loopScript settings clientId username version bytes <+: loopScript settings clientId username version (bytes ++ more) := by
  obtain ⟨packets, hpackets⟩ :=
    (cuts_decodePacketByVersion version).items_within more (bytes.length + 1) (Nat.lt_succ_self bytes.length)
  rw [loopScript, loopScript, packetsIn, packetsIn, ← hpackets, List.flatMap_append]
  exact List.prefix_append _ _

theorem welcome_grows {settings : Settings} {c : ConnectFields} {will : Option WillMessage}
    {consumed : MqttResult (Option ℕ)} {buf : Bytes} {name : String} {later later' : List Bytes}
    (h : later.flatten <+: later'.flatten) :
    c.welcome settings will consumed buf name later <+: c.welcome settings will consumed buf name later' := by
  unfold ConnectFields.welcome
  cases settings.authenticator.authenticate settings.config.allowAnonymous c.username c.password with
  | Denied reason => exact List.prefix_rfl
  | Success username =>
    simp only [List.prefix_append_right_inj]
    match consumed with
    | .ok (some size) =>
      obtain ⟨more, hmore⟩ := h
      simp only [ConnectFields.rest]
      rw [← hmore, ← List.append_assoc]
      exact loopScript_grows _ more
    | .ok none => exact List.prefix_rfl
    | .error _ => exact List.prefix_rfl

theorem tcpScript_grows {settings : Settings} {name : String} {chunks chunks' : List Bytes} (hfirst : chunks.head? = chunks'.head?)
    (hbytes : chunks.flatten <+: chunks'.flatten) : tcpScript settings name chunks <+: tcpScript settings name chunks' := by
  cases chunks with
  | nil => exact List.nil_prefix
  | cons readBuf later =>
    cases chunks' with
    | nil => cases hfirst
    | cons readBuf' later' =>
      cases hfirst
      rw [List.flatten_cons, List.flatten_cons, List.prefix_append_right_inj] at hbytes
      cases hpacket : decodeFirstPacket readBuf with
      | error _ =>
        simp only [tcpScript, hpacket]
        exact List.prefix_rfl
      | ok found =>
        cases found with
        | none =>
          simp only [tcpScript, hpacket]
          exact List.prefix_rfl
        | some packet =>
          cases hfields : connectFields packet with
          | none =>
            simp only [tcpScript, hpacket, hfields]
            exact List.prefix_rfl
          | some c =>
            simp only [tcpScript, hpacket, hfields]
            exact welcome_grows hbytes

section
variable {settings : Settings} {P P' : List BrokerEvent → BrokerConfigState → BrokerEvent → BrokerConfigState → Prop}
  {cfg₀ cfg₀' cfg cfg' : BrokerConfigState} {evs evs' : List BrokerEvent} {k k' : ConnId}

/-- Two connections that read the same, however it is cut into reads after the first, and that are given the same id if
    they are given one, do the same, whatever else goes on around each of them: the one that gets less far does the
    beginning of what the other does. -/
theorem done_comparable (hinit : cfg₀.thread (.connection k) = .fresh) (hinit' : cfg₀'.thread (.connection k') = .fresh)
    (hrun : (brokerSystem settings).RunWhere P cfg₀ evs cfg) (hrun' : (brokerSystem settings).RunWhere P' cfg₀' evs' cfg')
    (hspawn : .spawn (.connection k) .tcp ∈ evs) (hspawn' : .spawn (.connection k') .tcp ∈ evs')
    (hname : named (System.traceOf (.connection k) evs) = named (System.traceOf (.connection k') evs'))
    (hfirst : (heard (System.traceOf (.connection k) evs)).head? = (heard (System.traceOf (.connection k') evs')).head?)
    (hbytes : (heard (System.traceOf (.connection k) evs)).flatten <+:
      (heard (System.traceOf (.connection k') evs')).flatten) :
    (done evs k <+: done evs' k' ∨ done evs' k' <+: done evs k) ∧
      ∀ c', between (cfg'.thread (.connection k')) = some c' → c'.Waits → done evs k <+: done evs' k' := by
  have hwithin := done_within (.inl rfl) hinit hrun hspawn
  have hwithin' := done_within (.inl rfl) hinit' hrun' hspawn'
  have hgrows : due settings .tcp evs k <+: due settings .tcp evs' k' := by
    rw [due, due, hname]
    exact tcpScript_grows hfirst hbytes
  refine ⟨List.prefix_or_prefix_of_prefix (hwithin.trans hgrows) hwithin', ?_⟩
  intro c' hc' hwaits
  rw [done_all (.inl rfl) hinit' hrun' hspawn' hc' hwaits]
  exact hwithin.trans hgrows

end

def wholeMoves : List BrokerMove :=
  joinMoves 0 "x" true ++ joinMoves 1 "" true ++ [.act (.connection 1) (.received (.data orderBytes))] ++
    turns (.connection 1) 7

theorem done_comparable_whole : ∃ evs cfg evs' cfg', PlaysPieces evs cfg 0 ∧ PlaysPieces evs' cfg' 1 ∧
    done evs 0 <+: done evs' 1 := by
  obtain ⟨evs, cfg, hplays⟩ := pieces_played
  have hwhole : (execute openSettings wholeMoves).any (fun r => playsPieces 1 r.1 r.2) = true := by decide +kernel
  obtain ⟨evs', cfg', hplays'⟩ := playsPieces_of_execute hwhole
  obtain ⟨c', hstands, hwaits⟩ := hplays'.waits
  refine ⟨evs, cfg, evs', cfg', hplays, hplays', ?_⟩
  refine (done_comparable rfl rfl hplays.run hplays'.run hplays.spawn hplays'.spawn ?_ ?_ ?_).2 c' hstands hwaits
  · rw [hplays.name, hplays'.name]
  · rw [hplays.first, hplays'.first]
  · rw [hplays.bytes, hplays'.bytes]

section
variable (settings : Settings) (username clientId : String)

def PersistEvent.Granted : PersistEvent → Prop
  | .SaveSession id _ _ _ user => id = clientId ∧ user = some username
  | .SaveSubscription id filter _ => id = clientId ∧ settings.acl.authorizeSubscribe username filter = true
  | .RemoveSubscription id _ => id = clientId
  | .SaveWill id _ _ _ _ _ => id = clientId
  | .RemoveWill id => id = clientId
  | .SaveRetained topic _ _ => settings.acl.authorizePublish username topic = true
  | .RemoveRetained topic => settings.acl.authorizePublish username topic = true
  | _ => False

/-- What a user may do under this client id. -/
def Action.Granted : Action → Prop
  | .sessionsInsert id session => id = clientId ∧ session.username = some username
  | .willsInsert id _ => id = clientId
  | .willsRemove id => id = clientId
  | .subscribe id filter _ => id = clientId ∧ settings.acl.authorizeSubscribe username filter = true
  | .unsubscribe id _ => id = clientId
  | .retainedInsert topic _ => settings.acl.authorizePublish username topic = true
  | .retainedRemove topic => settings.acl.authorizePublish username topic = true
  | .sendRouter (.Publish topic _ _ _ source) => source = clientId ∧ settings.acl.authorizePublish username topic = true
  | .sendEvent event => event.Granted settings username clientId
  | .write _ _ => True
  | _ => False

end

/-- The CONNECT that comes first in the input. -/
def Introduces (chunks : List Bytes) (c : ConnectFields) : Prop :=
  ∃ buf packet, buf <+: chunks.flatten ∧ decodeFirstPacket buf = .ok (some packet) ∧ connectFields packet = some c

section
variable {settings : Settings} {username clientId name : String} {a : Action}

theorem publishDeeds_granted {p : V3.PublishPacket} (h : a ∈ publishDeeds settings clientId username p) :
    a.Granted settings username clientId := by
  unfold publishDeeds at h
  split at h
  · rename_i hacl
    cases h with
    | head => exact ⟨rfl, hacl⟩
    | tail _ h =>
      split_ifs at h
      · cases h
      · cases h with
        | head => exact hacl
        | tail _ h => exact List.mem_singleton.mp h ▸ hacl
      · cases h with
        | head => exact hacl
        | tail _ h => exact List.mem_singleton.mp h ▸ hacl
  · cases h

theorem subscribeDeeds_granted {filters : List (String × QoS)}
    (h : a ∈ (settings.allowed username filters).flatMap (subscribeDeeds clientId)) :
    a.Granted settings username clientId := by
  obtain ⟨f, hf, ha⟩ := List.mem_flatMap.mp h
  have hacl := (List.mem_filter.mp hf).2
  cases ha with
  | head => exact ⟨rfl, hacl⟩
  | tail _ ha => exact List.mem_singleton.mp ha ▸ ⟨rfl, hacl⟩

theorem unsubscribeDeeds_granted {filters : List String} (h : a ∈ filters.flatMap (unsubscribeDeeds clientId)) :
    a.Granted settings username clientId := by
  obtain ⟨f, -, ha⟩ := List.mem_flatMap.mp h
  cases ha with
  | head => rfl
  | tail _ ha => exact List.mem_singleton.mp ha ▸ rfl

theorem script_granted {packet : MqttPacket} (h : a ∈ packet.script settings clientId username) :
    a.Granted settings username clientId := by
  cases List.mem_append.mp h with
  | inr h =>
    obtain ⟨response, -, rfl⟩ := List.mem_map.mp h
    trivial
  | inl h =>
    unfold MqttPacket.deeds at h
    split at h
    · exact publishDeeds_granted h
    · exact subscribeDeeds_granted h
    · split at h
      · cases h with
        | head => rfl
        | tail _ h => exact List.mem_singleton.mp h ▸ rfl
      · exact unsubscribeDeeds_granted h

theorem welcome_granted {c : ConnectFields} {will : Option WillMessage} {consumed : MqttResult (Option ℕ)} {buf : Bytes}
    {later : List Bytes} (h : a ∈ c.welcome settings will consumed buf name later) :
    (∃ version reason, a = .write .connack (sentBytes (deniedConnack version reason))) ∨
      ∃ username, settings.authenticator.authenticate settings.config.allowAnonymous c.username c.password =
        .Success username ∧ a.Granted settings username (c.idFor name) := by
  unfold ConnectFields.welcome at h
  split at h
  · rename_i reason _
    exact .inl ⟨c.version, reason, List.mem_singleton.mp h⟩
  · rename_i username hauth
    refine .inr ⟨username, hauth, ?_⟩
    simp only [List.mem_append, List.mem_singleton] at h
    rcases h with rfl | h | rfl | rfl | h
    · exact ⟨rfl, rfl⟩
    · obtain ⟨w, -, ha⟩ := List.mem_flatMap.mp h
      cases ha with
      | head => rfl
      | tail _ ha => exact List.mem_singleton.mp ha ▸ rfl
    · exact ⟨rfl, rfl⟩
    · trivial
    · unfold ConnectFields.rest at h
      split at h
      · obtain ⟨packet, -, ha⟩ := List.mem_flatMap.mp h
        exact script_granted ha
      · cases h

theorem tcpScript_introduced {chunks : List Bytes} (h : a ∈ tcpScript settings name chunks) :
    ∃ c will consumed buf later, Introduces chunks c ∧ a ∈ c.welcome settings will consumed buf name later := by
  cases chunks with
  | nil => cases h
  | cons readBuf later =>
    simp only [tcpScript] at h
    split at h
    · rename_i packet hfirst
      split at h
      · rename_i c hfields
        exact ⟨c, _, _, _, _, ⟨readBuf, packet, List.prefix_append _ _, hfirst, hfields⟩, h⟩
      · cases h
    · cases h

theorem wsScript_introduced {chunks : List Bytes} : ∀ {buf : Bytes}, a ∈ wsScript settings name buf chunks →
    ∃ c will consumed buf' later, Introduces (buf :: chunks) c ∧ a ∈ c.welcome settings will consumed buf' name later := by
  induction chunks with
  | nil =>
    intro buf h
    cases h
  | cons data chunks ih =>
    intro buf h
    have hbytes : (buf ++ data) ++ chunks.flatten = (buf :: data :: chunks).flatten := by simp
    unfold wsScript at h
    split at h
    · rename_i packet hfirst
      split at h
      · rename_i c hfields
        exact ⟨c, _, _, _, _, ⟨buf ++ data, packet, hbytes ▸ List.prefix_append _ _, hfirst, hfields⟩, h⟩
      · cases h
    · obtain ⟨c, will, consumed, buf', later, ⟨part, packet, hpart, hconnect⟩, ha⟩ := ih h
      exact ⟨c, will, consumed, buf', later, ⟨part, packet, hbytes ▸ hpart, hconnect⟩, ha⟩
    · cases h

end

section
variable {settings : Settings} {P : List BrokerEvent → BrokerConfigState → BrokerEvent → BrokerConfigState → Prop}
  {cfg₀ cfg : BrokerConfigState} {evs : List BrokerEvent} {k : ConnId} {start : Control} {a : Action}

/-- A connection that was not let in is told so at most; one that was does what its user may do, under its own id. -/
theorem done_granted (hstart : start = .tcp ∨ start = .ws []) (hinit : cfg₀.thread (.connection k) = .fresh)
    (hrun : (brokerSystem settings).RunWhere P cfg₀ evs cfg) (hspawn : .spawn (.connection k) start ∈ evs)
    (ha : a ∈ done evs k) : (∃ version reason, a = .write .connack (sentBytes (deniedConnack version reason))) ∨
      ∃ c username, Introduces (heard (System.traceOf (.connection k) evs)) c ∧
        settings.authenticator.authenticate settings.config.allowAnonymous c.username c.password = .Success username ∧
        a.Granted settings username (c.idFor (named (System.traceOf (.connection k) evs))) := by
  have hdue := (done_within hstart hinit hrun hspawn).subset ha
  have hwelcome : ∃ c will consumed buf later, Introduces (heard (System.traceOf (.connection k) evs)) c ∧
      a ∈ c.welcome settings will consumed buf (named (System.traceOf (.connection k) evs)) later := by
    rcases hstart with rfl | rfl
    · exact tcpScript_introduced hdue
    · exact wsScript_introduced hdue
  obtain ⟨c, will, consumed, buf, later, hconnect, ha⟩ := hwelcome
  exact (welcome_granted ha).imp_right fun ⟨username, hauth, hgranted⟩ => ⟨c, username, hconnect, hauth, hgranted⟩

end

theorem done_granted_pieces : ∃ evs cfg, PlaysPieces evs cfg 0 ∧
    ((∃ version reason, Action.sendRouter (.Publish "t" [0x78] .AtLeastOnce false "anonymous_1") =
      .write .connack (sentBytes (deniedConnack version reason))) ∨
    ∃ c username, Introduces (heard (System.traceOf (.connection 0) evs)) c ∧
      openSettings.authenticator.authenticate openSettings.config.allowAnonymous c.username c.password = .Success username ∧
      (Action.sendRouter (.Publish "t" [0x78] .AtLeastOnce false "anonymous_1")).Granted openSettings username
        (c.idFor (named (System.traceOf (.connection 0) evs)))) := by
  obtain ⟨evs, cfg, hplays⟩ := pieces_played
  refine ⟨evs, cfg, hplays, done_granted (.inl rfl) rfl hplays.run hplays.spawn ?_⟩
  rw [hplays.done]
  decide

end AtomMqtt
