import AtomMqtt.Client
import AtomMqtt.Scripts

set_option autoImplicit false

/-! What the client shows. The messages that `sub`, and the task that receives for the shell, show are those
among the packets in what they have read, whatever the reads and the other tasks. -/
namespace AtomMqtt.Client
open Programs Framing

def bytesOf (packet : V3.MqttPacketV3) : Bytes := (V3.encodePacket packet).toOption.getD []

theorem encodePacket_eq (packet : V3.MqttPacketV3) : V3.encodePacket packet = .ok (bytesOf packet) := by
  cases packet <;> rfl

theorem encoding_eq (packet : V3.MqttPacketV3) (next : Bytes → Job Control) (failure : Job Control) :
    encoding packet next failure = next (bytesOf packet) := by
  rw [encoding, encodePacket_eq]

theorem cuts_decodePacket : Cuts V3.decodePacket where
  size := by
    intro buf packet size hdecode
    exact (cuts_decodePacketByVersion .V311).size (decodePacketByVersion_v3.mpr ⟨packet, rfl, hdecode⟩)
  append := by
    intro buf packet size hdecode more
    exact decodeFrame_append hdecode more

def received (tr : Trace Action Reply) : List Bytes :=
  tr.filterMap fun e =>
    match e with
    | ⟨.tryRead, .bytes bytes⟩ => some bytes
    | _ => none

def messages (tr : Trace Action Reply) : List V3.PublishPacket :=
  tr.filterMap fun e =>
    match e.1 with
    | .println (.message p) => some p
    | _ => none

def published : V3.MqttPacketV3 → Option V3.PublishPacket
  | .Publish p => some p
  | _ => none

theorem received_append (tr tr' : Trace Action Reply) : received (tr ++ tr') = received tr ++ received tr' :=
  List.filterMap_append

theorem messages_append (tr tr' : Trace Action Reply) : messages (tr ++ tr') = messages tr ++ messages tr' :=
  List.filterMap_append

/-- How many packets the task passes over before it shows messages, and how many of these it has. -/
def Stage.place : Stage → Option (ℕ × ℕ)
  | .subConnack _ _ => some (2, 0)
  | .subAck _ => some (2, 1)
  | .listen => some (2, 2)
  | .receive => some (0, 0)
  | _ => none

/-- A task that passes over `skip` packets has had `n` of them, if not all, and has `buf` left to decode. -/
def Control.At (skip n : ℕ) (buf : Bytes) : Control → Prop
  | .sub _ => skip = 2 ∧ n = 0 ∧ buf = []
  | .sending _ next failure => next.At skip n buf ∧ failure.At skip n buf
  | .reading buf' stage => stage.place = some (skip, n) ∧ buf' = buf
  | .awaiting buf' stage => stage.place = some (skip, n) ∧ buf' = buf ∧ V3.decodePacket buf = .ok none
  | .listening buf' => skip = 2 ∧ n = 2 ∧ buf' = buf
  | .receiver buf' => skip = 0 ∧ n = 0 ∧ buf' = buf
  | .ending _ => True
  | .exited => True
  | _ => False

/-- The packets of a turn that comes from there, and where it leads. -/
def Hears (skip n : ℕ) (buf : Bytes) (tr : Trace Action Reply) (c : Control) : Prop :=
  ∃ xs left, Reads V3.decodePacket buf (received tr) xs left ∧ messages tr = (xs.drop (skip - n)).filterMap published ∧
    c.At skip (min skip (n + xs.length)) left

section
variable {skip n : ℕ} {buf : Bytes} {c next failure : Control} {α : Type} {a : Action}
  {P : Trace Action Reply → α → Prop}

theorem ensures_run {f : Unit → Job α} (h : ∀ r, Ensures (fun tr x => P (⟨a, r⟩ :: tr) x) (f ())) :
    Ensures P (run a >>= f) := .act h

theorem ensures_ask {f : Reply a → Job α} (h : ∀ r, Ensures (fun tr x => P (⟨a, r⟩ :: tr) x) (f r)) :
    Ensures P (ask a >>= f) := .act h

def Stays (skip n : ℕ) (buf : Bytes) (tr : Trace Action Reply) (c : Control) : Prop :=
  received tr = [] ∧ messages tr = [] ∧ c.At skip n buf

theorem Stays.hears {tr : Trace Action Reply} (hn : n ≤ skip) (h : Stays skip n buf tr c) : Hears skip n buf tr c := by
  obtain ⟨hreceived, hmessages, hc⟩ := h
  refine ⟨[], buf, hreceived ▸ .done buf, ?_, ?_⟩
  · rw [hmessages, List.drop_nil]
    rfl
  rwa [List.length_nil, Nat.add_zero, Nat.min_eq_right hn]

theorem finish_stays (ok : Bool) : Ensures (Stays skip n buf) (finish ok) := by
  unfold finish
  apply ensures_run
  intro _
  exact .ret ⟨rfl, rfl, trivial⟩

theorem sendRest_stays (left : Bytes) (hnext : next.At skip n buf) (hfailure : failure.At skip n buf) :
    Ensures (Stays skip n buf) (sendRest left next failure) := by
  unfold sendRest
  split
  · exact .ret ⟨rfl, rfl, hnext⟩
  · apply ensures_ask
    intro r
    match r with
    | .written k =>
      refine .ret ⟨rfl, rfl, ?_⟩
      split
      · exact hnext
      · exact ⟨hnext, hfailure⟩
    | .wouldBlock =>
      apply ensures_ask
      intro ok
      cases ok with
      | false => exact .ret ⟨rfl, rfl, hfailure⟩
      | true => exact .ret ⟨rfl, rfl, hnext, hfailure⟩
    | .failed => exact .ret ⟨rfl, rfl, hfailure⟩

theorem sendBytesArc_stays (bytes : Bytes) (hnext : next.At skip n buf) (hfailure : failure.At skip n buf) :
    Ensures (Stays skip n buf) (sendBytesArc bytes next failure) := by
  unfold sendBytesArc
  apply ensures_ask
  intro ok
  cases ok with
  | false => exact .ret ⟨rfl, rfl, hfailure⟩
  | true => exact (sendRest_stays bytes hnext hfailure).mono fun _ _ h => h

theorem listening_stays : Ensures (Stays 2 2 buf) (listening buf) := by
  unfold listening
  apply ensures_ask
  intro running
  cases running with
  | false => exact .ret ⟨rfl, rfl, trivial⟩
  | true => exact .ret ⟨rfl, rfl, rfl, rfl⟩

theorem receiving_stays : Ensures (Stays 0 0 buf) (receiving buf) := by
  unfold receiving
  apply ensures_ask
  intro running
  cases running with
  | false => exact .ret ⟨rfl, rfl, trivial⟩
  | true => exact .ret ⟨rfl, rfl, rfl, rfl⟩

theorem readFailed_stays {stage : Stage} (hstage : stage.place = some (skip, n)) :
    Ensures (Stays skip n buf) (readFailed buf stage) := by
  cases stage with
  | listen =>
    cases hstage
    apply ensures_ask
    intro running
    cases running with
    | false => exact .ret ⟨rfl, rfl, rfl, rfl, rfl⟩
    | true => exact .ret ⟨rfl, rfl, trivial⟩
  | receive =>
    apply ensures_ask
    intro _
    exact .ret ⟨rfl, rfl, trivial⟩
  | _ => exact finish_stays false

theorem acknowledge_stays {p : V3.PublishPacket} {otherwise : Job Control} (hnext : next.At skip n buf)
    (hotherwise : Ensures (Stays skip n buf) otherwise) : Ensures (Stays skip n buf) (acknowledge p next otherwise) := by
  unfold acknowledge
  cases p.packetId with
  | none => exact hotherwise
  | some packetId =>
    simp only [encoding_eq]
    split
    · exact sendBytesArc_stays _ hnext hnext
    · exact hotherwise

theorem shown_hears {packet : V3.MqttPacketV3} {size : ℕ} {rest : Job Control}
    (hdecode : V3.decodePacket buf = .ok (some (packet, size))) (before : Trace Action Reply)
    (hreceived : received before = []) (hmessages : messages before = (published packet).toList)
    (hrest : Ensures (Stays skip skip (buf.drop size)) rest) :
    Ensures (fun tr c => Hears skip skip buf (before ++ tr) c) rest := by
  apply hrest.mono
  rintro tr c ⟨hnone, hsilent, hc⟩
  refine ⟨[packet], buf.drop size, ?_, ?_, ?_⟩
  · rw [received_append, hreceived, hnone]
    exact .item hdecode (.done _)
  · rw [messages_append, hmessages, hsilent, Nat.sub_self, List.append_nil, List.drop_zero, List.filterMap_cons]
    cases published packet <;> rfl
  · rwa [Nat.min_eq_left (Nat.le_add_right skip _)]

theorem passed_hears {packet : V3.MqttPacketV3} {size : ℕ} {rest : Job Control}
    (hdecode : V3.decodePacket buf = .ok (some (packet, size))) (hn : n < skip) (before : Trace Action Reply)
    (hreceived : received before = []) (hmessages : messages before = [])
    (hrest : Ensures (Stays skip (n + 1) (buf.drop size)) rest) :
    Ensures (fun tr c => Hears skip n buf (before ++ tr) c) rest := by
  apply hrest.mono
  rintro tr c ⟨hnone, hsilent, hc⟩
  refine ⟨[packet], buf.drop size, ?_, ?_, ?_⟩
  · rw [received_append, hreceived, hnone]
    exact .item hdecode (.done _)
  · rw [messages_append, hmessages, hsilent, List.drop_of_length_le (by simp only [List.length_singleton]; omega)]
    rfl
  · rwa [List.length_singleton, Nat.min_eq_right hn]

theorem subscribe_stays (args : SubArgs) (qos : QoS) : Ensures (Stays 2 1 buf) (subscribe args qos buf) := by
  unfold subscribe
  apply ensures_ask
  intro packetId
  simp only [encoding_eq]
  have hnext : (Control.reading buf (.subAck args.topic)).At 2 1 buf := ⟨rfl, rfl⟩
  have hfailure : (Control.ending false).At 2 1 buf := trivial
  exact (sendBytesArc_stays _ hnext hfailure).mono fun _ _ h => h

theorem handlePacket_hears {stage : Stage} {packet : V3.MqttPacketV3} {size : ℕ} (hstage : stage.place = some (skip, n))
    (hdecode : V3.decodePacket buf = .ok (some (packet, size))) :
    Ensures (Hears skip n buf) (handlePacket stage packet (buf.drop size)) := by
  cases stage with
  | subConnack args qos =>
    cases hstage
    have hfailed := passed_hears hdecode Nat.two_pos [] rfl rfl (finish_stays false)
    cases packet with
    | ConnAck ack =>
      change Ensures _ (if ack.returnCode = .Accepted then subscribe args qos (buf.drop size) else finish false)
      split
      · exact passed_hears hdecode Nat.two_pos [] rfl rfl (subscribe_stays args qos)
      · exact hfailed
    | _ => exact hfailed
  | subAck topic =>
    cases hstage
    unfold handlePacket
    apply ensures_run
    intro r
    apply ensures_run
    intro r'
    apply ensures_run
    intro r''
    exact passed_hears hdecode Nat.one_lt_two
      [⟨.spawn .ping, r⟩, ⟨.println (.waiting topic), r'⟩, ⟨.spawn .ctrlC, r''⟩] rfl rfl listening_stays
  | listen =>
    cases hstage
    cases packet with
    | Publish p =>
      apply ensures_run
      intro r
      exact shown_hears hdecode [⟨.println (.message p), r⟩] rfl rfl
        (acknowledge_stays ⟨rfl, rfl, rfl⟩ listening_stays)
    | _ => exact shown_hears hdecode [] rfl rfl listening_stays
  | receive =>
    cases hstage
    cases packet with
    | Publish p =>
      apply ensures_run
      intro r
      exact shown_hears hdecode [⟨.println (.message p), r⟩] rfl rfl
        (acknowledge_stays ⟨rfl, rfl, rfl⟩ receiving_stays)
    | SubAck ack =>
      apply ensures_run
      intro r
      exact shown_hears hdecode [⟨.println (.subscriptionConfirmed ack.returnCodes), r⟩] rfl rfl receiving_stays
    | UnsubAck ack =>
      apply ensures_run
      intro r
      exact shown_hears hdecode [⟨.println (.unsubscribeConfirmed ack.packetId), r⟩] rfl rfl receiving_stays
    | _ => exact shown_hears hdecode [] rfl rfl receiving_stays
  | _ => cases hstage

theorem chunk_hears {bytes : Bytes} {rest : Job Control} (hn : n ≤ skip) (hdecode : V3.decodePacket buf = .ok none)
    (hrest : Ensures (Stays skip n (buf ++ bytes)) rest) :
    Ensures (fun tr c => Hears skip n buf (⟨.readable, true⟩ :: ⟨.tryRead, .bytes bytes⟩ :: tr) c) rest := by
  apply hrest.mono
  rintro tr c ⟨hnone, hsilent, hc⟩
  refine ⟨[], buf ++ bytes, ?_, ?_, ?_⟩
  · change Reads _ _ (bytes :: received tr) _ _
    rw [hnone]
    exact .chunk hdecode (.done _)
  · change messages tr = _
    rw [hsilent, List.drop_nil]
    rfl
  · rwa [List.length_nil, Nat.add_zero, Nat.min_eq_right hn]

theorem tryReadBuf_hears {stage : Stage} (hn : n ≤ skip) (hstage : stage.place = some (skip, n))
    (hdecode : V3.decodePacket buf = .ok none) : Ensures (Hears skip n buf) (tryReadBuf buf stage) := by
  have hfailed : Ensures (Stays skip n buf) (readFailed buf stage) := readFailed_stays hstage
  unfold tryReadBuf
  apply ensures_ask
  intro ready
  cases ready with
  | false => exact hfailed.mono fun _ _ h => Stays.hears hn h
  | true =>
    apply ensures_ask
    intro r
    match r with
    | .failed => exact hfailed.mono fun _ _ h => Stays.hears hn h
    | .wouldBlock => exact .ret (Stays.hears hn ⟨rfl, rfl, hstage, rfl, hdecode⟩)
    | .bytes bytes =>
      apply chunk_hears hn hdecode
      dsimp only
      split
      · rename_i hempty
        rw [List.isEmpty_iff.mp hempty, List.append_nil]
        exact hfailed
      · split
        · exact readFailed_stays hstage
        · exact .ret ⟨rfl, rfl, hstage, rfl⟩

theorem readPacket_hears {stage : Stage} (hn : n ≤ skip) (hstage : stage.place = some (skip, n)) :
    Ensures (Hears skip n buf) (readPacket buf stage) := by
  unfold readPacket
  match hdecode : V3.decodePacket buf with
  | .ok (some (packet, size)) => exact handlePacket_hears hstage hdecode
  | .ok none => exact tryReadBuf_hears hn hstage hdecode
  | .error _ => exact (readFailed_stays hstage).mono fun _ _ h => h.hears hn

theorem runSub_stays (args : SubArgs) : Ensures (Stays 2 0 []) (runSub args) := by
  unfold runSub
  cases parseQos args.qos with
  | none => exact finish_stays false
  | some qos =>
    apply ensures_ask
    intro ok
    cases ok with
    | false => exact (finish_stays false).mono fun _ _ h => h
    | true =>
      simp only [encoding_eq, if_true]
      have hnext : (Control.reading [] (.subConnack args qos)).At 2 0 [] := ⟨rfl, rfl⟩
      have hfailure : (Control.ending false).At 2 0 [] := trivial
      exact (sendBytesArc_stays _ hnext hfailure).mono fun _ _ h => h

theorem turn_hears (hn : n ≤ skip) (hc : c.At skip n buf) : Ensures (Hears skip n buf) (body c) := by
  cases c with
  | sub args =>
    obtain ⟨rfl, rfl, rfl⟩ := hc
    exact (runSub_stays args).mono fun _ _ h => h.hears hn
  | sending left next failure => exact (sendRest_stays left hc.1 hc.2).mono fun _ _ h => h.hears hn
  | reading buf' stage =>
    obtain ⟨hstage, rfl⟩ := hc
    exact readPacket_hears hn hstage
  | awaiting buf' stage =>
    obtain ⟨hstage, rfl, hdecode⟩ := hc
    exact tryReadBuf_hears hn hstage hdecode
  | listening buf' =>
    obtain ⟨rfl, rfl, rfl⟩ := hc
    exact listening_stays.mono fun _ _ h => h.hears hn
  | receiver buf' =>
    obtain ⟨rfl, rfl, rfl⟩ := hc
    exact receiving_stays.mono fun _ _ h => h.hears hn
  | ending ok => exact (finish_stays ok).mono fun _ _ h => h.hears hn
  | exited => exact .ret (Stays.hears hn ⟨rfl, rfl, trivial⟩)
  | _ => exact hc.elim

end

/-- What a task that passes over `skip` packets has made of all that it has read. -/
def Heard (skip : ℕ) (tr : Trace Action Reply) (c : Control) : Prop :=
  ∃ xs left, Reads V3.decodePacket [] (received tr) xs left ∧ messages tr = (xs.drop skip).filterMap published ∧
    c.At skip (min skip xs.length) left

section
variable {skip : ℕ} {c c' : Control} {tr tr' : Trace Action Reply} {h : List (Control × Trace Action Reply)}

theorem Heard.turn (h : Heard skip tr c) (hturn : Exec (body c) tr' c') : Heard skip (tr ++ tr') c' := by
  obtain ⟨xs, left, hreads, hmessages, hc⟩ := h
  obtain ⟨xs', left', hreads', hmessages', hc'⟩ := (turn_hears (Nat.min_le_left _ _) hc).of_exec hturn
  refine ⟨xs ++ xs', left', ?_, ?_, ?_⟩
  · rw [received_append]
    exact hreads.append hreads'
  · have hpassed : skip - min skip xs.length = skip - xs.length := by omega
    rw [messages_append, hmessages, hmessages', hpassed, List.drop_append, List.filterMap_append]
  · have htaken : min skip (xs ++ xs').length = min skip (min skip xs.length + xs'.length) := by
      rw [List.length_append]
      omega
    rwa [htaken]

theorem heard_of_history (hhistory : History body c h c') :
    ∀ {tr}, Heard skip tr c → Heard skip (tr ++ h.flatMap Prod.snd) c' := by
  induction hhistory with
  | done c =>
    intro tr hheard
    rwa [List.flatMap_nil, List.append_nil]
  | turn hturn _ ih =>
    intro tr hheard
    rw [List.flatMap_cons, ← List.append_assoc]
    exact ih (hheard.turn hturn)

/-- The messages among the packets in what has been read, but for the first ones. -/
def messagesIn (skip : ℕ) (bytes : Bytes) : List V3.PublishPacket :=
  ((items V3.decodePacket bytes).drop skip).filterMap published

theorem Heard.items (h : Heard skip tr c) : ∃ xs left, Framing.items V3.decodePacket (received tr).flatten =
    xs ++ Framing.items V3.decodePacket left ∧ messages tr = (xs.drop skip).filterMap published ∧
    c.At skip (min skip xs.length) left := by
  obtain ⟨xs, left, hreads, hmessages, hc⟩ := h
  exact ⟨xs, left, cuts_decodePacket.items_of_reads hreads, hmessages, hc⟩

theorem Heard.within (h : Heard skip tr c) : messages tr <+: messagesIn skip (received tr).flatten := by
  obtain ⟨xs, left, hitems, hmessages, -⟩ := h.items
  rw [messagesIn, hitems, hmessages, List.drop_append, List.filterMap_append]
  exact List.prefix_append _ _

/-- The task waits to read: there is no packet left in its buffer. -/
def Control.Waits : Control → Prop
  | .reading buf _ => V3.decodePacket buf = .ok none
  | .awaiting _ _ => True
  | _ => False

theorem Heard.all (h : Heard skip tr c) (hwaits : c.Waits) : messages tr = messagesIn skip (received tr).flatten := by
  obtain ⟨xs, left, hitems, hmessages, hc⟩ := h.items
  have hdecode : V3.decodePacket left = .ok none := by
    cases c with
    | reading buf stage =>
      obtain ⟨-, rfl⟩ := hc
      exact hwaits
    | awaiting buf stage => exact hc.2.2
    | _ => exact hwaits.elim
  rw [messagesIn, hitems, hmessages, items_of_none hdecode, List.append_nil]

end

def hangUp : ∀ a, Reply a
  | .tryRead => .failed
  | .writeAll _ => some 0
  | .tryWrite _ => .failed
  | _ => default

theorem hangUp_silent {tr : Trace Action Reply} (h : ∀ e ∈ tr, e.2 = hangUp e.1) : received tr = [] := by
  apply List.filterMap_eq_nil_iff.mpr
  rintro ⟨a, r⟩ he
  obtain rfl : r = hangUp a := h _ he
  cases a <;> rfl

inductive Control.Starts : ℕ → Control → Prop
  | sub (args : SubArgs) : Starts 2 (.sub args)
  | receiver : Starts 0 (.receiver [])

theorem Control.Starts.heard {skip : ℕ} {start : Control} (h : start.Starts skip) : Heard skip [] start := by
  cases h with
  | sub args => exact ⟨[], [], .done [], rfl, rfl, rfl, rfl⟩
  | receiver => exact ⟨[], [], .done [], rfl, rfl, rfl, rfl⟩

section
variable {P : List ClientEvent → ClientState → ClientEvent → ClientState → Prop} {cfg : ClientState}
  {evs : List ClientEvent} {i : Task} {skip : ℕ} {start : Control}

theorem shows_within (hstart : start.Starts skip) (hrun : clientSystem.RunWhere P initial evs cfg)
    (hspawn : .spawn i start ∈ evs) :
    messages (System.traceOf i evs) <+: messagesIn skip (received (System.traceOf i evs)).flatten := by
  obtain ⟨h, c, part, q, hhistory, htrace, hpartway, -⟩ := System.course_of_run rfl hrun hspawn
  have hheard := heard_of_history hhistory hstart.heard
  rw [List.nil_append] at hheard
  obtain ⟨rest, c', hexec, hrest⟩ := hpartway.completed hangUp
  have hwithin := (hheard.turn hexec).within
  rw [← List.append_assoc, ← htrace, received_append, hangUp_silent hrest, List.append_nil, messages_append] at hwithin
  exact (List.prefix_append _ _).trans hwithin

theorem shows_all {c : Control} (hstart : start.Starts skip) (hrun : clientSystem.RunWhere P initial evs cfg)
    (hspawn : .spawn i start ∈ evs) (hc : cfg.thread i = .running (.ret c)) (hwaits : c.Waits) :
    messages (System.traceOf i evs) = messagesIn skip (received (System.traceOf i evs)).flatten := by
  obtain ⟨h, c, part, q, hhistory, htrace, -, hstands⟩ := System.course_of_run rfl hrun hspawn
  have hheard := heard_of_history hhistory hstart.heard
  rw [List.nil_append] at hheard
  obtain ⟨-, hret⟩ := hstands _ hc
  obtain ⟨rfl, rfl⟩ := hret _ rfl
  rw [List.append_nil] at htrace
  rw [htrace]
  exact hheard.all hwaits

/-- In every run a task that listens has shown the messages in what it has read, in this order and no others: the first
    of them, and all whenever it waits to read. Where the reads end, and what the other tasks do, is all one. -/
theorem shows_of_run (hstart : start.Starts skip) (hrun : clientSystem.RunWhere P initial evs cfg)
    (hspawn : .spawn i start ∈ evs) :
    messages (System.traceOf i evs) <+: messagesIn skip (received (System.traceOf i evs)).flatten ∧
      ∀ c, cfg.thread i = .running (.ret c) → c.Waits →
        messages (System.traceOf i evs) = messagesIn skip (received (System.traceOf i evs)).flatten :=
  ⟨shows_within hstart hrun hspawn, fun _ => shows_all hstart hrun hspawn⟩

end

def readerArgs : SubArgs := { clientId := "c", username := none, password := none, topic := "t", qos := 1 }

def helloPacket : V3.PublishPacket :=
  { topic := "t", payload := [0x78], qos := .AtLeastOnce, retain := false, packetId := some 7 }

def readerMoves : List ClientMove :=
  mainMoves (.sub readerArgs)
    [.ready true, .ready true, .write (.written (bytesOf (.Connect (connectPacket readerArgs.toArgs))).length), .ready true,
      .read (.bytes ([0x20, 2, 0, 0, 0x90, 3, 0, 1, 1] ++ (bytesOf (.Publish helloPacket)).take 4)), .go, .ready true,
      .write (.written 8), .go, .go, .go, .go, .ready true, .read (.bytes ((bytesOf (.Publish helloPacket)).drop 4)), .go,
      .ready true, .write (.written 4), .go, .ready true, .read .wouldBlock]

def awaits : Thread Action Reply Control → Bool
  | .running (.ret (.awaiting _ _)) => true
  | _ => false

theorem eq_of_awaits {t : Thread Action Reply Control} (h : awaits t = true) :
    ∃ buf stage, t = .running (.ret (.awaiting buf stage)) := by
  unfold awaits at h
  split at h
  · exact ⟨_, _, rfl⟩
  · cases h

theorem shows_of_run_reader : ∃ evs cfg, clientSystem.Run initial evs cfg ∧ .spawn .main (.sub readerArgs) ∈ evs ∧
    messages (System.traceOf .main evs) = [helloPacket] ∧
    messages (System.traceOf .main evs) = messagesIn 2 (received (System.traceOf .main evs)).flatten := by
  have hplays : (execute readerMoves).any (fun r => r.1.any (startsMain (.sub readerArgs)) && awaits (r.2.thread .main) &&
      messages (System.traceOf .main r.1) == [helloPacket]) = true := by decide +kernel
  obtain ⟨⟨evs, cfg⟩, hexec, hplays⟩ := (Option.any_eq_true _ _).mp hplays
  simp only [Bool.and_eq_true, beq_iff_eq] at hplays
  obtain ⟨⟨hspawn, hwaits⟩, hshown⟩ := hplays
  obtain ⟨buf, stage, hwaits⟩ := eq_of_awaits hwaits
  have hrun := execute_run hexec
  exact ⟨evs, cfg, hrun, mem_of_startsMain hspawn, hshown,
    (shows_of_run (.sub readerArgs) hrun (mem_of_startsMain hspawn)).2 (.awaiting buf stage) hwaits trivial⟩

end AtomMqtt.Client
