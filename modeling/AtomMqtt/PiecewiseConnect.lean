import AtomMqtt.FramedLosses
import AtomMqtt.Handover
import AtomMqtt.IncrementalDecoding
import Mathlib.Data.List.Infix

set_option autoImplicit false

/-! A CONNECT that comes in pieces. The WebSocket handler collects frames until it has the CONNECT; what stops
it is a part that ends inside the remaining length. The TCP handler reads once, and what it has read then is all
that it looks at. -/
namespace AtomMqtt
open Programs

/-- The pieces that `b` is sent in. -/
structure Splits (pieces : List Bytes) (b : Bytes) : Prop where
  whole : pieces.flatten = b
  nonempty : ∀ piece ∈ pieces, piece ≠ []

section
variable {version : ProtocolVersion} {b part missing : Bytes} {packet : MqttPacket} {c : ConnectFields}

theorem ValidConnect.length_pos (h : ValidConnect version b packet c) : 0 < b.length := by
  obtain ⟨remainingLen, lenBytes, rest, hr, -⟩ := h.named
  have hbounds := decodeRemainingLength_bounds hr
  rw [List.length_tail] at hbounds
  omega

theorem ValidConnect.decodeWhole (h : ValidConnect version b packet c) : decodeFirstPacket b = .ok (some packet) ∧
    decodePacketByVersion b c.version = .ok (some (packet, b.length)) := by
  obtain ⟨hfirst, hversion, hdecode⟩ := h.decodeFirst []
  rw [List.append_nil] at hfirst hdecode
  exact ⟨hfirst, hversion ▸ hdecode⟩

theorem ValidConnect.isFrame (h : ValidConnect version b packet c) : IsFrame b := by
  cases version with
  | V311 =>
    obtain ⟨_, _, _, tail, remainingLen, lenBytes, -, -, hframe⟩ := h.v3
    exact ⟨remainingLen, lenBytes, by rw [hframe.cons]; exact hframe.length, hframe.total⟩
  | V5 =>
    obtain ⟨_, _, _, tail, remainingLen, lenBytes, -, -, hframe⟩ := h.v5
    exact ⟨remainingLen, lenBytes, by rw [hframe.cons]; exact hframe.length, hframe.total⟩

theorem partLength {remainingLen lenBytes : ℕ} (first : UInt8) {second : UInt8} {rest : Bytes}
    (hr : decodeRemainingLength (second :: rest ++ missing) = .ok (remainingLen, lenBytes)) :
    InLength (first :: second :: rest) ∧ decodeRemainingLength (second :: rest) = err .MalformedRemainingLength ∨
      ¬ InLength (first :: second :: rest) ∧ decodeRemainingLength (second :: rest) = .ok (remainingLen, lenBytes) := by
  cases hpart : decodeRemainingLength (second :: rest) with
  | ok result =>
    refine .inr ⟨?_, ?_⟩
    · intro hin
      have hopen : decodeRemainingLength (second :: rest) = err .MalformedRemainingLength :=
        decodeRemainingLoop_open hin.2 0 0 1
      rw [hpart] at hopen
      cases hopen
    · rw [← hr, decodeRemainingLength_append hpart missing]
  | error e =>
    obtain rfl := decodeRemainingLength_error hpart
    have hfirst := (decodeRemainingLoop_error_iff (Nat.zero_le _)).mp hpart
    refine .inl ⟨⟨by simp, ?_⟩, rfl⟩
    by_contra hclosed
    have hlong : 4 ≤ (second :: rest).length := by
      by_contra hshort
      rw [List.take_of_length_le (by rw [MAX_REMAINING_LENGTH_BYTES]; omega)] at hfirst
      exact hclosed hfirst
    have hmalformed : decodeRemainingLength (second :: rest ++ missing) = err .MalformedRemainingLength := by
      apply (decodeRemainingLoop_error_iff (Nat.zero_le _)).mpr
      rw [List.take_append_of_le_length (by rw [MAX_REMAINING_LENGTH_BYTES]; omega)]
      exact hfirst
    rw [hr] at hmalformed
    cases hmalformed

theorem decodeFirstPacket_part (h : IsFrame b) (hsplit : part ++ missing = b) (hmissing : missing ≠ []) :
    decodeFirstPacket part = if InLength part then err .MalformedRemainingLength else .ok none := by
  obtain ⟨remainingLen, lenBytes, hr, htotal⟩ := h
  have hpos := List.length_pos_of_ne_nil hmissing
  match part with
  | [] => rfl
  | [first] =>
    have hnot : ¬ InLength [first] := fun hin => absurd hin.1 (by simp)
    rw [if_neg hnot]
    rfl
  | first :: second :: rest =>
    subst hsplit
    rw [List.length_append] at htotal
    rcases partLength first hr with ⟨hin, herror⟩ | ⟨hnot, hok⟩
    · rw [if_pos hin]
      simp only [decodeFirstPacket, herror]
      rfl
    · have hshort : (first :: second :: rest).length < 1 + lenBytes + remainingLen := by omega
      rw [if_neg hnot]
      simp only [decodeFirstPacket, hok, ok_bind, hshort, if_true]

theorem ValidConnect.not_inLength (h : ValidConnect version b packet c) : ¬ InLength b := by
  obtain ⟨remainingLen, lenBytes, hr, -⟩ := h.isFrame
  intro hin
  have hopen : decodeRemainingLength b.tail = err .MalformedRemainingLength := decodeRemainingLoop_open hin.2 0 0 1
  rw [← List.drop_one, hr] at hopen
  cases hopen

end

/-- What a handler takes in until it has its CONNECT. -/
def taken (tr : Trace Action Reply) : List Bytes :=
  tr.filterMap fun e =>
    match e with
    | ⟨.read, .data bytes⟩ => some bytes
    | ⟨.wsNext, .frame (.binary data)⟩ => some data
    | _ => none

theorem taken_append (tr tr' : Trace Action Reply) : taken (tr ++ tr') = taken tr ++ taken tr' := List.filterMap_append

def disturbs (e : Σ a : Action, Reply a) : Bool :=
  match e with
  | ⟨.read, .closed⟩ => true
  | ⟨.read, .failed⟩ => true
  | ⟨.wsNext, .frame .close⟩ => true
  | ⟨.wsNext, .failed⟩ => true
  | ⟨.wsNext, .ended⟩ => true
  | ⟨.write _ _, false⟩ => true
  | _ => false

def Undisturbed (tr : Trace Action Reply) : Prop := ∀ e ∈ tr, disturbs e = false

theorem undisturbed_append {tr tr' : Trace Action Reply} :
    Undisturbed (tr ++ tr') ↔ Undisturbed tr ∧ Undisturbed tr' := List.forall_mem_append

def Connacked (c : ConnectFields) (tr : Trace Action Reply) : Prop :=
  ∃ bytes, encodePacket (acceptedConnack c.version) = .ok bytes ∧ ⟨.write .connack bytes, true⟩ ∈ tr

/-- A handler that is left undisturbed gets the pieces, and accepts: at the latest when it has got them all, or when it
    ends. -/
structure AcceptsPieces (settings : Settings) (start : Control) (c : ConnectFields) (pieces : List Bytes) : Prop where
  arrives : ∃ h ctrl, History (body settings) start h ctrl ∧ Undisturbed (h.flatMap Prod.snd) ∧
    taken (h.flatMap Prod.snd) = pieces
  accepts : ∀ h ctrl, History (body settings) start h ctrl → Undisturbed (h.flatMap Prod.snd) →
    taken (h.flatMap Prod.snd) <+: pieces → (∃ ok, ctrl = .exited ok) ∨ taken (h.flatMap Prod.snd) = pieces →
      Connacked c (h.flatMap Prod.snd)

/-- Over TCP the CONNECT is accepted in these pieces as it is in one, and as it is over WebSocket. -/
structure AcceptsAlike (settings : Settings) (c : ConnectFields) (b : Bytes) (pieces : List Bytes) : Prop where
  tcp : AcceptsPieces settings .tcp c pieces
  atOnce : AcceptsPieces settings .tcp c [b]
  ws : AcceptsPieces settings (.ws []) c pieces

section
variable {settings : Settings} {c : ConnectFields} {username : String}

theorem Connacked.append_right {tr : Trace Action Reply} (h : Connacked c tr) (tr' : Trace Action Reply) :
    Connacked c (tr ++ tr') := by
  obtain ⟨bytes, hencode, hmem⟩ := h
  exact ⟨bytes, hencode, List.mem_append_left tr' hmem⟩

theorem Connacked.append_left {tr : Trace Action Reply} (h : Connacked c tr) (tr' : Trace Action Reply) :
    Connacked c (tr' ++ tr) := by
  obtain ⟨bytes, hencode, hmem⟩ := h
  exact ⟨bytes, hencode, List.mem_append_right tr' hmem⟩

theorem Undisturbed.writesSucceed {tr : Trace Action Reply} (h : Undisturbed tr) : WritesSucceed tr := by
  intro what data hmem
  have hwrite := h _ hmem
  cases hwrite

theorem acceptTcp_connacked {readBuf : Bytes} {tr : Trace Action Reply} {ctrl : Control}
    (hauth : settings.authenticator.authenticate settings.config.allowAnonymous c.username c.password = .Success username)
    (hexec : Exec (acceptTcp settings readBuf c) tr ctrl) (hup : Undisturbed tr) : Connacked c tr := by
  have haccepts : Ensures (Accepts c fun _ => True) (acceptTcp settings readBuf c) :=
    acceptTcp_accepts hauth (fun _ _ _ _ _ _ => trivial) fun _ => trivial
  exact ((haccepts.of_exec hexec).of_written hup.writesSucceed).1

theorem acceptWs_connacked {buf : Bytes} {packet : MqttPacket} {size : ℕ} {tr : Trace Action Reply} {ctrl : Control}
    (hauth : settings.authenticator.authenticate settings.config.allowAnonymous c.username c.password = .Success username)
    (hdecode : decodePacketByVersion buf c.version = .ok (some (packet, size)))
    (hexec : Exec (acceptWs settings buf c) tr ctrl) (hup : Undisturbed tr) : Connacked c tr := by
  have haccepts : Ensures (Accepts c fun _ => True) (acceptWs settings buf c) :=
    acceptWs_accepts hauth hdecode fun _ _ _ => trivial
  exact ((haccepts.of_exec hexec).of_written hup.writesSucceed).1

def Action.takes : Action → Bool
  | .read => true
  | .wsNext => true
  | _ => false

theorem taken_of_none {tr : Trace Action Reply} (h : ∀ e ∈ tr, e.1.takes = false) : taken tr = [] := by
  apply List.filterMap_eq_nil_iff.mpr
  rintro ⟨a, r⟩ he
  have ha := h _ he
  cases a with
  | read => cases ha
  | wsNext => cases ha
  | _ => rfl

theorem takes_of_accepting {a : Action} (h : Accepting a) : a.takes = false := by
  cases a <;> first | rfl | exact h.elim

theorem acceptTcp_takes (settings : Settings) (c : ConnectFields) (readBuf : Bytes) :
    Only (fun a => a.takes = false) (acceptTcp settings readBuf c) := by
  apply acceptTcp_only
  · exact fun _ => takes_of_accepting
  · intro _ _ _ _ clientId
    exact only_run rfl (only_run_last rfl)

theorem acceptWs_takes (settings : Settings) (c : ConnectFields) (buf : Bytes) :
    Only (fun a => a.takes = false) (acceptWs settings buf c) :=
  (acceptWs_accepting buf).mono fun _ => takes_of_accepting

theorem undisturbed_follow {α : Type} (p : Broker α) : Undisturbed (p.follow writableReply).1 := by
  rintro ⟨a, r⟩ he
  have hr : r = writableReply a := follow_reply writableReply p _ he
  subst hr
  cases a <;> rfl

theorem exists_undisturbed {p : Broker Control} (hp : Only (fun a => a.takes = false) p) :
    ∃ tr ctrl, Exec p tr ctrl ∧ Undisturbed tr ∧ taken tr = [] := by
  have hexec := exec_follow writableReply p
  exact ⟨_, _, hexec, undisturbed_follow p, taken_of_none (hp.ensures.of_exec hexec)⟩

end

section
variable {settings : Settings} {version : ProtocolVersion} {b : Bytes} {packet : MqttPacket} {c : ConnectFields}
  {username : String} {pieces : List Bytes}

theorem exec_read {tr : Trace Action Reply} {ctrl : Control} (hexec : Exec (handleConnection settings) tr ctrl) :
    ∃ r tail, tr = ⟨.read, r⟩ :: tail := by
  obtain ⟨r, tail, rfl, -⟩ := exec_act_iff.mp hexec
  exact ⟨r, tail, rfl⟩

theorem acceptsPieces_tcp (h : ValidConnect version b packet c)
    (hauth : settings.authenticator.authenticate settings.config.allowAnonymous c.username c.password = .Success username) :
    AcceptsPieces settings .tcp c [b] := by
  have hfirst := h.decodeWhole.1
  refine ⟨?_, ?_⟩
  · obtain ⟨tr, ctrl, hexec, hup, htaken⟩ := exists_undisturbed (acceptTcp_takes settings c b)
    refine ⟨[(.tcp, ⟨.read, .data b⟩ :: tr)], ctrl, ?_, ?_, ?_⟩
    · exact .turn ((exec_handleConnection hfirst h.fields).mpr hexec) (.done ctrl)
    · rw [List.flatMap_singleton]
      exact List.forall_mem_cons.mpr ⟨rfl, hup⟩
    · rw [List.flatMap_singleton]
      exact congrArg (List.cons b) htaken
  · intro hist ctrl hhistory hup htaken hend
    cases hhistory with
    | done =>
      rcases hend with ⟨ok, hexited⟩ | hall
      · cases hexited
      · cases hall
    | @turn _ c' _ tr rest hexec hrest =>
      rw [List.flatMap_cons] at hup htaken ⊢
      obtain ⟨hup, -⟩ := undisturbed_append.mp hup
      obtain ⟨r, tail, rfl⟩ := exec_read hexec
      obtain ⟨hread, htail⟩ := List.forall_mem_cons.mp hup
      cases r with
      | closed => cases hread
      | failed => cases hread
      | data bytes =>
        obtain ⟨rfl, -⟩ := List.cons_prefix_cons.mp htaken
        have hconnacked := acceptTcp_connacked hauth ((exec_handleConnection hfirst h.fields).mp hexec) htail
        exact (hconnacked.append_left [_]).append_right _

theorem exec_handleConnection_part (settings : Settings) {part missing : Bytes} (h : IsFrame b)
    (hsplit : part ++ missing = b) (hmissing : missing ≠ []) :
    ∃ ok, Exec (handleConnection settings) [⟨.read, .data part⟩] (.exited ok) := by
  have hpart := decodeFirstPacket_part h hsplit hmissing
  unfold handleConnection
  by_cases hin : InLength part
  · rw [if_pos hin] at hpart
    refine ⟨false, exec_ask_iff.mpr ?_⟩
    simp only [hpart, err]
    exact .ret _
  · rw [if_neg hin] at hpart
    refine ⟨true, exec_ask_iff.mpr ?_⟩
    simp only [hpart]
    exact .ret _

theorem Splits.ne_nil (hsplit : Splits pieces b) (h : ValidConnect version b packet c) : pieces ≠ [] := by
  rintro rfl
  have hpos := h.length_pos
  rw [← hsplit.whole] at hpos
  cases hpos

theorem flatten_ne_nil {rest : List Bytes} (hrest : rest ≠ []) (hpieces : ∀ piece ∈ rest, piece ≠ []) :
    rest.flatten ≠ [] := by
  intro hnil
  obtain ⟨piece, rest', rfl⟩ := List.exists_cons_of_ne_nil hrest
  rw [List.flatten_cons] at hnil
  exact hpieces piece List.mem_cons_self (List.append_eq_nil_iff.mp hnil).1

theorem AcceptsPieces.at_once (haccepts : AcceptsPieces settings .tcp c pieces) (h : ValidConnect version b packet c)
    (hsplit : Splits pieces b) : pieces = [b] := by
  obtain ⟨piece, rest, rfl⟩ := List.exists_cons_of_ne_nil (hsplit.ne_nil h)
  have hwhole := hsplit.whole
  rw [List.flatten_cons] at hwhole
  by_cases hrest : rest = []
  · subst hrest
    rw [List.flatten_nil, List.append_nil] at hwhole
    rw [hwhole]
  · have hmissing := flatten_ne_nil hrest fun p hp => hsplit.nonempty p (List.mem_cons_of_mem piece hp)
    obtain ⟨ok, hexec⟩ := exec_handleConnection_part settings h.isFrame hwhole hmissing
    have hhistory : History (body settings) .tcp [(.tcp, [⟨.read, .data piece⟩])] (.exited ok) := .turn hexec (.done _)
    have hup : Undisturbed [⟨.read, .data piece⟩] := List.forall_mem_singleton.mpr rfl
    have htaken : [piece] <+: piece :: rest := List.cons_prefix_cons.mpr ⟨rfl, List.nil_prefix⟩
    obtain ⟨bytes, -, hmem⟩ := haccepts.accepts _ _ hhistory hup htaken (.inl ⟨ok, rfl⟩)
    cases List.mem_singleton.mp hmem

end

section
variable {settings : Settings} {version : ProtocolVersion} {b : Bytes} {packet : MqttPacket} {c : ConnectFields}
  {username : String} {buf data : Bytes} {tr : Trace Action Reply} {ctrl : Control}

theorem exec_ws_part {missing : Bytes} (h : IsFrame b) (hsplit : buf ++ data ++ missing = b)
    (hmissing : missing ≠ []) : Exec (handleWsMqttSession settings buf) (⟨.wsNext, .frame (.binary data)⟩ :: tr) ctrl ↔
      tr = [] ∧ ctrl = if InLength (buf ++ data) then .exited true else .ws (buf ++ data) := by
  have hpart := decodeFirstPacket_part h hsplit hmissing
  unfold handleWsMqttSession
  rw [exec_ask_iff]
  by_cases hin : InLength (buf ++ data)
  · rw [if_pos hin] at hpart ⊢
    simp only [hpart, err]
    exact exec_ret_iff
  · rw [if_neg hin] at hpart ⊢
    simp only [hpart]
    exact exec_ret_iff

theorem exec_ws_whole (h : ValidConnect version b packet c) (hwhole : buf ++ data = b) :
    Exec (handleWsMqttSession settings buf) (⟨.wsNext, .frame (.binary data)⟩ :: tr) ctrl ↔
      Exec (acceptWs settings b c) tr ctrl := by
  unfold handleWsMqttSession
  rw [exec_ask_iff]
  simp only [hwhole, h.decodeWhole.1, handleConnectAfterDecode, h.fields]

theorem ws_turn (hexec : Exec (handleWsMqttSession settings buf) tr ctrl) (hup : Undisturbed tr) :
    taken tr = [] ∧ ctrl = .ws buf ∨ ∃ data tail, tr = ⟨.wsNext, .frame (.binary data)⟩ :: tail := by
  obtain ⟨item, tail, rfl, htail⟩ := exec_act_iff.mp hexec
  have hitem := hup _ List.mem_cons_self
  match item with
  | .frame (.binary data) => exact .inr ⟨data, tail, rfl⟩
  | .frame .close => cases hitem
  | .failed => cases hitem
  | .ended => cases hitem
  | .frame (.ping bytes) =>
    obtain ⟨r, tail', rfl, hret⟩ := exec_act_iff.mp htail
    obtain ⟨rfl, rfl⟩ := exec_ret_iff.mp hret
    exact .inl ⟨rfl, rfl⟩
  | .frame .pong =>
    obtain ⟨rfl, rfl⟩ := exec_ret_iff.mp htail
    exact .inl ⟨rfl, rfl⟩
  | .frame .other =>
    obtain ⟨rfl, rfl⟩ := exec_ret_iff.mp htail
    exact .inl ⟨rfl, rfl⟩

/-- With `buf` collected, `rest` completes the CONNECT, and no part ends inside the remaining length. -/
structure Completes (b buf : Bytes) (rest : List Bytes) : Prop where
  whole : buf ++ rest.flatten = b
  missing : rest ≠ []
  nonempty : ∀ piece ∈ rest, piece ≠ []
  clear : ∀ part, part <+: rest → ¬ InLength (buf ++ part.flatten)

namespace Completes
variable {piece : Bytes} {rest : List Bytes}

theorem last (h : Completes b buf [piece]) : buf ++ piece = b := by
  have hwhole := h.whole
  rwa [List.flatten_cons, List.flatten_nil, List.append_nil] at hwhole

theorem next (h : Completes b buf (piece :: rest)) (hrest : rest ≠ []) : Completes b (buf ++ piece) rest where
  whole := by
    rw [List.append_assoc]
    exact h.whole
  missing := hrest
  nonempty := fun p hp => h.nonempty p (List.mem_cons_of_mem piece hp)
  clear := by
    intro part hpart
    have hclear := h.clear (piece :: part) (List.cons_prefix_cons.mpr ⟨rfl, hpart⟩)
    rwa [List.flatten_cons, ← List.append_assoc] at hclear

theorem exec_part (hcompletes : Completes b buf (piece :: rest)) (h : ValidConnect version b packet c) (hrest : rest ≠ []) :
    Exec (handleWsMqttSession settings buf) (⟨.wsNext, .frame (.binary piece)⟩ :: tr) ctrl ↔
      tr = [] ∧ ctrl = .ws (buf ++ piece) := by
  have hnext := hcompletes.next hrest
  have hclear := hnext.clear [] List.nil_prefix
  rw [List.flatten_nil, List.append_nil] at hclear
  rw [exec_ws_part h.isFrame hnext.whole (flatten_ne_nil hrest hnext.nonempty), if_neg hclear]

end Completes

/-- What holds after every run: the CONNECT has been accepted, or all that has come is collected and more is missing. -/
theorem ws_run (h : ValidConnect version b packet c)
    (hauth : settings.authenticator.authenticate settings.config.allowAnonymous c.username c.password = .Success username)
    {hist : List (Control × Trace Action Reply)} (hhistory : History (body settings) (.ws buf) hist ctrl)
    {rest : List Bytes} (hcompletes : Completes b buf rest) (hup : Undisturbed (hist.flatMap Prod.snd))
    (htaken : taken (hist.flatMap Prod.snd) <+: rest) : Connacked c (hist.flatMap Prod.snd) ∨
      ctrl = .ws (buf ++ (taken (hist.flatMap Prod.snd)).flatten) ∧ taken (hist.flatMap Prod.snd) ≠ rest := by
  generalize hstart : Control.ws buf = start at hhistory
  induction hhistory generalizing buf rest with
  | done =>
    subst hstart
    refine .inr ⟨?_, hcompletes.missing.symm⟩
    rw [List.flatMap_nil, taken, List.filterMap_nil, List.flatten_nil, List.append_nil]
  | @turn _ c' _ tr hist hexec hhistory ih =>
    subst hstart
    rw [List.flatMap_cons] at hup htaken ⊢
    rw [taken_append] at htaken ⊢
    obtain ⟨hup, huprest⟩ := undisturbed_append.mp hup
    rcases ws_turn hexec hup with ⟨hnone, rfl⟩ | ⟨data, tail, rfl⟩
    · rw [hnone, List.nil_append] at htaken ⊢
      exact (ih hcompletes huprest htaken rfl).imp_left fun hconnacked => hconnacked.append_left tr
    · obtain ⟨piece, rest, rfl⟩ := List.exists_cons_of_ne_nil hcompletes.missing
      obtain ⟨rfl, hprefix⟩ := List.cons_prefix_cons.mp htaken
      by_cases hrest : rest = []
      · subst hrest
        have htail := (exec_ws_whole h hcompletes.last).mp hexec
        have hconnacked := acceptWs_connacked hauth h.decodeWhole.2 htail (List.forall_mem_cons.mp hup).2
        exact .inl ((hconnacked.append_left [_]).append_right _)
      · obtain ⟨rfl, rfl⟩ := (hcompletes.exec_part h hrest).mp hexec
        rcases ih (hcompletes.next hrest) huprest hprefix rfl with hconnacked | ⟨rfl, hmissing⟩
        · exact .inl (hconnacked.append_left [_])
        · refine .inr ⟨congrArg Control.ws (List.append_assoc _ _ _), ?_⟩
          intro hall
          exact hmissing (List.cons_inj_right data |>.mp hall)

theorem ws_arrives (h : ValidConnect version b packet c) {rest : List Bytes} (hcompletes : Completes b buf rest) :
    ∃ hist ctrl, History (body settings) (.ws buf) hist ctrl ∧ Undisturbed (hist.flatMap Prod.snd) ∧
      taken (hist.flatMap Prod.snd) = rest := by
  induction rest generalizing buf with
  | nil => exact absurd rfl hcompletes.missing
  | cons piece rest ih =>
    by_cases hrest : rest = []
    · subst hrest
      obtain ⟨tr, ctrl, hexec, hup, htaken⟩ := exists_undisturbed (acceptWs_takes settings c b)
      refine ⟨_, ctrl, .turn ((exec_ws_whole h hcompletes.last).mpr hexec) (.done ctrl), ?_, ?_⟩
      · rw [List.flatMap_singleton]
        exact List.forall_mem_cons.mpr ⟨rfl, hup⟩
      · rw [List.flatMap_singleton]
        exact congrArg (List.cons piece) htaken
    · have hexec : Exec (handleWsMqttSession settings buf) _ _ := (hcompletes.exec_part h hrest).mpr ⟨rfl, rfl⟩
      obtain ⟨hist, ctrl, hhistory, hup, htaken⟩ := ih (hcompletes.next hrest)
      refine ⟨_, ctrl, .turn hexec hhistory, ?_, ?_⟩
      · rw [List.flatMap_cons]
        exact List.forall_mem_cons.mpr ⟨rfl, hup⟩
      · rw [List.flatMap_cons]
        exact congrArg (List.cons piece) htaken

theorem ws_gives_up (settings : Settings) (h : ValidConnect version b packet c) {rest part : List Bytes}
    (hwhole : buf ++ rest.flatten = b)
    (hbuf : ¬ InLength buf) (hpart : part <+: rest) (hin : InLength (buf ++ part.flatten)) :
    ∃ hist, History (body settings) (.ws buf) hist (.exited true) ∧ Undisturbed (hist.flatMap Prod.snd) ∧
      taken (hist.flatMap Prod.snd) <+: rest ∧ ∀ e ∈ hist.flatMap Prod.snd, e.1 = .wsNext := by
  induction rest generalizing buf part with
  | nil =>
    obtain rfl := List.prefix_nil.mp hpart
    rw [List.flatten_nil, List.append_nil] at hin
    exact absurd hin hbuf
  | cons piece rest ih =>
    rw [List.flatten_cons, ← List.append_assoc] at hwhole
    match part with
    | [] =>
      rw [List.flatten_nil, List.append_nil] at hin
      exact absurd hin hbuf
    | first :: part =>
      obtain ⟨rfl, hprefix⟩ := List.cons_prefix_cons.mp hpart
      rw [List.flatten_cons, ← List.append_assoc] at hin
      have hmissing : rest.flatten ≠ [] := by
        intro hnil
        rw [hnil, List.append_nil] at hwhole
        have hnone : part.flatten = [] := by
          obtain ⟨_, rfl⟩ := hprefix
          rw [List.flatten_append] at hnil
          exact (List.append_eq_nil_iff.mp hnil).1
        rw [hnone, List.append_nil, hwhole] at hin
        exact h.not_inLength hin
      have hexec : Exec (handleWsMqttSession settings buf) _ _ := (exec_ws_part h.isFrame hwhole hmissing).mpr ⟨rfl, rfl⟩
      have hread : ∀ e ∈ ([⟨.wsNext, .frame (.binary first)⟩] : Trace Action Reply), e.1 = .wsNext :=
        List.forall_mem_singleton.mpr rfl
      by_cases hfirst : InLength (buf ++ first)
      · rw [if_pos hfirst] at hexec
        refine ⟨_, .turn hexec (.done _), List.forall_mem_singleton.mpr rfl, ?_, hread⟩
        exact List.cons_prefix_cons.mpr ⟨rfl, List.nil_prefix⟩
      · rw [if_neg hfirst] at hexec
        obtain ⟨hist, hhistory, hup, htaken, honly⟩ := ih hwhole hfirst hprefix hin
        refine ⟨_, .turn hexec hhistory, ?_, ?_, ?_⟩
        · rw [List.flatMap_cons]
          exact List.forall_mem_cons.mpr ⟨rfl, hup⟩
        · rw [List.flatMap_cons]
          exact List.cons_prefix_cons.mpr ⟨rfl, htaken⟩
        · rw [List.flatMap_cons]
          exact List.forall_mem_append.mpr ⟨hread, honly⟩

theorem acceptsPieces_ws_iff (h : ValidConnect version b packet c)
    (hauth : settings.authenticator.authenticate settings.config.allowAnonymous c.username c.password = .Success username)
    {pieces : List Bytes} (hsplit : Splits pieces b) :
    AcceptsPieces settings (.ws []) c pieces ↔ ∀ part, part <+: pieces → ¬ InLength part.flatten := by
  constructor
  · intro haccepts part hpart hin
    have hnone : ¬ InLength [] := fun hin => absurd hin.1 (by simp)
    obtain ⟨hist, hhistory, hup, htaken, honly⟩ := ws_gives_up settings h hsplit.whole hnone hpart hin
    obtain ⟨bytes, -, hmem⟩ := haccepts.accepts hist _ hhistory hup htaken (.inl ⟨true, rfl⟩)
    cases honly _ hmem
  · intro hclear
    have hcompletes : Completes b [] pieces := ⟨hsplit.whole, hsplit.ne_nil h, hsplit.nonempty, hclear⟩
    refine ⟨ws_arrives h hcompletes, ?_⟩
    intro hist ctrl hhistory hup htaken hend
    rcases ws_run h hauth hhistory hcompletes hup htaken with hconnacked | ⟨rfl, hmissing⟩
    · exact hconnacked
    · rcases hend with ⟨ok, hexited⟩ | hall
      · cases hexited
      · exact absurd hall hmissing

end

/-- `BytesMut::with_capacity(4096)`: the first read of `handle_connection` brings at most this. -/
def READ_BUF_CAPACITY : ℕ := 4096

/-- Over TCP a CONNECT is accepted when it is there with the first read, and in no other pieces; one that is longer than
    a read can be never is. Over WebSocket it is accepted in all pieces but those of which some end inside the
    remaining length. -/
theorem connectInPieces_iff {settings : Settings} {version : ProtocolVersion} {b : Bytes} {packet : MqttPacket}
    {c : ConnectFields} {username : String} {pieces : List Bytes} (hvalid : ValidConnect version b packet c)
    (hauth : settings.authenticator.authenticate settings.config.allowAnonymous c.username c.password =
      .Success username) (hsplit : Splits pieces b) :
    (AcceptsAlike settings c b pieces ↔ pieces = [b]) ∧
      (AcceptsPieces settings (.ws []) c pieces ↔ ∀ part, part <+: pieces → ¬ InLength part.flatten) ∧
      (READ_BUF_CAPACITY < b.length → (∀ piece ∈ pieces, piece.length ≤ READ_BUF_CAPACITY) →
        ¬ AcceptsPieces settings .tcp c pieces) := by
  refine ⟨⟨fun haccepts => haccepts.tcp.at_once hvalid hsplit, ?_⟩, acceptsPieces_ws_iff hvalid hauth hsplit, ?_⟩
  · rintro rfl
    have htcp := acceptsPieces_tcp hvalid hauth
    refine ⟨htcp, htcp, (acceptsPieces_ws_iff hvalid hauth hsplit).mpr ?_⟩
    intro part hpart hin
    rcases List.prefix_cons_iff.mp hpart with rfl | ⟨part, rfl, hprefix⟩
    · exact absurd hin.1 (by simp)
    · obtain rfl := List.prefix_nil.mp hprefix
      rw [List.flatten_singleton] at hin
      exact hvalid.not_inLength hin
  · intro hlong hfits htcp
    obtain rfl := htcp.at_once hvalid hsplit
    have hfit := hfits b List.mem_cons_self
    omega

theorem connectInPieces_plainConnect :
    let b := sentBytes (.V311 (.Connect (plainConnectV3 "c" true none)))
    (AcceptsAlike openSettings (plainFields .V311) b [b] ↔ [b] = [b]) ∧
      (AcceptsPieces openSettings (.ws []) (plainFields .V311) [b] ↔ ∀ part, part <+: [b] → ¬ InLength part.flatten) ∧
      (READ_BUF_CAPACITY < b.length → (∀ piece ∈ [b], piece.length ≤ READ_BUF_CAPACITY) →
        ¬ AcceptsPieces openSettings .tcp (plainFields .V311) [b]) := by
  have hauth : openSettings.authenticator.authenticate openSettings.config.allowAnonymous none none =
    .Success "anonymous" := by decide
  have hsplit : Splits [sentBytes (.V311 (.Connect (plainConnectV3 "c" true none)))]
      (sentBytes (.V311 (.Connect (plainConnectV3 "c" true none)))) :=
    ⟨List.flatten_singleton, List.forall_mem_singleton.mpr (by decide +kernel)⟩
  exact connectInPieces_iff plainConnectV3_valid hauth hsplit

/-- The first byte, and then the others. -/
theorem not_connectInPieces_firstByte :
    let b := sentBytes (.V311 (.Connect (plainConnectV3 "c" true none)))
    ValidConnect .V311 b (.V311 (.Connect (plainConnectV3 "c" true none))) (plainFields .V311) ∧
      openSettings.authenticator.authenticate openSettings.config.allowAnonymous none none = .Success "anonymous" ∧
      Splits [b.take 1, b.drop 1] b ∧ AcceptsPieces openSettings (.ws []) (plainFields .V311) [b.take 1, b.drop 1] ∧
      AcceptsPieces openSettings .tcp (plainFields .V311) [b] ∧
      ¬ AcceptsPieces openSettings .tcp (plainFields .V311) [b.take 1, b.drop 1] := by
  intro b
  have hauth : openSettings.authenticator.authenticate openSettings.config.allowAnonymous none none =
    .Success "anonymous" := by decide
  have hsplit : Splits [b.take 1, b.drop 1] b := by
    refine ⟨?_, ?_⟩
    · rw [List.flatten_cons, List.flatten_singleton, List.take_append_drop]
    · decide +kernel
  refine ⟨plainConnectV3_valid, hauth, hsplit, ?_, acceptsPieces_tcp plainConnectV3_valid hauth, ?_⟩
  · apply (acceptsPieces_ws_iff plainConnectV3_valid hauth hsplit).mpr
    intro part hpart
    have hinits : ∀ part ∈ [b.take 1, b.drop 1].inits, ¬ InLength part.flatten := by decide +kernel
    exact hinits part ((List.mem_inits _ _).mpr hpart)
  · intro haccepts
    have hone := haccepts.at_once plainConnectV3_valid hsplit
    cases hone

end AtomMqtt
