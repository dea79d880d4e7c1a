import AtomMqtt.FirstPacket
import AtomMqtt.PacketTraces

set_option autoImplicit false

/-! How a connection handler ends. The cleanup block stands after the packet loop and is reached by `break`
only. What is left with `?` between the registration and the end of the loop skips it. -/
namespace AtomMqtt
open Programs

abbrev Entry := Σ a : Action, Reply a

/-- The registration and the actions that belong to the cleanup block alone. -/
def Marks : Action → Prop
  | .sessionsInsert _ _ | .connectionsRemove _ | .metrics .decrementClientsConnected
  | .sendRouter (.ClientDisconnected _ _) => True
  | _ => False

/-- A failed write of a CONNACK or a response, or a failed read of the TCP loop. -/
def Breaks : Entry → Prop
  | ⟨.write what _, sent⟩ => what ≠ .forwarded ∧ sent = false
  | ⟨.selectTcp, event⟩ => event = .received .failed
  | _ => False

def Unmarked (tr : Trace Action Reply) : Prop := ∀ e ∈ tr, ¬ Marks e.1

def Quiet (tr : Trace Action Reply) : Prop := ∀ e ∈ tr, ¬ Marks e.1 ∧ ¬ Breaks e

theorem Quiet.nil : Quiet [] := List.forall_mem_nil _

theorem Quiet.append {tr tr' : Trace Action Reply} (h : Quiet tr) (h' : Quiet tr') : Quiet (tr ++ tr') :=
  List.forall_mem_append.mpr ⟨h, h'⟩

theorem Quiet.cons {e : Entry} {tr : Trace Action Reply} (hmarks : ¬ Marks e.1) (hbreaks : ¬ Breaks e) (h : Quiet tr) :
    Quiet (e :: tr) := List.forall_mem_cons.mpr ⟨⟨hmarks, hbreaks⟩, h⟩

theorem Quiet.unmarked {tr : Trace Action Reply} (h : Quiet tr) : Unmarked tr := fun e he => (h e he).1

theorem Unmarked.append {tr tr' : Trace Action Reply} (h : Unmarked tr) (h' : Unmarked tr') : Unmarked (tr ++ tr') :=
  List.forall_mem_append.mpr ⟨h, h'⟩

def Control.connLoop : Control → Option ConnLoop
  | .tcpLoop l => some l
  | .wsLoop l => some l
  | .wsLost l => some l
  | _ => none

def cleanupTrace (clientId : String) (cleanSession found : Bool) : Trace Action Reply :=
  [⟨.connectionsRemove clientId, ()⟩, ⟨.metrics .decrementClientsConnected, ()⟩,
    ⟨.sessionsSetDisconnected clientId, found⟩, ⟨.sendRouter (.ClientDisconnected clientId cleanSession), ()⟩]

def Drops (tr : Trace Action Reply) : Prop := ∀ e ∈ tr, e.1 = .dropReceiver

theorem Drops.quiet {tr : Trace Action Reply} (h : Drops tr) : Quiet tr := by
  rintro ⟨a, r⟩ he
  obtain rfl : a = .dropReceiver := h _ he
  exact ⟨id, id⟩

/-- The cleanup block after quiet actions, or no part of it and a break. -/
def Outcome (clientId : String) (cleanSession : Bool) (tr : Trace Action Reply) : Prop :=
  (∃ tr₁ found drops, tr = tr₁ ++ (cleanupTrace clientId cleanSession found ++ drops) ∧ Quiet tr₁ ∧ Drops drops) ∨
    (Unmarked tr ∧ ∃ e ∈ tr, Breaks e)

theorem Outcome.prepend {clientId : String} {cleanSession : Bool} {tr tr' : Trace Action Reply} (hquiet : Quiet tr)
    (h : Outcome clientId cleanSession tr') : Outcome clientId cleanSession (tr ++ tr') := by
  cases h with
  | inl h =>
    obtain ⟨tr₁, found, drops, rfl, hquiet', hdrops⟩ := h
    exact .inl ⟨tr ++ tr₁, found, drops, by rw [List.append_assoc], hquiet.append hquiet', hdrops⟩
  | inr h =>
    obtain ⟨hunmarked, e, he, hbreaks⟩ := h
    exact .inr ⟨hquiet.unmarked.append hunmarked, e, List.mem_append_right tr he, hbreaks⟩

theorem Outcome.drops {clientId : String} {cleanSession : Bool} {tr tr' : Trace Action Reply}
    (h : Outcome clientId cleanSession tr) (hdrops : Drops tr') : Outcome clientId cleanSession (tr ++ tr') := by
  cases h with
  | inl h =>
    obtain ⟨tr₁, found, drops, rfl, hquiet, hdrops'⟩ := h
    refine .inl ⟨tr₁, found, drops ++ tr', by simp, hquiet, ?_⟩
    exact List.forall_mem_append.mpr ⟨hdrops', hdrops⟩
  | inr h =>
    obtain ⟨hunmarked, e, he, hbreaks⟩ := h
    exact .inr ⟨hunmarked.append hdrops.quiet.unmarked, e, List.mem_append_left tr' he, hbreaks⟩

/-- A turn of a loop goes on quietly or ends the task. -/
def TurnOutcome (l : ConnLoop) (tr : Trace Action Reply) (ctrl : Control) : Prop :=
  (∃ l', ctrl.connLoop = some l' ∧ l'.clientId = l.clientId ∧ l'.cleanSession = l.cleanSession ∧ Quiet tr) ∨
    ∃ ok, ctrl = .exited ok ∧ Outcome l.clientId l.cleanSession tr

section
variable {settings : Settings} {l : ConnLoop}

theorem TurnOutcome.prepend {tr tr' : Trace Action Reply} {ctrl : Control} (hquiet : Quiet tr)
    (h : TurnOutcome l tr' ctrl) : TurnOutcome l (tr ++ tr') ctrl := by
  cases h with
  | inl h =>
    obtain ⟨l', hloop, hclient, hclean, hquiet'⟩ := h
    exact .inl ⟨l', hloop, hclient, hclean, hquiet.append hquiet'⟩
  | inr h =>
    obtain ⟨ok, rfl, houtcome⟩ := h
    exact .inr ⟨ok, rfl, houtcome.prepend hquiet⟩

end

theorem exited_turn {settings : Settings} {ok : Bool} {tr : Trace Action Reply} {ctrl : Control}
    (h : Exec (body settings (.exited ok)) tr ctrl) : Drops tr ∧ ctrl = .exited ok := by
  have hbody : Ensures (fun tr c => Drops tr ∧ c = .exited ok) (body settings (.exited ok)) := by
    apply ensures_run
    intro _
    exact .ret ⟨List.forall_mem_singleton.mpr rfl, rfl⟩
  exact hbody.of_exec h

theorem exited_turns {settings : Settings} {ok : Bool} {tr : Trace Action Reply} {ctrl : Control}
    (h : Turns (body settings) (.exited ok) tr ctrl) : Drops tr ∧ ctrl = .exited ok := by
  generalize hstart : Control.exited ok = start at h
  induction h with
  | done c =>
    subst hstart
    exact ⟨List.forall_mem_nil _, rfl⟩
  | turn first rest ih =>
    subst hstart
    obtain ⟨hdrops, rfl⟩ := exited_turn first
    obtain ⟨hdrops', rfl⟩ := ih rfl
    exact ⟨List.forall_mem_append.mpr ⟨hdrops, hdrops'⟩, rfl⟩

/-- The session that a run inserts first, and what it performs after that. -/
def registration : Trace Action Reply → Option (String × SessionState × Trace Action Reply)
  | [] => none
  | ⟨.sessionsInsert clientId session, _⟩ :: post => some (clientId, session, post)
  | _ :: tr => registration tr

theorem registration_cons {e : Entry} (h : ¬ Marks e.1) (tr : Trace Action Reply) :
    registration (e :: tr) = registration tr := by
  obtain ⟨a, r⟩ := e
  cases a <;> first | rfl | exact absurd True.intro h

/-- After the registration a handler enters its loop, or gives up: a break, or `gives`. -/
def Registered (gives : SessionState → Prop) (clientId : String) (session : SessionState) (post : Trace Action Reply)
    (ctrl : Control) : Prop :=
  (∃ l, ctrl.connLoop = some l ∧ l.clientId = clientId ∧ l.cleanSession = session.cleanSession ∧ Quiet post ∧
      ¬ gives session) ∨
    (∃ ok, ctrl = .exited ok) ∧ Unmarked post ∧ ((∃ e ∈ post, Breaks e) ∨ gives session)

/-- The turns before the loop: nothing is registered, or what follows is as above. -/
def Connects (gives : SessionState → Prop) (tr : Trace Action Reply) (ctrl : Control) : Prop :=
  (Unmarked tr ∧ ((∃ buf, ctrl = .ws buf ∧ ∀ session, ¬ gives session) ∨ ∃ ok, ctrl = .exited ok)) ∨
    ∃ clientId session post, registration tr = some (clientId, session, post) ∧
      Registered gives clientId session post ctrl

section
variable {settings : Settings} {gives : SessionState → Prop} {clientId : String}
  {session : SessionState} {c : ConnectFields} {username : String}

theorem Registered.prepend {tr tr' : Trace Action Reply} {ctrl : Control} (hquiet : Quiet tr)
    (h : Registered gives clientId session tr' ctrl) : Registered gives clientId session (tr ++ tr') ctrl := by
  cases h with
  | inl h =>
    obtain ⟨l, hloop, hclient, hclean, hquiet', hgives⟩ := h
    exact .inl ⟨l, hloop, hclient, hclean, hquiet.append hquiet', hgives⟩
  | inr h =>
    obtain ⟨hexited, hunmarked, hwhy⟩ := h
    refine .inr ⟨hexited, hquiet.unmarked.append hunmarked, ?_⟩
    cases hwhy with
    | inl hbreaks =>
      obtain ⟨e, he, hbreaks⟩ := hbreaks
      exact .inl ⟨e, List.mem_append_right tr he, hbreaks⟩
    | inr hgives => exact .inr hgives

theorem Connects.cons {e : Entry} {tr : Trace Action Reply} {ctrl : Control} (hmarks : ¬ Marks e.1)
    (h : Connects gives tr ctrl) : Connects gives (e :: tr) ctrl := by
  cases h with
  | inl h => exact .inl ⟨List.forall_mem_cons.mpr ⟨hmarks, h.1⟩, h.2⟩
  | inr h =>
    obtain ⟨clientId, session, post, hregistration, hregistered⟩ := h
    exact .inr ⟨clientId, session, post, by rw [registration_cons hmarks, hregistration], hregistered⟩

end

end AtomMqtt
