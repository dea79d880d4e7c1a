import AtomMqtt.Library.Replay
import AtomMqtt.RouterOrder

set_option autoImplicit false

/-! The router alone. Nothing from outside decides what the router does, and none of its work on a message waits
for another task. Left to itself it comes to the end of its queue, in one way only. -/
namespace AtomMqtt
open Programs

section
variable {i : ThreadId} {s s₁ s₂ : Shared} {a : Action} {input input' : Input}

theorem perform_told {r : Reply a} (h₁ : s.perform i a input = some (s₁, r)) (h₂ : s.perform i a input' = some (s₂, r)) :
    s₁ = s₂ := by
  cases a with
  | read | wsNext | write what data | text message =>
    cases input <;> cases h₁
    cases input' <;> cases h₂
    rfl
  | selectTcp =>
    cases input with
    | received received =>
      cases h₁
      cases input' with
      | received _ =>
        cases h₂
        rfl
      | forwarded =>
        obtain ⟨_, _, heq⟩ := Option.map_eq_some_iff.mp h₂
        cases heq
      | _ => cases h₂
    | forwarded =>
      cases input' with
      | received _ =>
        cases h₂
        obtain ⟨_, _, heq⟩ := Option.map_eq_some_iff.mp h₁
        cases heq
      | forwarded =>
        cases Option.some.inj (h₁.symm.trans h₂)
        rfl
      | _ => cases h₂
    | _ => cases h₁
  | selectWs =>
    cases input with
    | frame f =>
      cases h₁
      cases input' with
      | frame _ =>
        cases h₂
        rfl
      | forwarded =>
        obtain ⟨_, _, heq⟩ := Option.map_eq_some_iff.mp h₂
        cases heq
      | _ => cases h₂
    | forwarded =>
      cases input' with
      | frame _ =>
        cases h₂
        obtain ⟨_, _, heq⟩ := Option.map_eq_some_iff.mp h₁
        cases heq
      | forwarded =>
        cases Option.some.inj (h₁.symm.trans h₂)
        rfl
      | ended =>
        cases h₂
        obtain ⟨_, _, heq⟩ := Option.map_eq_some_iff.mp h₁
        cases heq
      | _ => cases h₂
    | ended =>
      cases h₁
      cases input' with
      | forwarded =>
        obtain ⟨_, _, heq⟩ := Option.map_eq_some_iff.mp h₂
        cases heq
      | ended =>
        cases h₂
        rfl
      | _ => cases h₂
    | _ => cases h₁
  | selectWeb =>
    cases input with
    | webFrame f =>
      cases h₁
      cases input' with
      | webFrame _ =>
        cases h₂
        rfl
      | forwarded =>
        obtain ⟨_, _, heq⟩ := Option.map_eq_some_iff.mp h₂
        cases heq
      | _ => cases h₂
    | forwarded =>
      cases input' with
      | webFrame _ =>
        cases h₂
        obtain ⟨_, _, heq⟩ := Option.map_eq_some_iff.mp h₁
        cases heq
      | forwarded =>
        cases Option.some.inj (h₁.symm.trans h₂)
        rfl
      | _ => cases h₂
    | _ => cases h₁
  | _ =>
    cases Option.some.inj (h₁.symm.trans h₂)
    rfl

end

theorem brokerSystem_told (settings : Settings) : (brokerSystem settings).Told := by
  intro i node node₁ node₂ a input input' r h₁ h₂
  obtain ⟨⟨_, _⟩, hperform, heq⟩ := Option.map_eq_some_iff.mp h₁
  cases heq
  obtain ⟨⟨_, _⟩, hperform', heq⟩ := Option.map_eq_some_iff.mp h₂
  cases heq
  rw [perform_told hperform hperform']

def OfRouter (life : ℕ) (e : BrokerEvent) : Prop := ∃ a r, e = .act (.router life) a r

/-- What the router does at all. -/
def Routes (a : Action) : Prop := a = .recvRouter ∨ RouterAction a

section
variable {settings : Settings} {evs evs' : List BrokerEvent} {cfg cfg' cfg₁ cfg₂ : BrokerConfigState} {life : ℕ}

theorem perform_routes {i : ThreadId} {s : Shared} {a : Action} (ha : Routes a) (input input' : Input) :
    s.perform i a input = s.perform i a input' := by
  rcases ha with rfl | ha
  · rfl
  · cases a <;> first | rfl | exact ha.elim

theorem serving_routes {i : ThreadId} {p : Broker Control} (h : Serving p) {a : Action} {f : Reply a → Broker Control}
    (hnext : (brokerSystem settings).unroll i p = .act a f) : Routes a := by
  obtain ⟨q, honly, rfl⟩ := h
  cases honly with
  | ret _ =>
    cases hnext
    exact .inl rfl
  | act ha _ =>
    cases hnext
    exact .inr ha

theorem router_once (hserving : ∀ p, cfg.thread (.router life) = .running p → Serving p) {e₁ e₂ : BrokerEvent}
    (h₁ : (brokerSystem settings).Step cfg e₁ cfg₁) (hof₁ : OfRouter life e₁)
    (h₂ : (brokerSystem settings).Step cfg e₂ cfg₂) (hof₂ : OfRouter life e₂) : e₁ = e₂ ∧ cfg₁ = cfg₂ := by
  obtain ⟨a₁, r₁, rfl⟩ := hof₁
  obtain ⟨a₂, r₂, rfl⟩ := hof₂
  cases h₁ with
  | @act _ p _ _ input₁ node₁ _ hrunning₁ hnext₁ hperform₁ =>
    cases h₂ with
    | @act _ _ _ _ input₂ node₂ _ hrunning₂ hnext₂ hperform₂ =>
      cases hrunning₁.symm.trans hrunning₂
      cases hnext₁.symm.trans hnext₂
      have hroutes := serving_routes (hserving p hrunning₁) hnext₁
      have hsame : Node.perform (.router life) cfg.shared a₁ input₁ = Node.perform (.router life) cfg.shared a₁ input₂ :=
        congrArg (Option.map _) (perform_routes hroutes input₁ input₂)
      cases Option.some.inj (hperform₁.symm.trans (hsame.trans hperform₂))
      exact ⟨rfl, rfl⟩

theorem working_frame
    (h : (brokerSystem settings).RunOf (fun e => ∃ a r, e = .act (.router life) a r ∧ RouterAction a) cfg evs cfg') :
    cfg'.shared.shared.queue = cfg.shared.shared.queue ∧ cfg'.shared.life = cfg.shared.life := by
  induction h with
  | nil => exact ⟨rfl, rfl⟩
  | snoc _ step ok ih =>
    obtain ⟨a, r, rfl, ha⟩ := ok
    cases step with
    | act _ _ hperform =>
      obtain ⟨hperformed, -, hlife⟩ := node_performed hperform
      have hqueue : ∀ queue, a.onQueue (.router life) queue = queue := by
        intro queue
        cases a <;> first | rfl | exact ha.elim
      exact ⟨(hperformed.queue.trans (hqueue _)).trans ih.1, hlife.trans ih.2⟩

theorem rested_after (hrun : (brokerSystem settings).Run initial evs cfg) {p : Broker Control}
    (hrunning : cfg.thread (.router cfg.shared.life) = .running p) :
    ∃ evs' cfg', (brokerSystem settings).RunOf (OfRouter cfg.shared.life) cfg evs' cfg' ∧ rests cfg' = true ∧
      cfg'.shared.shared.queue = cfg.shared.shared.queue ∧ cfg'.shared.life = cfg.shared.life := by
  obtain ⟨evs', cfg', hafter, hrests, hevs⟩ := rests_after hrun hrunning
  have hcontinued := hrun.continued (brokerSystem_told settings) hafter
  obtain ⟨hqueue, hlife⟩ := working_frame (hcontinued.runOf hevs)
  refine ⟨evs', cfg', hcontinued.runOf ?_, hrests, hqueue, hlife⟩
  intro e he
  obtain ⟨a, r, rfl, -⟩ := hevs e he
  exact ⟨a, r, rfl⟩

theorem next_taken (settings : Settings) (h : rests cfg = true) {sent : ThreadId × BrokerMessage}
    {queue : List (ThreadId × BrokerMessage)}
    (hqueue : cfg.shared.shared.queue = sent :: queue) : ∃ cfg' p,
      (brokerSystem settings).Step cfg (.act (.router cfg.shared.life) .recvRouter sent) cfg' ∧
      cfg'.thread (.router cfg.shared.life) = .running p ∧ cfg'.shared.shared.queue = queue ∧ cfg'.shared.life = cfg.shared.life := by
  have hperform : Node.perform (.router cfg.shared.life) cfg.shared .recvRouter .go =
      some ({ cfg.shared with shared := { cfg.shared.shared with queue } }, sent) := by
    simp only [Node.perform, Shared.perform, hqueue]
    rfl
  exact ⟨_, _, .act (thread_of_rests h) rfl hperform, Function.update_self .., rfl, rfl⟩

theorem emptied_after (hrun : (brokerSystem settings).Run initial evs cfg) {p : Broker Control}
    (hrunning : cfg.thread (.router cfg.shared.life) = .running p) :
    ∃ evs' cfg', (brokerSystem settings).RunOf (OfRouter cfg.shared.life) cfg evs' cfg' ∧ rests cfg' = true ∧
      cfg'.shared.shared.queue = [] ∧ cfg'.shared.life = cfg.shared.life := by
  generalize hqueue : cfg.shared.shared.queue = queue
  induction queue generalizing evs cfg p with
  | nil =>
    obtain ⟨evs', cfg', hafter, hrests, hsame, hlife⟩ := rested_after hrun hrunning
    exact ⟨evs', cfg', hafter, hrests, hsame.trans hqueue, hlife⟩
  | cons sent queue ih =>
    obtain ⟨evs₁, cfg₁, hafter, hrests, hsame, hlife⟩ := rested_after hrun hrunning
    obtain ⟨cfg₂, q, hstep, hrunning', hqueue', hlife'⟩ := next_taken settings hrests (hsame.trans hqueue)
    rw [hlife] at hstep hrunning' hlife'
    have htaken : (brokerSystem settings).RunOf (OfRouter cfg.shared.life) cfg
        (evs₁ ++ [.act (.router cfg.shared.life) .recvRouter sent]) cfg₂ :=
      .snoc hafter hstep ⟨_, _, rfl⟩
    obtain ⟨evs₂, cfg', hrest, hdone, hempty, hlife''⟩ := ih (System.RunWhere.append hrun htaken) (hlife'.symm ▸ hrunning') hqueue'
    rw [hlife'] at hrest hlife''
    exact ⟨_, cfg', htaken.appendOf hrest, hdone, hempty, hlife''⟩

theorem idle_of_empty (hrests : rests cfg = true) (hempty : cfg.shared.shared.queue = []) {e : BrokerEvent}
    (hof : OfRouter cfg.shared.life e) : ¬ (brokerSystem settings).Step cfg e cfg' := by
  intro hstep
  obtain ⟨a, r, rfl⟩ := hof
  cases hstep with
  | act hrunning hnext hperform =>
    cases (thread_of_rests hrests).symm.trans hrunning
    cases hnext
    have hnone : ∀ input, Node.perform (.router cfg.shared.life) cfg.shared .recvRouter input = none := by
      intro input
      simp only [Node.perform, Shared.perform, hempty]
      rfl
    cases (hnone _).symm.trans hperform

theorem routes_of_run (hrun : (brokerSystem settings).Run initial evs cfg)
    (hafter : (brokerSystem settings).RunOf (OfRouter life) cfg evs' cfg') :
    ∀ e ∈ evs', ∃ a r, e = .act (.router life) a r ∧ Routes a := by
  induction hafter with
  | nil => exact List.forall_mem_nil _
  | @snoc evs' cfg' _ e run step ok ih =>
    refine List.forall_mem_append.mpr ⟨ih, List.forall_mem_singleton.mpr ?_⟩
    obtain ⟨a, r, rfl⟩ := ok
    cases step with
    | act hrunning hnext _ =>
      exact ⟨a, r, rfl, serving_routes (serving_of_run (System.RunWhere.append hrun run) _ _ hrunning) hnext⟩

theorem sent_of_routes (h : ∀ e ∈ evs', ∃ a r, e = .act (.router life) a r ∧ Routes a) :
    (journal (evs ++ evs')).sent = (journal evs).sent := by
  induction evs' using List.reverseRecOn with
  | nil => rw [List.append_nil]
  | append_singleton evs' e ih =>
    obtain ⟨hbefore, hlast⟩ := List.forall_mem_append.mp h
    obtain ⟨a, r, rfl, ha⟩ := List.forall_mem_singleton.mp hlast
    rw [← List.append_assoc, journal_snoc, ← ih hbefore]
    rcases ha with rfl | ha
    · rfl
    · cases a <;> first | rfl | exact ha.elim

/-- From every state in which the router runs, its steps alone lead to the state in which each message that has been sent is
    handled completely, in the order of sending, and they lead nowhere else. -/
theorem drains_of_run (hrun : (brokerSystem settings).Run initial evs cfg) {p : Broker Control}
    (hrunning : cfg.thread (.router cfg.shared.life) = .running p) :
    ∃ evs' cfg', (brokerSystem settings).RunOf (OfRouter cfg.shared.life) cfg evs' cfg' ∧
      cfg'.shared.shared.queue = [] ∧ (journal (evs ++ evs')).handled.map Handling.origin = (journal evs).sent ∧
      (∀ h ∈ (journal (evs ++ evs')).handled, h.Complete) ∧
      ∀ evs'' cfg'', (brokerSystem settings).RunOf (OfRouter cfg.shared.life) cfg evs'' cfg'' → evs'' <+: evs' := by
  obtain ⟨evs', cfg', hafter, hrests, hempty, hlife⟩ := emptied_after hrun hrunning
  have hall : (brokerSystem settings).Run initial (evs ++ evs') cfg' := System.RunWhere.append hrun hafter
  refine ⟨evs', cfg', hafter, hempty, ?_, ?_, ?_⟩
  · have hfifo := (keeps_of_run hall).sent
    rw [hempty, List.append_nil, sent_of_routes (routes_of_run hrun hafter)] at hfifo
    exact hfifo.symm
  · intro h hmem
    obtain ⟨n, hn⟩ := List.mem_iff_getElem?.mp hmem
    exact complete_of_run hall hn (.inr hrests)
  · intro evs'' cfg'' hother
    have hone : ∀ {evs₁ : List BrokerEvent} {cfg₁ cfg₂ cfg₃ : BrokerConfigState} {e₁ e₂ : BrokerEvent},
        (brokerSystem settings).RunOf (OfRouter cfg.shared.life) cfg evs₁ cfg₁ → (brokerSystem settings).Step cfg₁ e₁ cfg₂ →
        OfRouter cfg.shared.life e₁ → (brokerSystem settings).Step cfg₁ e₂ cfg₃ → OfRouter cfg.shared.life e₂ →
        e₁ = e₂ ∧ cfg₂ = cfg₃ :=
      fun hreached h₁ hof₁ h₂ hof₂ => router_once (serving_of_run (System.RunWhere.append hrun hreached) _) h₁ hof₁ h₂ hof₂
    rcases hother.comparable hone hafter with ⟨rest, rfl, -⟩ | ⟨rest, rfl, hrest⟩
    · exact List.prefix_append _ _
    · cases rest with
      | nil =>
        rw [List.append_nil]
      | cons e rest =>
        obtain ⟨cfg₁, hstep, hof, -⟩ := hrest.first
        exact absurd hstep (idle_of_empty hrests hempty (hlife.symm ▸ hof))

end

def waitingMoves : List BrokerMove :=
  subscribedMoves ++ [.spawn (.request 0) (.publishRequest "a" "y" 1 false)] ++ turns (.request 0) 3

theorem drains_of_run_waiting : ∃ evs cfg evs' cfg', (brokerSystem openSettings).Run initial evs cfg ∧
    cfg.shared.shared.queue.length = 2 ∧ (brokerSystem openSettings).RunOf (OfRouter cfg.shared.life) cfg evs' cfg' ∧
    (journal (evs ++ evs')).handled.map Handling.origin = (journal evs).sent := by
  have hplays : (execute openSettings waitingMoves).any (fun r => rests r.2 && r.2.shared.shared.queue.length == 2) = true := by
    decide +kernel
  obtain ⟨⟨evs, cfg⟩, hexec, hplays⟩ := (Option.any_eq_true _ _).mp hplays
  simp only [Bool.and_eq_true, beq_iff_eq] at hplays
  obtain ⟨evs', cfg', hafter, -, hhandled, -⟩ := drains_of_run (execute_run hexec) (thread_of_rests hplays.1)
  exact ⟨evs, cfg, evs', cfg', execute_run hexec, hplays.2, hafter, hhandled⟩

end AtomMqtt
