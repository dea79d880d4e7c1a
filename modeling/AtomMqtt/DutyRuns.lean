import AtomMqtt.Duties
import AtomMqtt.Library.WriteBehind

set_option autoImplicit false

/-! What is owed in the course of a run. What a task may owe it never begins, so each of its listed actions is
one or the other by its kind. -/
namespace AtomMqtt
open Programs

/-- What a task that runs owes; a task that a restart has ended owes nothing. -/
def owed (evs : List BrokerEvent) (cfg : BrokerConfigState) (i : ThreadId) : List Action :=
  match cfg.thread i with
  | .running _ => (duties evs i).owes
  | _ => []

def actors (evs : List BrokerEvent) : List ThreadId :=
  evs.filterMap fun
    | .act i _ _ => some i
    | _ => none

theorem owes_of_idle {evs : List BrokerEvent} {j : ThreadId} (h : j ∉ actors evs) : (duties evs j).owes = [] := by
  induction evs using List.reverseRecOn with
  | nil => rfl
  | append_singleton evs e ih =>
    rw [actors, List.filterMap_append, List.mem_append, not_or] at h
    rw [duties, Observer.ghosts_snoc]
    cases e with
    | spawn i c =>
      by_cases hj : j = i
      · subst hj
        simp only [Observer.step, Function.update_self]
        rfl
      · simp only [Observer.step, Function.update_of_ne hj]
        exact ih h.1
    | act i a r =>
      have hj : j ≠ i := fun heq => h.2 (by simp [heq])
      simp only [Observer.step, Function.update_of_ne hj]
      exact ih h.1
    | world w => exact ih h.1

theorem owed_of_idle {evs : List BrokerEvent} {cfg : BrokerConfigState} {j : ThreadId} (h : j ∉ actors evs) :
    owed evs cfg j = [] := by
  unfold owed
  split
  · exact owes_of_idle h
  · rfl

def othersTell {V : Type} (tells : Action → Option (Option V)) (evs : List BrokerEvent) (cfg : BrokerConfigState)
    (i : ThreadId) : Bool :=
  (actors evs).any fun j => j != i && (owed evs cfg j).any fun a => (tells a).isSome

theorem othersTell_false {V : Type} {tells : Action → Option (Option V)} {evs : List BrokerEvent}
    {cfg : BrokerConfigState} {i : ThreadId} (h : ∀ j, j ≠ i → Silent tells (owed evs cfg j)) :
    othersTell tells evs cfg i = false := by
  rw [othersTell, List.any_eq_false]
  intro j _ htells
  rw [Bool.and_eq_true, bne_iff_ne, List.any_eq_true] at htells
  obtain ⟨hj, b, hb, hsome⟩ := htells
  rw [h j hj b hb] at hsome
  cases hsome

/-- One router runs at a time, that of the life of the broker; those of later lives have not begun. -/
structure OneRouter (life : ℕ) (thread : ThreadId → Thread Action Reply Control) : Prop where
  later : ∀ l, life < l → thread (.router l) = .fresh
  now : ∀ l p, thread (.router l) = .running p → l = life

theorem OneRouter.update {life : ℕ} {thread : ThreadId → Thread Action Reply Control} (h : OneRouter life thread)
    {i : ThreadId} (hi : ∀ l, i = .router l → l = life) (t : Thread Action Reply Control) :
    OneRouter life (Function.update thread i t) where
  later := by
    intro l hlt
    have hne : .router l ≠ i := by
      intro heq
      have := hi l heq.symm
      omega
    rw [Function.update_of_ne hne]
    exact h.later l hlt
  now := by
    intro l p hrunning
    by_cases heq : .router l = i
    · exact hi l heq.symm
    · rw [Function.update_of_ne heq] at hrunning
      exact h.now l p hrunning

theorem OneRouter.restart {life : ℕ} {thread : ThreadId → Thread Action Reply Control} (h : OneRouter life thread) :
    OneRouter (life + 1) fun i => (thread i).ended where
  later := by
    intro l hlt
    rw [h.later l (by omega)]
    rfl
  now := by
    intro l p hrunning
    cases ht : thread (.router l) <;> simp [ht, Thread.ended] at hrunning

theorem oneRouter_of_run {settings : Settings}
    {P : List BrokerEvent → BrokerConfigState → BrokerEvent → BrokerConfigState → Prop} {evs : List BrokerEvent}
    {cfg : BrokerConfigState} (hrun : (brokerSystem settings).RunWhere P initial evs cfg) :
    OneRouter cfg.shared.life cfg.thread := by
  induction hrun with
  | nil => exact ⟨fun _ _ => rfl, fun _ _ h => by cases h⟩
  | snoc run step ok ih =>
    cases step with
    | @spawn i c hfresh hstart =>
      apply ih.update
      intro l hi
      subst hi
      cases c <;> first | cases hstart | exact beq_iff_eq.mp hstart
    | @act i p a k input node r hrunning hnext hperform =>
      obtain ⟨⟨shared, r'⟩, _, heq⟩ := Option.map_eq_some_iff.mp hperform
      cases heq
      apply ih.update
      intro l hi
      subst hi
      exact ih.now l p hrunning
    | @world w node ends hworld =>
      cases w with
      | commit n =>
        cases hworld
        exact ih
      | restart =>
        obtain ⟨rfl, rfl⟩ := restart_of_world hworld
        exact ih.restart

/-- A task whose turn comes: what it does next, and what it owes after that. -/
structure Acts (i : ThreadId) (n : Note) (owes : List Action) (a : Action) (r : Reply a) (owes' : List Action) : Prop where
  owable : ∀ b ∈ owes, Owable i b
  due : a.listed = true → (agenda i).Due ⟨n, owes⟩ a
  owes' : owes' = ((agenda i).next ⟨n, owes⟩ a r).owes

namespace Acts
variable {i : ThreadId} {n : Note} {owes owes' : List Action} {a : Action} {r : Reply a}

theorem unlisted (h : Acts i n owes a r owes') (hlisted : a.listed = false) : owes' = owes := by
  rw [h.owes', Agenda.next]
  change follows i _ a r ++ (if a.listed = true ∧ _ then _ else _) = _
  simp [follows_unlisted hlisted, hlisted]

theorem owed (h : Acts i n owes a r owes') (hlisted : a.listed = true) (howable : Owable i a) :
    ∃ rest, owes = a :: rest ∧ owes' = follows i (n.next a r) a r ++ rest := by
  cases h.due hlisted with
  | @owed rest howes =>
    refine ⟨rest, howes, ?_⟩
    rw [h.owes', Agenda.next_owed hlisted howes]
    rfl
  | begun _ hbegins => exact absurd howable (not_owable_of_begins hbegins)

theorem begun (h : Acts i n owes a r owes') (hlisted : a.listed = true) (howable : ¬ Owable i a) :
    owes = [] ∧ Begins i a ∧ owes' = follows i (n.next a r) a r := by
  cases h.due hlisted with
  | owed howes =>
    have howes' : owes = _ := howes
    exact absurd (h.owable a (howes' ▸ List.mem_cons_self)) howable
  | begun howes hbegins =>
    refine ⟨howes, hbegins, ?_⟩
    rw [h.owes', Agenda.next_begun howes]
    rfl

theorem owable_or_begins (h : Acts i n owes a r owes') (hlisted : a.listed = true) : Owable i a ∨ Begins i a := by
  by_cases howable : Owable i a
  · exact .inl howable
  · exact .inr (h.begun hlisted howable).2.1

theorem never (h : Acts i n owes a r owes') (hlisted : a.listed = true) (howable : ¬ Owable i a) (hbegins : ¬ Begins i a) :
    False := (h.owable_or_begins hlisted).elim howable hbegins

theorem sendEvent_owable {event : PersistEvent} {r : Unit} (h : Acts i n owes (.sendEvent event) r owes') :
    Owable i (.sendEvent event) := by
  by_contra hnot
  have hbegins := (h.begun rfl hnot).2.1
  cases i <;> exact hbegins.elim

theorem kept (h : Acts i n owes a r owes') : ∀ b ∈ owes, b ≠ a → b ∈ owes' := by
  intro b hb hne
  cases hlisted : a.listed with
  | false => rwa [h.unlisted hlisted]
  | true =>
    by_cases howable : Owable i a
    · obtain ⟨rest, howes, howes'⟩ := h.owed hlisted howable
      rw [howes', List.mem_append]
      rw [howes] at hb
      exact .inr ((List.mem_cons.mp hb).resolve_left hne)
    · rw [(h.begun hlisted howable).1] at hb
      cases hb

theorem followedBy (h : Acts i n owes a r owes') {p q : Action → Prop} (howes : FollowedBy p q owes)
    (hfollows : FollowedBy p q (follows i (n.next a r) a r)) : FollowedBy p q owes' := by
  cases hlisted : a.listed with
  | false => rwa [h.unlisted hlisted]
  | true =>
    by_cases howable : Owable i a
    · obtain ⟨rest, howes₁, howes'⟩ := h.owed hlisted howable
      rw [howes₁] at howes
      rw [howes']
      exact hfollows.append howes.2
    · rw [(h.begun hlisted howable).2.2]
      exact hfollows

theorem mem_iff (h : Acts i n owes a r owes') {p : Action → Prop} (hfollows : ∀ b ∈ follows i (n.next a r) a r, ¬ p b)
    (ha : ¬ p a) {b : Action} (hb : p b) : b ∈ owes' ↔ b ∈ owes := by
  cases hlisted : a.listed with
  | false => rw [h.unlisted hlisted]
  | true =>
    have hne : b ≠ a := fun heq => ha (heq ▸ hb)
    have hnot : b ∉ follows i (n.next a r) a r := fun hmem => hfollows b hmem hb
    by_cases howable : Owable i a
    · obtain ⟨rest, howes, howes'⟩ := h.owed hlisted howable
      simp [howes, howes', hne, hnot]
    · obtain ⟨howes, -, howes'⟩ := h.begun hlisted howable
      simp [howes, howes', hnot]

end Acts

section
variable {settings : Settings} {P : List BrokerEvent → BrokerConfigState → BrokerEvent → BrokerConfigState → Prop}
  {evs : List BrokerEvent} {cfg : BrokerConfigState} {i : ThreadId}

theorem duties_act (i : ThreadId) (a : Action) (r : Reply a) :
    duties (evs ++ [.act i a r]) = Function.update (duties evs) i ((agenda i).next (duties evs i) a r) :=
  Observer.ghosts_act i a r

theorem duties_unlisted {a : Action} {r : Reply a} (hlisted : a.listed = false) (hnote : ∀ n : Note, n.next a r = n) :
    duties (evs ++ [.act i a r]) = duties evs := by
  have hsame : (agenda i).next (duties evs i) a r = duties evs i := by
    rw [Agenda.next]
    change (⟨(duties evs i).note.next a r, follows i _ a r ++ (if a.listed = true ∧ _ then _ else _)⟩ : Duty _ _) = _
    simp [follows_unlisted hlisted, hlisted, hnote]
  rw [duties_act, hsame, Function.update_eq_self]

theorem duties_spawn {c : Control} (hrun : (brokerSystem settings).RunWhere P initial evs cfg)
    (hfresh : cfg.thread i = .fresh) : duties (evs ++ [.spawn i c]) = duties evs :=
  Observer.ghosts_spawn (fun _ _ => rfl) hrun hfresh

theorem owed_spawn {c : Control} (hrun : (brokerSystem settings).RunWhere P initial evs cfg)
    (hfresh : cfg.thread i = .fresh) : owed (evs ++ [.spawn i c])
      { cfg with thread := Function.update cfg.thread i (.running (.ret c)) } = owed evs cfg := by
  have hstart : duties evs i = ⟨Note.start, []⟩ := Observer.ghosts_of_fresh hrun hfresh
  funext j
  by_cases hj : j = i
  · subst hj
    simp only [owed, Function.update_self, hfresh, duties_spawn hrun hfresh, hstart]
  · simp only [owed, Function.update_of_ne hj, duties_spawn hrun hfresh]

theorem owed_act {p q : Broker Control} {a : Action} {r : Reply a} {node : Node} (hrunning : cfg.thread i = .running p) :
    owed (evs ++ [.act i a r]) { shared := node, thread := Function.update cfg.thread i (.running q) } =
      Function.update (owed evs cfg) i ((agenda i).next (duties evs i) a r).owes := by
  funext j
  by_cases hj : j = i
  · subst hj
    simp only [owed, Function.update_self, duties_act]
  · simp only [owed, Function.update_of_ne hj, duties_act]

theorem owed_world {w : WorldStep} {node : Node} :
    owed (evs ++ [.world w]) { cfg with shared := node } = owed evs cfg := by
  have hduties : duties (evs ++ [.world w]) = duties evs := Observer.ghosts_world w
  funext j
  simp only [owed, hduties]

theorem owed_restart {node : Node} :
    owed evs { shared := node, thread := fun i => (cfg.thread i).ended } = fun _ => [] := by
  funext j
  unfold owed
  cases ht : cfg.thread j <;> simp [ht, Thread.ended]

theorem duties_owable (hrun : (brokerSystem settings).RunWhere P initial evs cfg) :
    ∀ j, ∀ b ∈ (duties evs j).owes, Owable j b := by
  induction hrun with
  | nil => exact fun _ => List.forall_mem_nil _
  | snoc run step ok ih =>
    cases step with
    | spawn hfresh _ =>
      rw [duties_spawn run hfresh]
      exact ih
    | @act j p a k input node r hrunning hnext hperform =>
      intro l
      rw [duties_act]
      by_cases hl : l = j
      · subst hl
        rw [Function.update_self]
        intro b hb
        cases Agenda.mem_next hb with
        | inl hfollows => exact follows_owable b hfollows
        | inr hrest => exact ih l b hrest
      · rw [Function.update_of_ne hl]
        exact ih l
    | @world w node ends hworld =>
      rw [duties, Observer.ghosts_world]
      exact ih

theorem owable_of_run (hrun : (brokerSystem settings).RunWhere P initial evs cfg) : ∀ b ∈ owed evs cfg i, Owable i b := by
  unfold owed
  split
  · exact duties_owable hrun i
  · exact List.forall_mem_nil _

/-- An induction over runs, for what depends on the shared state and on what the running tasks owe. -/
theorem owed_induction {J : List BrokerEvent → Node → (ThreadId → List Action) → Prop}
    (hinit : J [] initial.shared fun _ => [])
    (hspawn : ∀ {evs cfg} i c, (brokerSystem settings).RunWhere P initial evs cfg → cfg.thread i = .fresh →
      J evs cfg.shared (owed evs cfg) → J (evs ++ [.spawn i c]) cfg.shared (owed evs cfg))
    (hact : ∀ {evs cfg cfg' i a r input owes'}, (brokerSystem settings).RunWhere P initial evs cfg →
      (brokerSystem settings).Step cfg (.act i a r) cfg' → P evs cfg (.act i a r) cfg' →
      (∀ life, i = .router life → life = cfg.shared.life) →
      Acts i (duties evs i).note (owed evs cfg i) a r owes' →
      cfg.shared.perform i a input = some (cfg'.shared, r) → J evs cfg.shared (owed evs cfg) →
      J (evs ++ [.act i a r]) cfg'.shared (Function.update (owed evs cfg) i owes'))
    (hcommit : ∀ {evs node owes} n, J evs node owes → J (evs ++ [.world (.commit n)]) (node.commit n) owes)
    (hrestart : ∀ {evs cfg cfg'}, (brokerSystem settings).RunWhere P initial evs cfg →
      P evs cfg (.world .restart) cfg' → J evs cfg.shared (owed evs cfg) →
      J (evs ++ [.world .restart]) cfg.shared.restart fun _ => [])
    (hrun : (brokerSystem settings).RunWhere P initial evs cfg) : J evs cfg.shared (owed evs cfg) := by
  suffices hstep : ∀ {evs cfg e cfg'}, (brokerSystem settings).RunWhere P initial evs cfg →
      (brokerSystem settings).Step cfg e cfg' → P evs cfg e cfg' →
      (∀ i a r, e = .act i a r → (dutyObserver.monitor i).allows (duties evs i) a) →
      J evs cfg.shared (owed evs cfg) → J (evs ++ [e]) cfg'.shared (owed (evs ++ [e]) cfg') from
    (duties_cover settings).induction (fun _ => rfl) (J := fun evs cfg => J evs cfg.shared (owed evs cfg)) hinit hstep
      hrun
  intro evs cfg e cfg' run step ok hallows ih
  have hact' := step
  cases step with
  | @spawn i c hfresh hstart =>
    rw [owed_spawn run hfresh]
    exact hspawn i c run hfresh ih
  | @act i p a k input node r hrunning hnext hperform =>
    have howed : duties evs i = ⟨(duties evs i).note, owed evs cfg i⟩ := by
      rw [owed, hrunning]
    rw [owed_act hrunning]
    apply hact run hact' ok _ _ hperform ih
    · intro life hi
      subst hi
      exact (oneRouter_of_run run).now life p hrunning
    · refine ⟨owable_of_run run, ?_, ?_⟩
      · intro hlisted
        rw [← howed]
        exact hallows i a r rfl hlisted
      · rw [← howed]
  | @world w node ends hworld =>
    cases w with
    | commit n =>
      cases hworld
      rw [if_neg (by decide), owed_world]
      exact hcommit n ih
    | restart =>
      obtain ⟨rfl, rfl⟩ := restart_of_world hworld
      rw [if_pos rfl, owed_restart]
      exact hrestart run ok ih

/-- Where every follow-up has a `q` after each `p`, so has all that is ever owed. -/
theorem followedBy_of_run {p : ThreadId → Action → Prop} {q : Action → Prop}
    (hfollows : ∀ (i : ThreadId) (n : Note) (a : Action) (r : Reply a), FollowedBy (p i) q (follows i n a r))
    (hrun : (brokerSystem settings).RunWhere P initial evs cfg) : ∀ i, FollowedBy (p i) q (owed evs cfg i) := by
  apply owed_induction (J := fun _ _ owes => ∀ i, FollowedBy (p i) q (owes i)) _ _ _ _ _ hrun
  · exact fun _ => trivial
  · exact fun _ _ _ _ ih => ih
  · intro evs cfg cfg' i a r input owes' _ _ _ _ hacts _ ih j
    by_cases hj : j = i
    · subst hj
      rw [Function.update_self]
      exact hacts.followedBy (ih j) (hfollows j _ a r)
    · rw [Function.update_of_ne hj]
      exact ih j
  · exact fun _ ih => ih
  · exact fun _ _ _ _ => trivial

end

end AtomMqtt
