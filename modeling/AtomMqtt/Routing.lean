import AtomMqtt.DutyRuns
import AtomMqtt.Effects

set_option autoImplicit false

/-! What the router makes of a message. Whatever it takes, it looks up one topic at most, and hands the message
on to all whom it has found before it takes the next. -/
namespace AtomMqtt
open Programs

def Action.publishes : Action → Bool
  | .forward _ _ | .forwardWeb _ _ | .retainedInsert _ _ => true
  | _ => false

/-- The lookup that has been made for a message, and what has been handed on since it was taken. -/
structure Work where
  looked : Option (String × List Subscription)
  published : List Action

def Work.start : Work := { looked := none, published := [] }

def Work.next (w : Work) : (a : Action) → Reply a → Work
  | .recvRouter, _ => Work.start
  | .lookup topic, subscribers => { w with looked := some (topic, subscribers) }
  | a, _ => if a.publishes then { w with published := w.published ++ [a] } else w

def workObserver : Observer ThreadId Action Reply Control Work where
  monitor := fun _ => { allows := fun _ _ => True, next := Work.next }
  begin := fun _ _ => Work.start

/-- What the tasks have handed on after these events. -/
def works (evs : List BrokerEvent) : ThreadId → Work := workObserver.ghosts (fun _ => Work.start) evs

namespace Note

def topic (n : Note) : Option String :=
  match n.message, n.taken with
  | some (_, .Publish topic _ _ _ _), _ => some topic
  | some (_, .ClientDisconnected _ _), some (_, will) => some will.topic
  | _, _ => none

def retained (n : Note) : List Action :=
  match n.message, n.taken with
  | some (_, .Publish topic payload qos retain _), _ => retains retain { topic, payload, qos }
  | some (_, .ClientDisconnected _ _), some (_, will) => retains will.retain will.retained
  | _, _ => []

/-- All that the router has to hand on for the message to those whom it has looked up. -/
def publication (n : Note) (subscribers : List Subscription) : List Action := n.forwards subscribers ++ n.retained

end Note

def Action.plain : Action → Bool
  | .recvRouter | .lookup _ | .willsRemove _ => false
  | _ => true

/-- Where the router stands with its message. -/
inductive Routing (n : Note) (owes : List Action) (w : Work) : Prop
  | asking {sender : ThreadId} {clientId : String} {cleanSession : Bool} {rest : List Action}
      (hmessage : n.message = some (sender, .ClientDisconnected clientId cleanSession))
      (howes : owes = .willsRemove clientId :: rest) (hplain : ∀ b ∈ rest, b.plain = true)
      (hrest : rest.filter Action.publishes = []) (hwork : w = Work.start)
  | looking {topic : String} {rest : List Action} (htopic : n.topic = some topic) (howes : owes = .lookup topic :: rest)
      (hplain : ∀ b ∈ rest, b.plain = true) (hrest : rest.filter Action.publishes = n.retained) (hwork : w = Work.start)
  | sending {topic : String} {subscribers : List Subscription} (htopic : n.topic = some topic)
      (hlooked : w.looked = some (topic, subscribers)) (hplain : ∀ b ∈ owes, b.plain = true)
      (hpublished : w.published ++ owes.filter Action.publishes = n.publication subscribers)
  | silent (htopic : n.topic = none) (hplain : ∀ b ∈ owes, b.plain = true) (howes : owes.filter Action.publishes = [])
      (hwork : w = Work.start)

section
variable {n : Note} {a : Action} {r : Reply a} {owes owes' : List Action} {w : Work} {life : ℕ}

theorem next_plain (h : a.plain = true) : (n.next a r).message = n.message ∧ (n.next a r).taken = n.taken := by
  cases a <;> first | exact ⟨rfl, rfl⟩ | cases h

theorem work_plain (h : a.plain = true) :
    w.next a r = if a.publishes then { w with published := w.published ++ [a] } else w := by
  cases a <;> first | rfl | cases h

theorem follows_plain (h : a.plain = true) : follows (.router life) n a r = [] := by
  cases a <;> first | rfl | cases h

theorem retains_plain {retain : Bool} {message : RetainedMessage} : ∀ b ∈ retains retain message, b.plain = true := by
  cases retain <;> simp [retains, Action.plain]

theorem retains_publishes {retain : Bool} {message : RetainedMessage} :
    (retains retain message).filter Action.publishes = retains retain message := by
  cases retain <;> rfl

theorem forwards_plain {subscribers : List Subscription} : ∀ b ∈ n.forwards subscribers, b.plain = true := by
  intro b hb
  obtain ⟨_, _, rfl⟩ | ⟨_, _, rfl⟩ := mem_forwards hb
  · rfl
  · rfl

theorem forwards_publishes {subscribers : List Subscription} :
    (n.forwards subscribers).filter Action.publishes = n.forwards subscribers := by
  rw [List.filter_eq_self]
  intro b hb
  obtain ⟨_, _, rfl⟩ | ⟨_, _, rfl⟩ := mem_forwards hb
  · rfl
  · rfl

theorem topic_plain (h : a.plain = true) : (n.next a r).topic = n.topic := by
  simp only [Note.topic, next_plain h]

theorem retained_plain (h : a.plain = true) : (n.next a r).retained = n.retained := by
  simp only [Note.retained, next_plain h]

theorem publication_plain (h : a.plain = true) (subscribers : List Subscription) :
    (n.next a r).publication subscribers = n.publication subscribers := by
  simp only [Note.publication, Note.forwards, Note.retained, next_plain h]

theorem Routing.unlisted (h : Routing n owes w) (hlisted : a.listed = false) :
    Routing (n.next a r) owes (w.next a r) := by
  have hplain : a.plain = true := by
    cases a <;> first | rfl | cases hlisted
  have hwork : w.next a r = w := by
    cases a <;> first | rfl | cases hlisted
  rw [hwork]
  cases h with
  | asking hmessage howes hrest hfilter hstart => exact .asking ((next_plain hplain).1.trans hmessage) howes hrest hfilter hstart
  | looking htopic howes hrest hfilter hstart =>
    exact .looking ((topic_plain hplain).trans htopic) howes hrest (hfilter.trans (retained_plain hplain).symm) hstart
  | sending htopic hlooked howes hpublished =>
    exact .sending ((topic_plain hplain).trans htopic) hlooked howes (hpublished.trans (publication_plain hplain _).symm)
  | silent htopic howes hfilter hstart => exact .silent ((topic_plain hplain).trans htopic) howes hfilter hstart

theorem Routing.plain {rest : List Action} (h : Routing n (a :: rest) w) (hplain : a.plain = true) :
    Routing (n.next a r) rest (w.next a r) := by
  cases h with
  | asking _ howes _ _ _ =>
    cases howes
    cases hplain
  | looking _ howes _ _ _ =>
    cases howes
    cases hplain
  | @sending topic subscribers htopic hlooked howes hpublished =>
    rw [work_plain hplain]
    have hkept : (if a.publishes = true then { w with published := w.published ++ [a] } else w).looked =
        some (topic, subscribers) := by
      split_ifs <;> exact hlooked
    refine .sending ((topic_plain hplain).trans htopic) hkept (List.forall_mem_cons.mp howes).2 ?_
    rw [publication_plain hplain, ← hpublished]
    cases hpublishes : a.publishes with
    | true => simp [hpublishes]
    | false => simp [hpublishes]
  | silent htopic howes hfilter hstart =>
    have hquiet : a.publishes = false := by
      rw [List.filter_eq_nil_iff] at hfilter
      exact Bool.eq_false_iff.mpr (hfilter a List.mem_cons_self)
    rw [List.filter_cons_of_neg (by simp [hquiet])] at hfilter
    rw [work_plain hplain, hquiet]
    exact .silent ((topic_plain hplain).trans htopic) (List.forall_mem_cons.mp howes).2 hfilter hstart

theorem Routing.lookup {topic : String} {rest : List Action} (h : Routing n (.lookup topic :: rest) w)
    (subscribers : List Subscription) :
    Routing n (n.forwards subscribers ++ rest) (w.next (.lookup topic) subscribers) := by
  have hnot : ¬ ∀ b ∈ Action.lookup topic :: rest, b.plain = true := by
    intro hplain
    cases hplain _ List.mem_cons_self
  cases h with
  | asking _ howes _ _ _ => cases howes
  | looking htopic howes hplain hrest hstart =>
    cases howes
    subst hstart
    refine .sending htopic rfl (List.forall_mem_append.mpr ⟨forwards_plain, hplain⟩) ?_
    rw [List.filter_append, forwards_publishes, hrest]
    rfl
  | sending _ _ hplain _ => exact absurd hplain hnot
  | silent _ hplain _ _ => exact absurd hplain hnot

theorem Routing.willsRemove {clientId : String} {rest : List Action} (h : Routing n (.willsRemove clientId :: rest) w)
    (will : Option (ThreadId × WillMessage)) :
    Routing { n with taken := will } (routerFollows { n with taken := will } (.willsRemove clientId) will ++ rest)
      (w.next (.willsRemove clientId) will) := by
  have hnot : ¬ ∀ b ∈ Action.willsRemove clientId :: rest, b.plain = true := by
    intro hplain
    cases hplain _ List.mem_cons_self
  cases h with
  | asking hmessage howes hplain hrest hstart =>
    cases howes
    cases will with
    | none =>
      refine .silent ?_ hplain hrest hstart
      simp only [Note.topic, hmessage]
    | some sent =>
      have hretained : Note.retained { n with taken := some sent } = retains sent.2.retain sent.2.retained := by
        simp only [Note.retained, hmessage]
      change Routing _ (.lookup sent.2.topic :: ((retains sent.2.retain sent.2.retained ++
        [.sendEvent (.RemoveWill clientId)]) ++ rest)) _
      refine .looking ?_ rfl ?_ ?_ hstart
      · simp only [Note.topic, hmessage]
      · rw [List.forall_mem_append, List.forall_mem_append]
        refine ⟨⟨retains_plain, ?_⟩, hplain⟩
        simp [Action.plain]
      · rw [List.filter_append, List.filter_append, hrest, retains_publishes, hretained]
        simp [Action.publishes]
  | looking _ howes _ _ _ => cases howes
  | sending _ _ hplain _ => exact absurd hplain hnot
  | silent _ hplain _ _ => exact absurd hplain hnot

theorem Routing.recvRouter (sent : ThreadId × BrokerMessage) :
    Routing (n.next .recvRouter sent) (routerFollows (n.next .recvRouter sent) .recvRouter sent)
      (w.next .recvRouter sent) := by
  obtain ⟨sender, message⟩ := sent
  cases message with
  | Publish topic payload qos retain sourceClient => exact .looking rfl rfl retains_plain retains_publishes rfl
  | ClientDisconnected clientId cleanSession =>
    cases cleanSession with
    | true =>
      refine .asking rfl rfl ?_ rfl rfl
      simp [Action.plain]
    | false => exact .asking rfl rfl (List.forall_mem_nil _) rfl rfl

theorem Routing.act (h : Routing n owes w) (hacts : Acts (.router life) n owes a r owes') :
    Routing (n.next a r) owes' (w.next a r) := by
  cases hlisted : a.listed with
  | false =>
    rw [hacts.unlisted hlisted]
    exact h.unlisted hlisted
  | true =>
    by_cases howable : Owable (.router life) a
    · obtain ⟨rest, howes, howes'⟩ := hacts.owed hlisted howable
      subst howes howes'
      cases hplain : a.plain with
      | true =>
        rw [follows_plain hplain]
        exact h.plain hplain
      | false =>
        cases a with
        | recvRouter => exact howable.elim
        | lookup topic => exact h.lookup r
        | willsRemove clientId => exact h.willsRemove r
        | _ => cases hplain
    · obtain ⟨-, hbegins, howes'⟩ := hacts.begun hlisted howable
      subst howes'
      cases a with
      | recvRouter => exact Routing.recvRouter r
      | _ => exact hbegins.elim

end

section
variable {settings : Settings} {P : List BrokerEvent → BrokerConfigState → BrokerEvent → BrokerConfigState → Prop}
  {evs : List BrokerEvent} {cfg : BrokerConfigState}

theorem works_act (i : ThreadId) (a : Action) (r : Reply a) :
    works (evs ++ [.act i a r]) = Function.update (works evs) i ((works evs i).next a r) :=
  Observer.ghosts_act i a r

/-- The router of the present life stands somewhere with its message, whatever the other tasks do. -/
theorem routing_of_run (hrun : (brokerSystem settings).RunWhere P initial evs cfg) :
    Routing (duties evs (.router cfg.shared.life)).note (owed evs cfg (.router cfg.shared.life))
      (works evs (.router cfg.shared.life)) := by
  apply owed_induction (J := fun evs node owes => Routing (duties evs (.router node.life)).note (owes (.router node.life))
    (works evs (.router node.life))) _ _ _ _ _ hrun
  · exact .silent rfl (List.forall_mem_nil _) rfl rfl
  · intro evs cfg i c run hfresh ih
    have hworks : works (evs ++ [.spawn i c]) = works evs := Observer.ghosts_spawn (fun _ _ => rfl) run hfresh
    rw [duties_spawn run hfresh, hworks]
    exact ih
  · intro evs cfg cfg' i a r input owes' run _ _ hlife hacts hperform ih
    rw [(node_performed hperform).2.2, duties_act, works_act]
    by_cases hi : .router cfg.shared.life = i
    · subst hi
      simp only [Function.update_self]
      exact ih.act hacts
    · simp only [Function.update_of_ne hi]
      exact ih
  · intro evs node owes m ih
    have hduties : duties (evs ++ [.world (.commit m)]) = duties evs := Observer.ghosts_world _
    have hworks : works (evs ++ [.world (.commit m)]) = works evs := Observer.ghosts_world _
    rw [hduties, hworks]
    exact ih
  · intro evs cfg cfg' run _ ih
    have hfresh : cfg.thread (.router (cfg.shared.life + 1)) = .fresh := (oneRouter_of_run run).later _ (by omega)
    have hduties : duties (evs ++ [.world .restart]) (.router (cfg.shared.life + 1)) = ⟨Note.start, []⟩ := by
      rw [duties, Observer.ghosts_world]
      exact Observer.ghosts_of_fresh run hfresh
    have hworks : works (evs ++ [.world .restart]) (.router (cfg.shared.life + 1)) = Work.start := by
      rw [works, Observer.ghosts_world]
      exact Observer.ghosts_of_fresh run hfresh
    change Routing (duties _ (.router (cfg.shared.life + 1))).note [] (works _ (.router (cfg.shared.life + 1)))
    rw [hduties, hworks]
    exact .silent rfl (List.forall_mem_nil _) rfl rfl

end

end AtomMqtt
