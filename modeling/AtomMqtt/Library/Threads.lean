import AtomMqtt.Library.Program
import Mathlib.Data.List.Induction

set_option autoImplicit false

/-! Threads that share a state. Each thread runs a program that ends in a control, from which its body goes on,
so a loop is a thread whose body returns to itself. One action of one thread is a step; what it does to the
shared state may depend on an input from outside. Steps of the world belong to no thread and may end all of
them.

An observer gives each thread a monitor. When the bodies meet their monitors, every action of every run is
allowed when it comes, and an invariant that the allowed actions keep holds in every run. -/
namespace Programs

structure System (ι σ O : Type) (R : O → Type) (C I W : Type) where
  start : σ → ι → C → Bool
  body : ι → C → Program O R C
  perform : ι → σ → (o : O) → I → Option (σ × R o)
  world : σ → W → Option (σ × Bool)

inductive Thread (O : Type) (R : O → Type) (C : Type) where
  | fresh
  | running (p : Program O R C)
  | dead

structure Config (ι σ O : Type) (R : O → Type) (C : Type) where
  shared : σ
  thread : ι → Thread O R C

inductive Event (ι O : Type) (R : O → Type) (C W : Type) where
  | spawn (i : ι) (c : C)
  | act (i : ι) (o : O) (r : R o)
  | world (w : W)

inductive Move (ι C I W : Type) where
  | spawn (i : ι) (c : C)
  | act (i : ι) (input : I)
  | world (w : W)

section
variable {ι σ O : Type} {R : O → Type} {C I W : Type} [DecidableEq ι]

def Thread.ended : Thread O R C → Thread O R C
  | .fresh => .fresh
  | _ => .dead

theorem Thread.ended_eq_fresh {t : Thread O R C} : t.ended = .fresh ↔ t = .fresh := by
  cases t <;> simp [Thread.ended]

namespace System
variable (sys : System ι σ O R C I W)

def unroll (i : ι) : Program O R C → Program O R C
  | .ret c => sys.body i c
  | p => p

inductive Step : Config ι σ O R C → Event ι O R C W → Config ι σ O R C → Prop
  | spawn {cfg : Config ι σ O R C} {i : ι} {c : C} (hfresh : cfg.thread i = .fresh)
      (hstart : sys.start cfg.shared i c = true) :
      Step cfg (.spawn i c) { cfg with thread := Function.update cfg.thread i (.running (.ret c)) }
  | act {cfg : Config ι σ O R C} {i : ι} {p : Program O R C} {o : O} {k : R o → Program O R C} {input : I}
      {s : σ} {r : R o} (hrunning : cfg.thread i = .running p) (hnext : sys.unroll i p = .act o k)
      (hperform : sys.perform i cfg.shared o input = some (s, r)) :
      Step cfg (.act i o r) { shared := s, thread := Function.update cfg.thread i (.running (k r)) }
  | world {cfg : Config ι σ O R C} {w : W} {s : σ} {ends : Bool} (hworld : sys.world cfg.shared w = some (s, ends)) :
      Step cfg (.world w)
        { shared := s, thread := if ends then fun i => (cfg.thread i).ended else cfg.thread }

/-- The runs all whose steps are as `P` asks, with their events; `P` sees the events before the step. -/
inductive RunWhere (P : List (Event ι O R C W) → Config ι σ O R C → Event ι O R C W → Config ι σ O R C → Prop)
    (cfg₀ : Config ι σ O R C) : List (Event ι O R C W) → Config ι σ O R C → Prop
  | nil : RunWhere P cfg₀ [] cfg₀
  | snoc {evs : List (Event ι O R C W)} {cfg cfg' : Config ι σ O R C} {e : Event ι O R C W}
      (run : RunWhere P cfg₀ evs cfg) (step : sys.Step cfg e cfg') (ok : P evs cfg e cfg') :
      RunWhere P cfg₀ (evs ++ [e]) cfg'

def Run (cfg₀ : Config ι σ O R C) : List (Event ι O R C W) → Config ι σ O R C → Prop :=
  sys.RunWhere (fun _ _ _ _ => True) cfg₀

def exec (cfg : Config ι σ O R C) : Move ι C I W → Option (Event ι O R C W × Config ι σ O R C)
  | .spawn i c =>
    match cfg.thread i with
    | .fresh =>
      if sys.start cfg.shared i c then
        some (.spawn i c, { cfg with thread := Function.update cfg.thread i (.running (.ret c)) })
      else none
    | _ => none
  | .act i input =>
    match cfg.thread i with
    | .running p =>
      match sys.unroll i p with
      | .ret _ => none
      | .act o k =>
        match sys.perform i cfg.shared o input with
        | none => none
        | some (s, r) =>
          some (.act i o r, { shared := s, thread := Function.update cfg.thread i (.running (k r)) })
    | _ => none
  | .world w =>
    match sys.world cfg.shared w with
    | none => none
    | some (s, ends) =>
      some (.world w, { shared := s, thread := if ends then fun i => (cfg.thread i).ended else cfg.thread })

theorem exec_step {cfg cfg' : Config ι σ O R C} {m : Move ι C I W} {e : Event ι O R C W}
    (h : sys.exec cfg m = some (e, cfg')) : sys.Step cfg e cfg' := by
  cases m with
  | spawn i c =>
    simp only [exec] at h
    split at h
    · split_ifs at h with hs
      cases h
      exact .spawn ‹_› hs
    · cases h
  | act i input =>
    simp only [exec] at h
    split at h
    · split at h
      · cases h
      · split at h
        · cases h
        · cases h
          exact .act ‹_› ‹_› ‹_›
    · cases h
  | world w =>
    simp only [exec] at h
    split at h
    · cases h
    · cases h
      exact .world ‹_›

/-- The moves of a schedule, each checked as it is made. -/
def execWhere (ok : List (Event ι O R C W) → Config ι σ O R C → Event ι O R C W → Config ι σ O R C → Bool) :
    List (Event ι O R C W) → Config ι σ O R C → List (Move ι C I W) →
      Option (List (Event ι O R C W) × Config ι σ O R C)
  | evs, cfg, [] => some (evs, cfg)
  | evs, cfg, m :: ms =>
    match sys.exec cfg m with
    | none => none
    | some (e, cfg') => if ok evs cfg e cfg' then execWhere ok (evs ++ [e]) cfg' ms else none

theorem execWhere_run {P : List (Event ι O R C W) → Config ι σ O R C → Event ι O R C W → Config ι σ O R C → Prop}
    {ok : List (Event ι O R C W) → Config ι σ O R C → Event ι O R C W → Config ι σ O R C → Bool}
    (hok : ∀ evs cfg e cfg', ok evs cfg e cfg' = true → P evs cfg e cfg') {cfg₀ cfg cfg' : Config ι σ O R C}
    {evs evs' : List (Event ι O R C W)} {ms : List (Move ι C I W)} (hrun : sys.RunWhere P cfg₀ evs cfg)
    (h : sys.execWhere ok evs cfg ms = some (evs', cfg')) : sys.RunWhere P cfg₀ evs' cfg' := by
  induction ms generalizing evs cfg with
  | nil =>
    cases h
    exact hrun
  | cons m ms ih =>
    rw [execWhere] at h
    split at h
    · cases h
    · rename_i e cfg'' hexec
      split_ifs at h with hstep
      exact ih (.snoc hrun (sys.exec_step hexec) (hok _ _ _ _ hstep)) h

theorem execWhere_prefix {ok : List (Event ι O R C W) → Config ι σ O R C → Event ι O R C W → Config ι σ O R C → Bool}
    {cfg cfg' : Config ι σ O R C} {evs evs' : List (Event ι O R C W)} {ms : List (Move ι C I W)}
    (h : sys.execWhere ok evs cfg ms = some (evs', cfg')) : evs <+: evs' := by
  induction ms generalizing evs cfg with
  | nil =>
    cases h
    exact List.prefix_rfl
  | cons m ms ih =>
    rw [execWhere] at h
    split at h
    · cases h
    · split_ifs at h
      exact (List.prefix_append evs _).trans (ih h)

theorem RunWhere.mono {P P' : List (Event ι O R C W) → Config ι σ O R C → Event ι O R C W → Config ι σ O R C → Prop}
    {cfg₀ cfg : Config ι σ O R C} {evs : List (Event ι O R C W)} (h : sys.RunWhere P cfg₀ evs cfg)
    (himp : ∀ evs cfg e cfg', P evs cfg e cfg' → P' evs cfg e cfg') : sys.RunWhere P' cfg₀ evs cfg := by
  induction h with
  | nil => exact .nil
  | snoc _ step ok ih => exact .snoc ih step (himp _ _ _ _ ok)

theorem RunWhere.split {P : List (Event ι O R C W) → Config ι σ O R C → Event ι O R C W → Config ι σ O R C → Prop}
    {cfg₀ cfg : Config ι σ O R C} {before after : List (Event ι O R C W)} {e : Event ι O R C W}
    (h : sys.RunWhere P cfg₀ (before ++ e :: after) cfg) :
    ∃ cfg₁ cfg₂, sys.RunWhere P cfg₀ before cfg₁ ∧ sys.Step cfg₁ e cfg₂ := by
  induction after using List.reverseRecOn generalizing cfg with
  | nil =>
    generalize hevs : before ++ [e] = evs at h
    cases h with
    | nil => simp at hevs
    | snoc run step ok =>
      obtain ⟨rfl, heq⟩ := List.append_inj' hevs rfl
      cases heq
      exact ⟨_, _, run, step⟩
  | append_singleton after last ih =>
    generalize hevs : before ++ e :: (after ++ [last]) = evs at h
    cases h with
    | nil => simp at hevs
    | snoc run step ok =>
      rw [← List.cons_append, ← List.append_assoc] at hevs
      obtain ⟨rfl, -⟩ := List.append_inj' hevs rfl
      exact ih run

theorem RunWhere.fresh {P : List (Event ι O R C W) → Config ι σ O R C → Event ι O R C W → Config ι σ O R C → Prop}
    {cfg₀ cfg : Config ι σ O R C} {evs : List (Event ι O R C W)} (h : sys.RunWhere P cfg₀ evs cfg) {i : ι}
    (hfresh : cfg₀.thread i = .fresh) (hspawn : ∀ c, .spawn i c ∉ evs) : cfg.thread i = .fresh := by
  induction h with
  | nil => exact hfresh
  | snoc run step ok ih =>
    have hbefore := ih fun c hc => hspawn c (List.mem_append_left _ hc)
    cases step with
    | @spawn j c _ _ =>
      have hij : i ≠ j := by
        rintro rfl
        exact hspawn c (List.mem_append_right _ List.mem_cons_self)
      exact (Function.update_of_ne hij _ _).trans hbefore
    | @act j q o k input s r hrunning _ _ =>
      have hij : i ≠ j := by
        rintro rfl
        cases hbefore.symm.trans hrunning
      exact (Function.update_of_ne hij _ _).trans hbefore
    | @world w s ends _ =>
      cases ends with
      | false => exact hbefore
      | true => exact Thread.ended_eq_fresh.mpr hbefore

theorem RunWhere.started {P : List (Event ι O R C W) → Config ι σ O R C → Event ι O R C W → Config ι σ O R C → Prop}
    {cfg₀ cfg : Config ι σ O R C} {evs : List (Event ι O R C W)} (h : sys.RunWhere P cfg₀ evs cfg) {i : ι} {c : C}
    (hspawn : .spawn i c ∈ evs) : ∃ s, sys.start s i c = true := by
  induction h with
  | nil => cases hspawn
  | snoc run step ok ih =>
    obtain hbefore | hlast := List.mem_append.mp hspawn
    · exact ih hbefore
    · cases List.mem_singleton.mp hlast
      cases step with
      | spawn _ hstart => exact ⟨_, hstart⟩

def traceOf (i : ι) (evs : List (Event ι O R C W)) : Trace O R :=
  evs.filterMap fun
    | .act j o r => if j = i then some ⟨o, r⟩ else none
    | _ => none

theorem mem_traceOf {i : ι} {evs : List (Event ι O R C W)} {o : O} {r : R o} :
    ⟨o, r⟩ ∈ traceOf i evs ↔ .act i o r ∈ evs := by
  rw [traceOf, List.mem_filterMap]
  constructor
  · rintro ⟨e, he, heq⟩
    cases e with
    | act j o' r' =>
      simp only [Option.ite_none_right_eq_some, Option.some.injEq] at heq
      obtain ⟨rfl, heq⟩ := heq
      cases heq
      exact he
    | spawn _ _ => cases heq
    | world _ => cases heq
  · intro h
    exact ⟨_, h, if_pos rfl⟩

theorem traceOf_append (i : ι) (evs evs' : List (Event ι O R C W)) :
    traceOf i (evs ++ evs') = traceOf i evs ++ traceOf i evs' := List.filterMap_append

theorem traceOf_act (i : ι) (o : O) (r : R o) : traceOf i [(.act i o r : Event ι O R C W)] = [⟨o, r⟩] :=
  List.filterMap_cons_some (if_pos rfl)

theorem traceOf_act_other {i j : ι} (hij : i ≠ j) (o : O) (r : R o) :
    traceOf i [(.act j o r : Event ι O R C W)] = [] := List.filterMap_cons_none (if_neg (Ne.symm hij))

/-- The thread does not go on into a turn of its own; the one that it stands before it may begin. -/
def InTurn (i : ι) (evs : List (Event ι O R C W)) (cfg : Config ι σ O R C) (e : Event ι O R C W) : Prop :=
  ∀ o r c, e = .act i o r → cfg.thread i = .running (.ret c) → traceOf i evs = []

/-- The thread stands before the turn from `c` on, or what is left of the turn is as `N` asks. -/
def Within (N : O → Prop) (i : ι) (c : C) (evs : List (Event ι O R C W)) (cfg : Config ι σ O R C) : Prop :=
  cfg.thread i ≠ .fresh ∧
    ∀ p, cfg.thread i = .running p → (traceOf i evs = [] → p = .ret c) ∧ (traceOf i evs ≠ [] → Only N p)

section
variable {N : O → Prop} {i : ι} {c : C} {cfg₀ cfg cfg' : Config ι σ O R C} {evs : List (Event ι O R C W)}

theorem Within.unroll (h : Within N i c evs cfg) (hbody : Only N (sys.body i c)) {o : O} {r : R o}
    (hturn : InTurn i evs cfg (.act i o r)) {q : Program O R C} (hq : cfg.thread i = .running q) :
    Only N (sys.unroll i q) := by
  cases q with
  | act o' k =>
    by_cases htrace : traceOf i evs = []
    · cases (h.2 _ hq).1 htrace
    · exact (h.2 _ hq).2 htrace
  | ret c' =>
    have hfirst := (h.2 _ hq).1 (hturn o r c' rfl hq)
    cases hfirst
    exact hbody

theorem Within.frame (h : Within N i c evs cfg) {e : Event ι O R C W} (htrace : traceOf i [e] = [])
    (hthread : cfg'.thread i = cfg.thread i) : Within N i c (evs ++ [e]) cfg' := by
  rw [Within, traceOf_append, htrace, List.append_nil, hthread]
  exact h

theorem Within.step (h : Within N i c evs cfg) (hbody : Only N (sys.body i c)) {e : Event ι O R C W}
    (step : sys.Step cfg e cfg') (hturn : InTurn i evs cfg e) : Within N i c (evs ++ [e]) cfg' := by
  cases step with
  | @spawn j c' hfresh _ =>
    have hij : i ≠ j := by
      intro hij
      rw [← hij] at hfresh
      exact h.1 hfresh
    exact h.frame rfl (Function.update_of_ne hij _ _)
  | @act j q o k input s r hrunning hnext _ =>
    by_cases hij : i = j
    · subst hij
      have hq := h.unroll sys hbody hturn hrunning
      rw [hnext] at hq
      have hthread : Function.update cfg.thread i (Thread.running (k r)) i = .running (k r) := Function.update_self ..
      constructor
      · intro hfresh
        cases hthread.symm.trans hfresh
      · intro p hp
        cases hthread.symm.trans hp
        rw [traceOf_append, traceOf_act]
        exact ⟨fun hnil => absurd hnil (List.append_ne_nil_of_right_ne_nil _ (List.cons_ne_nil _ _)),
          fun _ => hq.of_act.2 r⟩
    · exact h.frame (traceOf_act_other hij o r) (Function.update_of_ne hij _ _)
  | @world w s ends _ =>
    cases ends with
    | false => exact h.frame rfl rfl
    | true =>
      have hdead : (cfg.thread i).ended = .dead := by
        cases hthread : cfg.thread i with
        | fresh => exact absurd hthread h.1
        | running p => rfl
        | dead => rfl
      constructor
      · intro hfresh
        cases hdead.symm.trans hfresh
      · intro p hp
        cases hdead.symm.trans hp

theorem only_of_turn (hbegin : cfg₀.thread i = .running (.ret c)) (hbody : Only N (sys.body i c))
    (hrun : sys.RunWhere (fun evs cfg e _ => InTurn i evs cfg e) cfg₀ evs cfg) {o : O} {r : R o}
    (step : sys.Step cfg (.act i o r) cfg') (hturn : InTurn i evs cfg (.act i o r)) : N o := by
  have hwithin : Within N i c evs cfg := by
    clear step hturn
    induction hrun with
    | nil =>
      constructor
      · intro hfresh
        cases hbegin.symm.trans hfresh
      · intro p hp
        cases hbegin.symm.trans hp
        exact ⟨fun _ => rfl, fun hne => absurd rfl hne⟩
    | snoc run step ok ih => exact ih.step sys hbody step ok
  cases step with
  | act hrunning hnext _ =>
    have hq := hwithin.unroll sys hbody hturn hrunning
    rw [hnext] at hq
    exact hq.of_act.1

/-- Left to itself, a thread whose turn comes to an action as `hit` asks performs one. -/
theorem reaches_of_turn {pass hit : O → Prop}
    (hgoes : ∀ s o, pass o ∨ hit o → ∃ input s' r, sys.perform i s o input = some (s', r))
    (hbegin : cfg₀.thread i = .running (.ret c)) (hbody : Soon pass hit (sys.body i c)) :
    ∃ evs cfg o r cfg', sys.RunWhere (fun evs cfg e _ => InTurn i evs cfg e) cfg₀ evs cfg ∧
      sys.Step cfg (.act i o r) cfg' ∧ InTurn i evs cfg (.act i o r) ∧ hit o := by
  suffices hall : ∀ p : Program O R C, Soon pass hit p → ∀ evs cfg q,
      sys.RunWhere (fun evs cfg e _ => InTurn i evs cfg e) cfg₀ evs cfg → cfg.thread i = .running q →
        sys.unroll i q = p → (∀ c', q = .ret c' → traceOf i evs = []) →
          ∃ evs cfg o r cfg', sys.RunWhere (fun evs cfg e _ => InTurn i evs cfg e) cfg₀ evs cfg ∧
            sys.Step cfg (.act i o r) cfg' ∧ InTurn i evs cfg (.act i o r) ∧ hit o from
    hall _ hbody [] cfg₀ _ .nil hbegin rfl fun _ _ => rfl
  intro p hsoon
  induction hsoon with
  | @now o k hhit =>
    intro evs cfg q hrun hq hnext hfirst
    obtain ⟨input, s, r, hperform⟩ := hgoes cfg.shared o (.inr hhit)
    refine ⟨evs, cfg, o, r, _, hrun, .act hq hnext hperform, ?_, hhit⟩
    intro o' r' c' _ hret
    cases hq.symm.trans hret
    exact hfirst c' rfl
  | @later o k hpass hk ih =>
    intro evs cfg q hrun hq hnext hfirst
    obtain ⟨input, s, r, hperform⟩ := hgoes cfg.shared o (.inl hpass)
    have hstep := System.Step.act hq hnext hperform
    have hturn : InTurn i evs cfg (.act i o r) := by
      intro o' r' c' _ hret
      cases hq.symm.trans hret
      exact hfirst c' rfl
    apply ih r _ _ (k r) (.snoc hrun hstep hturn) (Function.update_self ..)
    · cases hp : k r with
      | ret x => exact absurd hp ((hk r).ne_ret x)
      | act o' k' => rfl
    · intro c' hret
      exact absurd hret ((hk r).ne_ret c')

end

/-- Where the bodies do nothing, a thread that has come to its end has executed the program it began with. -/
theorem exec_of_run {P : List (Event ι O R C W) → Config ι σ O R C → Event ι O R C W → Config ι σ O R C → Prop}
    {cfg₀ cfg : Config ι σ O R C} {evs : List (Event ι O R C W)} (hbody : ∀ i c, sys.body i c = .ret c)
    (hworld : ∀ s w, sys.world s w = none) (hrun : sys.RunWhere P cfg₀ evs cfg) {i : ι} {p : Program O R C} {c : C}
    (hbegin : cfg₀.thread i = .running p) (hend : cfg.thread i = .running (.ret c)) : Exec p (traceOf i evs) c := by
  suffices hrest : ∃ q, cfg.thread i = .running q ∧ ∀ tr x, Exec q tr x → Exec p (traceOf i evs ++ tr) x by
    obtain ⟨q, hq, hexec⟩ := hrest
    rw [hend] at hq
    cases hq
    simpa using hexec [] c (.ret c)
  clear hend
  induction hrun with
  | nil => exact ⟨p, hbegin, fun _ _ h => h⟩
  | @snoc evs cfg cfg' e run step ok ih =>
    obtain ⟨q, hq, hexec⟩ := ih
    have htrace : ∀ last, traceOf i (evs ++ [last]) = traceOf i evs ++ traceOf i [last] := fun _ => List.filterMap_append
    cases step with
    | @spawn j c hfresh _ =>
      have hij : i ≠ j := by
        intro heq
        rw [← heq, hq] at hfresh
        cases hfresh
      refine ⟨q, (Function.update_of_ne hij _ _).trans hq, ?_⟩
      rw [htrace]
      simpa [traceOf] using hexec
    | @act j q' o k input s r hrunning hnext _ =>
      rw [htrace]
      by_cases hij : j = i
      · subst hij
        rw [hq] at hrunning
        cases hrunning
        refine ⟨k r, Function.update_self .., ?_⟩
        intro tr x h
        have hstep : Exec q (⟨o, r⟩ :: tr) x := by
          cases q with
          | ret c =>
            rw [unroll, hbody] at hnext
            cases hnext
          | act o' k' =>
            cases hnext
            exact .act _ _ h
        simpa [traceOf] using hexec _ _ hstep
      · refine ⟨q, (Function.update_of_ne (Ne.symm hij) _ _).trans hq, ?_⟩
        simpa [traceOf, hij] using hexec
    | world hw =>
      rw [hworld] at hw
      cases hw

end System

/-- A monitor for each thread, and the state it begins in. -/
structure Observer (ι O : Type) (R : O → Type) (C G : Type) where
  monitor : ι → Monitor O R G
  begin : ι → C → G

namespace Observer
variable {G : Type}

def step (ob : Observer ι O R C G) (g : ι → G) : Event ι O R C W → ι → G
  | .spawn i c => Function.update g i (ob.begin i c)
  | .act i o r => Function.update g i ((ob.monitor i).next (g i) o r)
  | .world _ => g

/-- What the monitors have come to after the events. -/
def ghosts (ob : Observer ι O R C G) (g₀ : ι → G) (evs : List (Event ι O R C W)) : ι → G := evs.foldl ob.step g₀

theorem ghosts_snoc (ob : Observer ι O R C G) (g₀ : ι → G) (evs : List (Event ι O R C W)) (e : Event ι O R C W) :
    ob.ghosts g₀ (evs ++ [e]) = ob.step (ob.ghosts g₀ evs) e := by
  simp [ghosts]

/-- The bodies meet their monitors: `Q` holds where a thread begins, and from `Q` to `Q`. -/
structure Covers (ob : Observer ι O R C G) (sys : System ι σ O R C I W) (Q : ι → G → C → Prop) : Prop where
  start : ∀ {s i c}, sys.start s i c = true → Q i (ob.begin i c) c
  body : ∀ {i g c}, Q i g c → Meets (ob.monitor i) (Q i) g (sys.body i c)

variable {ob : Observer ι O R C G} {sys : System ι σ O R C I W} {Q : ι → G → C → Prop}
  {P : List (Event ι O R C W) → Config ι σ O R C → Event ι O R C W → Config ι σ O R C → Prop}
  {cfg₀ cfg : Config ι σ O R C} {evs : List (Event ι O R C W)} {g₀ : ι → G}

omit [DecidableEq ι] in
theorem Covers.unroll (hob : ob.Covers sys Q) {i : ι} {g : G} {p : Program O R C}
    (h : Meets (ob.monitor i) (Q i) g p) : Meets (ob.monitor i) (Q i) g (sys.unroll i p) := by
  cases p with
  | ret c => exact hob.body h.of_ret
  | act o k => exact h

theorem ghosts_of_fresh (hrun : sys.RunWhere P cfg₀ evs cfg) {i : ι} (hi : cfg.thread i = .fresh) : ob.ghosts g₀ evs i = g₀ i := by
  induction hrun with
  | nil => rfl
  | snoc run step ok ih =>
    rw [ghosts_snoc]
    cases step with
    | @spawn j c hj hstart =>
      by_cases hij : i = j
      · subst hij
        simp at hi
      · simp only [Observer.step, Function.update_of_ne hij] at hi ⊢
        exact ih hi
    | @act j q o k input s r hrunning hnext hperform =>
      by_cases hij : i = j
      · subst hij
        simp at hi
      · simp only [Observer.step, Function.update_of_ne hij] at hi ⊢
        exact ih hi
    | @world w s ends hworld =>
      cases ends with
      | false => exact ih hi
      | true =>
        simp only [if_true] at hi
        exact ih (Thread.ended_eq_fresh.mp hi)

theorem ghosts_of_spawn (hnext : ∀ i g o r, (ob.monitor i).next g o r = g) (hrun : sys.RunWhere P cfg₀ evs cfg) {i : ι}
    {c : C} (hspawn : .spawn i c ∈ evs) : cfg.thread i ≠ .fresh ∧ ob.ghosts g₀ evs i = ob.begin i c := by
  induction hrun with
  | nil => cases hspawn
  | snoc run step ok ih =>
    rw [ghosts_snoc]
    cases step with
    | @spawn j c' hfresh _ =>
      cases List.mem_append.mp hspawn with
      | inl hbefore =>
        obtain ⟨hbegun, hghost⟩ := ih hbefore
        have hij : i ≠ j := by
          rintro rfl
          exact hbegun hfresh
        simp only [Observer.step, Function.update_of_ne hij]
        exact ⟨hbegun, hghost⟩
      | inr hlast =>
        cases List.mem_singleton.mp hlast
        simp [Observer.step]
    | @act j q o k input s r hrunning hnext' _ =>
      have hbefore := (List.mem_append.mp hspawn).resolve_right (by simp)
      obtain ⟨hbegun, hghost⟩ := ih hbefore
      simp only [Observer.step, hnext, Function.update_eq_self]
      refine ⟨?_, hghost⟩
      by_cases hij : i = j
      · subst hij
        simp
      · rwa [Function.update_of_ne hij]
    | @world w s ends _ =>
      have hbefore := (List.mem_append.mp hspawn).resolve_right (by simp)
      obtain ⟨hbegun, hghost⟩ := ih hbefore
      refine ⟨?_, hghost⟩
      cases ends with
      | false => exact hbegun
      | true => exact mt Thread.ended_eq_fresh.mp hbegun

theorem ghosts_spawn (hbegin : ∀ i c, ob.begin i c = g₀ i) (hrun : sys.RunWhere P cfg₀ evs cfg) {i : ι} {c : C}
    (hi : cfg.thread i = .fresh) : ob.ghosts g₀ (evs ++ [.spawn i c]) = ob.ghosts g₀ evs := by
  have hstart : ob.ghosts g₀ evs i = g₀ i := ghosts_of_fresh hrun hi
  rw [ghosts_snoc]
  change Function.update (ob.ghosts g₀ evs) i (ob.begin i c) = ob.ghosts g₀ evs
  rw [hbegin, ← hstart, Function.update_eq_self]

theorem ghosts_act (i : ι) (o : O) (r : R o) : ob.ghosts g₀ (evs ++ [.act i o r]) =
    Function.update (ob.ghosts g₀ evs) i ((ob.monitor i).next (ob.ghosts g₀ evs i) o r) :=
  ghosts_snoc ob g₀ evs (.act i o r)

theorem ghosts_world (w : W) : ob.ghosts g₀ (evs ++ [.world w]) = ob.ghosts g₀ evs := ghosts_snoc ob g₀ evs (.world w)

/-- In every run, each running thread has a program that meets its monitor. -/
theorem Covers.meets (hob : ob.Covers sys Q) (hinit : ∀ i, cfg₀.thread i = .fresh)
    (hrun : sys.RunWhere P cfg₀ evs cfg) {i : ι} {p : Program O R C} (hp : cfg.thread i = .running p) :
    Meets (ob.monitor i) (Q i) (ob.ghosts g₀ evs i) p := by
  induction hrun generalizing i p with
  | nil => simp [hinit] at hp
  | snoc run step ok ih =>
    rw [ghosts_snoc]
    cases step with
    | @spawn j c hfresh hstart =>
      by_cases hj : i = j
      · subst hj
        simp only [Function.update_self, Thread.running.injEq] at hp
        subst hp
        simp only [Observer.step, Function.update_self]
        exact .ret (hob.start hstart)
      · simp only [Observer.step, Function.update_of_ne hj] at hp ⊢
        exact ih hp
    | @act j q o k input s r hrunning hnext hperform =>
      by_cases hj : i = j
      · subst hj
        simp only [Function.update_self, Thread.running.injEq] at hp
        subst hp
        simp only [Observer.step, Function.update_self]
        have h := hob.unroll (ih hrunning)
        rw [hnext] at h
        exact h.resume r
      · simp only [Observer.step, Function.update_of_ne hj] at hp ⊢
        exact ih hp
    | @world w s ends hworld =>
      cases ends with
      | false => exact ih hp
      | true =>
        rename_i evs' cfg'
        simp only [if_true] at hp
        cases ht : cfg'.thread i <;> simp [ht, Thread.ended] at hp

theorem Covers.allows (hob : ob.Covers sys Q) (hinit : ∀ i, cfg₀.thread i = .fresh)
    (hrun : sys.RunWhere P cfg₀ evs cfg) {i : ι} {p : Program O R C} (hp : cfg.thread i = .running p)
    {o : O} {k : R o → Program O R C} (hnext : sys.unroll i p = .act o k) :
    (ob.monitor i).allows (ob.ghosts g₀ evs i) o := by
  have hmeets : Meets (ob.monitor i) (Q i) (ob.ghosts g₀ evs i) p := hob.meets hinit hrun hp
  have h := hob.unroll hmeets
  rw [hnext] at h
  exact h.allowed

/-- An invariant of the shared state and the monitors: kept by every allowed action and by every step
    of the world, it holds in every run. -/
theorem Covers.invariant (hob : ob.Covers sys Q) (hfresh : ∀ i, cfg₀.thread i = .fresh)
    (hbegin : ∀ i c, ob.begin i c = g₀ i) {J : σ → (ι → G) → Prop} (hinit : J cfg₀.shared g₀)
    (hact : ∀ {evs cfg cfg' i o r input}, P evs cfg (.act i o r) cfg' →
      (ob.monitor i).allows (ob.ghosts g₀ evs i) o →
      sys.perform i cfg.shared o input = some (cfg'.shared, r) → J cfg.shared (ob.ghosts g₀ evs) →
      J cfg'.shared (Function.update (ob.ghosts g₀ evs) i ((ob.monitor i).next (ob.ghosts g₀ evs i) o r)))
    (hworld : ∀ {evs cfg w cfg' ends}, P evs cfg (.world w) cfg' → sys.world cfg.shared w = some (cfg'.shared, ends) →
      J cfg.shared (ob.ghosts g₀ evs) → J cfg'.shared (ob.ghosts g₀ evs))
    (hrun : sys.RunWhere P cfg₀ evs cfg) : J cfg.shared (ob.ghosts g₀ evs) := by
  induction hrun with
  | nil => exact hinit
  | snoc run step ok ih =>
    rw [ghosts_snoc]
    cases step with
    | @spawn i c hthread _ =>
      have hi : ob.ghosts g₀ _ i = g₀ i := ghosts_of_fresh run hthread
      simp only [Observer.step, hbegin]
      rw [← hi, Function.update_eq_self]
      exact ih
    | act hrunning hnext hperform => exact hact ok (hob.allows hfresh run hrunning hnext) hperform ih
    | world hw => exact hworld ok hw ih

/-- An induction over runs in which every action is allowed when it comes. -/
theorem Covers.induction (hob : ob.Covers sys Q) (hfresh : ∀ i, cfg₀.thread i = .fresh)
    {J : List (Event ι O R C W) → Config ι σ O R C → Prop} (hinit : J [] cfg₀)
    (hstep : ∀ {evs cfg e cfg'}, sys.RunWhere P cfg₀ evs cfg → sys.Step cfg e cfg' → P evs cfg e cfg' →
      (∀ i o r, e = .act i o r → (ob.monitor i).allows (ob.ghosts g₀ evs i) o) → J evs cfg → J (evs ++ [e]) cfg')
    (hrun : sys.RunWhere P cfg₀ evs cfg) : J evs cfg := by
  induction hrun with
  | nil => exact hinit
  | @snoc evs cfg cfg' e run step ok ih =>
    apply hstep run step ok _ ih
    intro i o r he
    cases step with
    | act hrunning hnext _ =>
      cases he
      exact hob.allows hfresh run hrunning hnext
    | spawn _ _ => cases he
    | world _ => cases he

end Observer
end
end Programs
