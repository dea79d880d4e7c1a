import AtomMqtt.Library.Threads

set_option autoImplicit false

/-! The course of a thread. What a thread has done in a run is a number of whole turns of its body and the
beginning of one more, whatever the other threads do. So what every execution of the body ensures holds of the
threads in the runs of a system. -/
namespace Programs

section
variable {O : Type} {R : O → Type} {α C : Type}

inductive Partway : Program O R α → Trace O R → Program O R α → Prop
  | here (p : Program O R α) : Partway p [] p
  | act (o : O) {k : R o → Program O R α} (r : R o) {tr : Trace O R} {q : Program O R α} (tail : Partway (k r) tr q) :
      Partway (.act o k) (⟨o, r⟩ :: tr) q

namespace Partway
variable {p q : Program O R α} {tr tr' : Trace O R} {x : α}

theorem exec (h : Partway p tr q) (hq : Exec q tr' x) : Exec p (tr ++ tr') x := by
  induction h with
  | here p => exact hq
  | act o r tail ih => exact .act o r (ih hq)

theorem exec_ret (h : Partway p tr (.ret x)) : Exec p tr x := by
  have hexec := h.exec (.ret x)
  rwa [List.append_nil] at hexec

theorem snoc {o : O} {k : R o → Program O R α} (h : Partway p tr (.act o k)) (r : R o) :
    Partway p (tr ++ [⟨o, r⟩]) (k r) := by
  generalize hq : Program.act o k = q at h
  induction h with
  | here p =>
    subst hq
    exact .act o r (.here _)
  | act o' r' tail ih => exact .act o' r' (ih hq)

theorem completed (h : Partway p tr q) (reply : ∀ o, R o) :
    ∃ tr' x, Exec p (tr ++ tr') x ∧ ∀ e ∈ tr', e.2 = reply e.1 :=
  ⟨_, _, h.exec (exec_follow reply q), follow_reply reply q⟩

end Partway

theorem History.snoc {body : C → Program O R C} {c c' c'' : C} {h : List (C × Trace O R)} {tr : Trace O R}
    (hhistory : History body c h c') (hturn : Exec (body c') tr c'') : History body c (h ++ [(c', tr)]) c'' := by
  induction hhistory with
  | done c => exact .turn hturn (.done c'')
  | turn first rest ih => exact .turn first (ih hturn)

end

section
variable {ι σ O : Type} {R : O → Type} {C I W : Type}

namespace System
variable (sys : System ι σ O R C I W)

/-- A thread that began with `c` has made whole turns and begun with the next, and that is where it stands if it runs. -/
def Course (i : ι) (c : C) (tr : Trace O R) (t : Thread O R C) : Prop :=
  ∃ h c' part q, History (sys.body i) c h c' ∧ tr = h.flatMap Prod.snd ++ part ∧ Partway (sys.body i c') part q ∧
    ∀ p, t = .running p → sys.unroll i p = q ∧ ∀ c'', p = .ret c'' → part = [] ∧ c'' = c'

variable {sys} {i : ι} {c : C} {tr : Trace O R} {t : Thread O R C}

theorem Course.begin : sys.Course i c [] (.running (.ret c)) := by
  refine ⟨[], c, [], sys.body i c, .done c, rfl, .here _, ?_⟩
  intro p hp
  cases hp
  refine ⟨rfl, ?_⟩
  intro c'' hc
  cases hc
  exact ⟨rfl, rfl⟩

theorem Course.act {p : Program O R C} {o : O} {k : R o → Program O R C} (h : sys.Course i c tr (.running p))
    (hnext : sys.unroll i p = .act o k) (r : R o) : sys.Course i c (tr ++ [⟨o, r⟩]) (.running (k r)) := by
  obtain ⟨h, c', part, q, hhistory, rfl, hpartway, hstands⟩ := h
  obtain ⟨rfl, -⟩ := hstands p rfl
  rw [hnext] at hpartway
  have hpart := hpartway.snoc r
  cases hk : k r with
  | ret c'' =>
    rw [hk] at hpart
    refine ⟨h ++ [(c', part ++ [⟨o, r⟩])], c'', [], sys.body i c'', hhistory.snoc hpart.exec_ret, ?_, .here _, ?_⟩
    · simp
    · intro p' hp'
      cases hp'
      refine ⟨rfl, ?_⟩
      intro c₂ hc₂
      cases hc₂
      exact ⟨rfl, rfl⟩
  | act o' k' =>
    refine ⟨h, c', part ++ [⟨o, r⟩], k r, hhistory, List.append_assoc _ _ _, hpart, ?_⟩
    intro p' hp'
    cases hp'
    refine ⟨by rw [hk]; rfl, ?_⟩
    intro c₂ hc₂
    cases hc₂

theorem Course.stop (h : sys.Course i c tr t) : sys.Course i c tr .dead := by
  obtain ⟨h, c', part, q, hhistory, htr, hpartway, -⟩ := h
  refine ⟨h, c', part, q, hhistory, htr, hpartway, ?_⟩
  intro p hp
  cases hp

variable [DecidableEq ι]

/-- A thread has not begun, and nothing speaks of it, or it has begun once and keeps to its course. -/
def Kept (sys : System ι σ O R C I W) (i : ι) (evs : List (Event ι O R C W)) (t : Thread O R C) : Prop :=
  (t = .fresh ∧ traceOf i evs = [] ∧ ∀ c, .spawn i c ∉ evs) ∨
    ∃ c, t ≠ .fresh ∧ .spawn i c ∈ evs ∧ (∀ c', .spawn i c' ∈ evs → c' = c) ∧ sys.Course i c (traceOf i evs) t

variable {P : List (Event ι O R C W) → Config ι σ O R C → Event ι O R C W → Config ι σ O R C → Prop}
  {cfg₀ cfg cfg' : Config ι σ O R C} {evs : List (Event ι O R C W)}

theorem Kept.frame (h : sys.Kept i evs t) {e : Event ι O R C W} (htrace : traceOf i [e] = [])
    (hspawn : ∀ c, e ≠ .spawn i c) : sys.Kept i (evs ++ [e]) t := by
  have hmem : ∀ c, .spawn i c ∈ evs ++ [e] → .spawn i c ∈ evs := by
    intro c hc
    cases List.mem_append.mp hc with
    | inl h => exact h
    | inr h => exact absurd (List.mem_singleton.mp h).symm (hspawn c)
  rw [Kept, traceOf_append, htrace, List.append_nil]
  cases h with
  | inl h => exact .inl ⟨h.1, h.2.1, fun c hc => h.2.2 c (hmem c hc)⟩
  | inr h =>
    obtain ⟨c, hbegun, hspawned, honly, hcourse⟩ := h
    exact .inr ⟨c, hbegun, List.mem_append_left _ hspawned, fun c' hc' => honly c' (hmem c' hc'), hcourse⟩

theorem Kept.step (h : sys.Kept i evs (cfg.thread i)) {e : Event ι O R C W} (step : sys.Step cfg e cfg') :
    sys.Kept i (evs ++ [e]) (cfg'.thread i) := by
  cases step with
  | @spawn j c hfresh _ =>
    by_cases hij : i = j
    · subst hij
      cases h with
      | inr h => exact absurd hfresh h.choose_spec.1
      | inl h =>
        obtain ⟨-, htrace, hspawn⟩ := h
        refine .inr ⟨c, ?_, ?_, ?_, ?_⟩
        · simp
        · exact List.mem_append_right _ List.mem_cons_self
        · intro c' hc'
          cases List.mem_append.mp hc' with
          | inl hbefore => exact absurd hbefore (hspawn c')
          | inr hlast =>
            cases List.mem_singleton.mp hlast
            rfl
        · rw [traceOf_append, htrace]
          simp only [Function.update_self]
          exact Course.begin
    · simp only [Function.update_of_ne hij]
      refine h.frame rfl ?_
      intro c' hc'
      cases hc'
      exact hij rfl
  | @act j p o k input s r hrunning hnext _ =>
    by_cases hij : i = j
    · subst hij
      cases h with
      | inl h => cases h.1.symm.trans hrunning
      | inr h =>
        obtain ⟨c, -, hspawned, honly, hcourse⟩ := h
        refine .inr ⟨c, ?_, ?_, ?_, ?_⟩
        · simp
        · exact List.mem_append_left _ hspawned
        · intro c' hc'
          exact honly c' ((List.mem_append.mp hc').resolve_right (by simp))
        · rw [hrunning] at hcourse
          rw [traceOf_append, traceOf_act]
          simp only [Function.update_self]
          exact hcourse.act hnext r
    · simp only [Function.update_of_ne hij]
      exact h.frame (traceOf_act_other hij o r) (by simp)
  | @world w s ends _ =>
    have hkept : sys.Kept i (evs ++ [.world w]) (cfg.thread i) := h.frame rfl (by simp)
    cases ends with
    | false => exact hkept
    | true =>
      change sys.Kept i _ (cfg.thread i).ended
      cases hkept with
      | inl h =>
        obtain ⟨hfresh, hrest⟩ := h
        rw [hfresh]
        exact .inl ⟨rfl, hrest⟩
      | inr h =>
        obtain ⟨c, hbegun, hspawned, honly, hcourse⟩ := h
        refine .inr ⟨c, mt Thread.ended_eq_fresh.mp hbegun, hspawned, honly, ?_⟩
        cases ht : cfg.thread i with
        | fresh => exact absurd ht hbegun
        | running p => exact hcourse.stop
        | dead => exact hcourse.stop

theorem kept_of_run (hinit : cfg₀.thread i = .fresh) (hrun : sys.RunWhere P cfg₀ evs cfg) :
    sys.Kept i evs (cfg.thread i) := by
  induction hrun with
  | nil => exact .inl ⟨hinit, rfl, fun _ => List.not_mem_nil⟩
  | snoc _ step _ ih => exact ih.step step

theorem spawn_once {c' : C} (hinit : cfg₀.thread i = .fresh) (hrun : sys.RunWhere P cfg₀ evs cfg)
    (hspawn : .spawn i c ∈ evs) (hspawn' : .spawn i c' ∈ evs) : c' = c := by
  cases kept_of_run hinit hrun with
  | inl h => exact absurd hspawn (h.2.2 c)
  | inr h =>
    obtain ⟨_, -, -, honly, -⟩ := h
    rw [honly c hspawn, honly c' hspawn']

/-- In every run, a thread that has begun keeps to its course. -/
theorem course_of_run (hinit : cfg₀.thread i = .fresh) (hrun : sys.RunWhere P cfg₀ evs cfg) (hspawn : .spawn i c ∈ evs) :
    sys.Course i c (traceOf i evs) (cfg.thread i) := by
  cases kept_of_run hinit hrun with
  | inl h => exact absurd hspawn (h.2.2 c)
  | inr h =>
    obtain ⟨c', -, -, honly, hcourse⟩ := h
    rw [honly c hspawn]
    exact hcourse

end System
end
end Programs
