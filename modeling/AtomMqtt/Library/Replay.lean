import AtomMqtt.Library.Threads

set_option autoImplicit false

/-! Runs are determined by their events. Where the reply of an action tells what the action has done to the
state, the events of a run tell where it leads. So what holds after the first events of a run holds wherever
they lead. -/
namespace Programs

section
variable {ι σ O : Type} {R : O → Type} {C I W : Type} [DecidableEq ι]

namespace System
variable (sys : System ι σ O R C I W)

/-- The state after an action depends on the input only as far as the reply does. -/
def Told : Prop :=
  ∀ {i : ι} {s s₁ s₂ : σ} {o : O} {input input' : I} {r : R o},
    sys.perform i s o input = some (s₁, r) → sys.perform i s o input' = some (s₂, r) → s₁ = s₂

variable {sys} {P P' : List (Event ι O R C W) → Config ι σ O R C → Event ι O R C W → Config ι σ O R C → Prop}
  {cfg₀ cfg cfg₁ cfg₂ : Config ι σ O R C} {evs evs' : List (Event ι O R C W)} {e : Event ι O R C W}

theorem Step.unique (htold : sys.Told) (h₁ : sys.Step cfg e cfg₁) (h₂ : sys.Step cfg e cfg₂) : cfg₁ = cfg₂ := by
  cases h₁ with
  | spawn _ _ =>
    cases h₂ with
    | spawn _ _ => rfl
  | act hrunning hnext hperform =>
    cases h₂ with
    | act hrunning' hnext' hperform' =>
      cases hrunning.symm.trans hrunning'
      cases hnext.symm.trans hnext'
      cases htold hperform hperform'
      rfl
  | world hworld =>
    cases h₂ with
    | world hworld' =>
      cases hworld.symm.trans hworld'
      rfl

theorem RunWhere.unique (htold : sys.Told) (h₁ : sys.RunWhere P cfg₀ evs cfg₁) (h₂ : sys.RunWhere P' cfg₀ evs cfg₂) :
    cfg₁ = cfg₂ := by
  induction h₁ generalizing cfg₂ with
  | nil =>
    generalize hevs : ([] : List (Event ι O R C W)) = evs at h₂
    cases h₂ with
    | nil => rfl
    | snoc _ _ _ => simp at hevs
  | @snoc evs cfg cfg₁ e run step _ ih =>
    generalize hevs : evs ++ [e] = evs' at h₂
    cases h₂ with
    | nil => simp at hevs
    | snoc run' step' _ =>
      obtain ⟨rfl, heq⟩ := List.append_inj' hevs rfl
      cases heq
      cases ih run'
      exact step.unique htold step'

theorem RunWhere.append (h : sys.Run cfg₀ evs cfg) (h' : sys.RunWhere P cfg evs' cfg₁) : sys.Run cfg₀ (evs ++ evs') cfg₁ := by
  induction h' with
  | nil =>
    rw [List.append_nil]
    exact h
  | snoc _ step _ ih =>
    rw [← List.append_assoc]
    exact .snoc ih step trivial

theorem RunWhere.halves (h : sys.RunWhere P cfg₀ (evs ++ evs') cfg₁) :
    ∃ cfg, sys.RunWhere P cfg₀ evs cfg ∧ sys.Run cfg evs' cfg₁ := by
  induction evs' using List.reverseRecOn generalizing cfg₁ with
  | nil =>
    rw [List.append_nil] at h
    exact ⟨cfg₁, h, .nil⟩
  | append_singleton evs' e ih =>
    rw [← List.append_assoc] at h
    generalize hevs : evs ++ evs' ++ [e] = all at h
    cases h with
    | nil => simp at hevs
    | snoc run step _ =>
      obtain ⟨rfl, heq⟩ := List.append_inj' hevs rfl
      cases heq
      obtain ⟨cfg, hfirst, hrest⟩ := ih run
      exact ⟨cfg, hfirst, .snoc hrest step trivial⟩

theorem RunWhere.continued (htold : sys.Told) (h : sys.RunWhere P cfg₀ evs cfg)
    (h' : sys.RunWhere P' cfg₀ (evs ++ evs') cfg₁) : sys.Run cfg evs' cfg₁ := by
  obtain ⟨cfg', hfirst, hrest⟩ := h'.halves
  cases h.unique htold hfirst
  exact hrest

/-- The runs all whose events are as `Q` asks. -/
abbrev RunOf (sys : System ι σ O R C I W) (Q : Event ι O R C W → Prop) :
    Config ι σ O R C → List (Event ι O R C W) → Config ι σ O R C → Prop := sys.RunWhere fun _ _ e _ => Q e

variable {Q : Event ι O R C W → Prop} {evs₁ evs₂ : List (Event ι O R C W)}

theorem RunWhere.runOf (h : sys.RunWhere P cfg evs cfg₁) (hevs : ∀ e ∈ evs, Q e) : sys.RunOf Q cfg evs cfg₁ := by
  induction h with
  | nil => exact .nil
  | snoc _ step _ ih =>
    obtain ⟨hbefore, hlast⟩ := List.forall_mem_append.mp hevs
    exact .snoc (ih hbefore) step (List.forall_mem_singleton.mp hlast)

theorem RunWhere.all (h : sys.RunOf Q cfg evs cfg₁) : ∀ e ∈ evs, Q e := by
  induction h with
  | nil => exact List.forall_mem_nil _
  | snoc _ _ ok ih => exact List.forall_mem_append.mpr ⟨ih, List.forall_mem_singleton.mpr ok⟩

theorem RunWhere.appendOf (h : sys.RunOf Q cfg₀ evs cfg) (h' : sys.RunOf Q cfg evs' cfg₁) :
    sys.RunOf Q cfg₀ (evs ++ evs') cfg₁ := by
  have hboth : sys.Run cfg₀ (evs ++ evs') cfg₁ := RunWhere.append (h.mono sys fun _ _ _ _ _ => trivial) h'
  exact hboth.runOf (List.forall_mem_append.mpr ⟨h.all, h'.all⟩)

theorem RunWhere.first (h : sys.RunOf Q cfg (e :: evs) cfg₁) :
    ∃ cfg', sys.Step cfg e cfg' ∧ Q e ∧ sys.RunOf Q cfg' evs cfg₁ := by
  obtain ⟨hfirst, hrest⟩ := List.forall_mem_cons.mp h.all
  rw [← List.singleton_append] at h
  obtain ⟨cfg', hstep, hafter⟩ := h.halves
  refine ⟨cfg', ?_, hfirst, hafter.runOf hrest⟩
  generalize hevs : [e] = one at hstep
  cases hstep with
  | nil => cases hevs
  | snoc run step _ =>
    rw [← List.nil_append [e]] at hevs
    obtain ⟨hnil, heq⟩ := List.append_inj' hevs rfl
    cases heq
    subst hnil
    generalize hnone : ([] : List (Event ι O R C W)) = none at run
    cases run with
    | nil => exact step
    | snoc _ _ _ => simp at hnone

/-- Where no two of these steps lead apart, of two such runs one goes on from the other. -/
theorem RunWhere.comparable (hone : ∀ {evs : List (Event ι O R C W)} {cfg' cfg₁ cfg₂ : Config ι σ O R C}
      {e₁ e₂ : Event ι O R C W}, sys.RunOf Q cfg evs cfg' → sys.Step cfg' e₁ cfg₁ → Q e₁ → sys.Step cfg' e₂ cfg₂ → Q e₂ →
      e₁ = e₂ ∧ cfg₁ = cfg₂)
    (h₁ : sys.RunOf Q cfg evs₁ cfg₁) (h₂ : sys.RunOf Q cfg evs₂ cfg₂) :
    (∃ rest, evs₂ = evs₁ ++ rest ∧ sys.RunOf Q cfg₁ rest cfg₂) ∨ ∃ rest, evs₁ = evs₂ ++ rest ∧ sys.RunOf Q cfg₂ rest cfg₁ := by
  induction h₁ with
  | nil => exact .inl ⟨evs₂, rfl, h₂⟩
  | @snoc evs cfg₁ cfg₁' e run step ok ih =>
    rcases ih with ⟨rest, rfl, hrest⟩ | ⟨rest, rfl, hrest⟩
    · cases rest with
      | nil =>
        generalize hnone : ([] : List (Event ι O R C W)) = none at hrest
        cases hrest with
        | nil => exact .inr ⟨[e], by rw [List.append_nil], .snoc .nil step ok⟩
        | snoc _ _ _ => simp at hnone
      | cons e' rest =>
        obtain ⟨cfg', hstep, hok, hafter⟩ := hrest.first
        obtain ⟨rfl, rfl⟩ := hone run step ok hstep hok
        exact .inl ⟨rest, by rw [List.append_assoc, List.singleton_append], hafter⟩
    · exact .inr ⟨rest ++ [e], by rw [List.append_assoc], .snoc hrest step ok⟩

end System
end
end Programs
