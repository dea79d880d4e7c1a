import AtomMqtt.Library.Threads

set_option autoImplicit false

/-! Runs from which something is left out. Some threads are left out of a run, and with them the actions of the
others that were for them. The rest is a run by itself, if the others cannot tell: the replies they get may
differ by what `view` takes away, and then they go on in the same way, less what is left out. -/
namespace Programs

section
variable {O : Type} {R : O → Type} {α β γ : Type} {hidden : O → Bool} {view : ∀ o, R o → R o}

/-- The second program is the first without the hidden actions, on the replies as `view` has them. -/
inductive Erases (hidden : O → Bool) (view : ∀ o, R o → R o) : Program O R α → Program O R α → Prop
  | ret (x : α) : Erases hidden view (.ret x) (.ret x)
  | keep {o : O} {k k' : R o → Program O R α} (ho : hidden o = false)
      (h : ∀ r, Erases hidden view (k r) (k' (view o r))) : Erases hidden view (.act o k) (.act o k')
  | drop {o : O} {k : R o → Program O R α} {p : Program O R α} (ho : hidden o = true)
      (h : ∀ r, Erases hidden view (k r) p) : Erases hidden view (.act o k) p

namespace Erases

theorem bind {p p' : Program O R α} {f f' : α → Program O R β} (h : Erases hidden view p p')
    (hf : ∀ x, Erases hidden view (f x) (f' x)) : Erases hidden view (p >>= f) (p' >>= f') := by
  induction h with
  | ret x => exact hf x
  | keep ho _ ih => exact .keep ho ih
  | drop ho _ ih => exact .drop ho ih

theorem of_only {N : O → Prop} {p : Program O R α} (h : Only N p) (hhidden : ∀ o, N o → hidden o = false)
    (hview : ∀ o, N o → ∀ r, view o r = r) : Erases hidden view p p := by
  induction h with
  | ret x => exact .ret x
  | act ho _ ih =>
    apply keep (hhidden _ ho)
    intro r
    rw [hview _ ho]
    exact ih r

theorem forM_filter {keeps : γ → Bool} {f : γ → Program O R PUnit} {xs : List γ}
    (hkeep : ∀ x, keeps x = true → Erases hidden view (f x) (f x))
    (hdrop : ∀ x, keeps x = false → Erases hidden view (f x) (.ret ⟨⟩)) :
    Erases hidden view (xs.forM f) ((xs.filter keeps).forM f) := by
  induction xs with
  | nil => exact .ret _
  | cons x xs ih =>
    rw [List.filter_cons]
    cases hx : keeps x with
    | true => exact (hkeep x hx).bind fun _ => ih
    | false =>
      change Erases hidden view (f x >>= fun _ => xs.forM f)
        (Program.ret PUnit.unit >>= fun _ => (xs.filter keeps).forM f)
      exact (hdrop x hx).bind fun _ => ih

end Erases
end

section
variable {ι σ O : Type} {R : O → Type} {C I W : Type} [DecidableEq ι]
  {gone : ι → Bool} {hidden : ι → O → Bool} {view : ∀ o, R o → R o}

def Event.erase (gone : ι → Bool) (hidden : ι → O → Bool) (view : ∀ o, R o → R o) :
    Event ι O R C W → Option (Event ι O R C W)
  | .spawn i c => if gone i then none else some (.spawn i c)
  | .act i o r => if gone i || hidden i o then none else some (.act i o (view o r))
  | .world w => some (.world w)

inductive ThreadErases (hidden : O → Bool) (view : ∀ o, R o → R o) : Thread O R C → Thread O R C → Prop
  | fresh : ThreadErases hidden view .fresh .fresh
  | running {p p' : Program O R C} (h : Erases hidden view p p') : ThreadErases hidden view (.running p) (.running p')
  | dead : ThreadErases hidden view .dead .dead

theorem ThreadErases.of_running {h : O → Bool} {t t' : Thread O R C} (ht : ThreadErases h view t t') {p : Program O R C}
    (hp : t = .running p) : ∃ p', t' = .running p' ∧ Erases h view p p' := by
  cases ht with
  | running herases =>
    cases hp
    exact ⟨_, rfl, herases⟩
  | fresh => cases hp
  | dead => cases hp

theorem ThreadErases.of_fresh {h : O → Bool} {t t' : Thread O R C} (ht : ThreadErases h view t t')
    (hfresh : t = .fresh) : t' = .fresh := by
  cases ht with
  | fresh => rfl
  | running _ => cases hfresh
  | dead => cases hfresh

theorem ThreadErases.ended {h : O → Bool} {t t' : Thread O R C} (ht : ThreadErases h view t t') :
    ThreadErases h view t.ended t'.ended := by
  cases ht with
  | fresh => exact .fresh
  | running _ => exact .dead
  | dead => exact .dead

structure Leaves (gone : ι → Bool) (hidden : ι → O → Bool) (view : ∀ o, R o → R o) (thread thread' : ι → Thread O R C) :
    Prop where
  out : ∀ i, gone i = true → thread' i = .fresh
  kept : ∀ i, gone i = false → ThreadErases (hidden i) view (thread i) (thread' i)

namespace Leaves
variable {thread thread' : ι → Thread O R C} {i : ι} {t t' : Thread O R C}

theorem alone (h : Leaves gone hidden view thread thread')
    (ht : gone i = false → ThreadErases (hidden i) view t (thread' i)) :
    Leaves gone hidden view (Function.update thread i t) thread' where
  out := h.out
  kept := by
    intro j hj
    by_cases hji : j = i
    · subst hji
      rw [Function.update_self]
      exact ht hj
    · rw [Function.update_of_ne hji]
      exact h.kept j hj

theorem both (h : Leaves gone hidden view thread thread') (hi : gone i = false)
    (ht : ThreadErases (hidden i) view t t') :
    Leaves gone hidden view (Function.update thread i t) (Function.update thread' i t') where
  out := by
    intro j hj
    have hne : j ≠ i := by
      rintro rfl
      cases hj.symm.trans hi
    rw [Function.update_of_ne hne]
    exact h.out j hj
  kept := by
    intro j hj
    by_cases hji : j = i
    · subst hji
      rw [Function.update_self, Function.update_self]
      exact ht
    · rw [Function.update_of_ne hji, Function.update_of_ne hji]
      exact h.kept j hj

omit [DecidableEq ι] in
theorem ended (h : Leaves gone hidden view thread thread') (ends : Bool) :
    Leaves gone hidden view (if ends then fun i => (thread i).ended else thread)
      (if ends then fun i => (thread' i).ended else thread') := by
  cases ends with
  | false => exact h
  | true => exact ⟨fun i hi => Thread.ended_eq_fresh.mpr (h.out i hi), fun i hi => (h.kept i hi).ended⟩

end Leaves

/-- What it takes to leave the threads that are `gone` out of the runs from `cfg₀` that are as `P` asks: the states
    with them and without are related by `Rel`. -/
structure Erasure (sys : System ι σ O R C I W) (gone : ι → Bool) (hidden : ι → O → Bool) (view : ∀ o, R o → R o)
    (P : List (Event ι O R C W) → Config ι σ O R C → Event ι O R C W → Config ι σ O R C → Prop)
    (cfg₀ : Config ι σ O R C) (Rel : σ → σ → Prop) : Prop where
  init : Rel cfg₀.shared cfg₀.shared
  fresh : ∀ i, cfg₀.thread i = .fresh
  body : ∀ {evs cfg i c}, sys.RunWhere P cfg₀ evs cfg → cfg.thread i = .running (.ret c) → gone i = false →
    Erases (hidden i) view (sys.body i c) (sys.body i c)
  first : ∀ {evs cfg i c o k}, sys.RunWhere P cfg₀ evs cfg → cfg.thread i = .running (.ret c) → gone i = false →
    sys.body i c = .act o k → hidden i o = false
  start : ∀ {s s' i c}, Rel s s' → gone i = false → sys.start s i c = true → sys.start s' i c = true
  kept : ∀ {evs cfg cfg' i o r input s}, sys.RunWhere P cfg₀ evs cfg → P evs cfg (.act i o r) cfg' → gone i = false →
    hidden i o = false → sys.perform i cfg.shared o input = some (cfg'.shared, r) → Rel cfg.shared s →
      ∃ s', sys.perform i s o input = some (s', view o r) ∧ Rel cfg'.shared s'
  left : ∀ {evs cfg cfg' i o r s}, sys.RunWhere P cfg₀ evs cfg → sys.Step cfg (.act i o r) cfg' →
    P evs cfg (.act i o r) cfg' → (gone i || hidden i o) = true → Rel cfg.shared s → Rel cfg'.shared s
  world : ∀ {evs cfg w t ends s}, sys.RunWhere P cfg₀ evs cfg → sys.world cfg.shared w = some (t, ends) →
    Rel cfg.shared s → ∃ s', sys.world s w = some (s', ends) ∧ Rel t s'

namespace Erasure
variable {sys : System ι σ O R C I W}
  {P : List (Event ι O R C W) → Config ι σ O R C → Event ι O R C W → Config ι σ O R C → Prop}
  {cfg₀ cfg : Config ι σ O R C} {Rel : σ → σ → Prop} {evs : List (Event ι O R C W)}

theorem next (h : Erasure sys gone hidden view P cfg₀ Rel) (hrun : sys.RunWhere P cfg₀ evs cfg) {i : ι}
    (hi : gone i = false) {q q' : Program O R C} (hq : cfg.thread i = .running q)
    (herases : Erases (hidden i) view q q') {o : O} {k : R o → Program O R C} (hnext : sys.unroll i q = .act o k) :
    (hidden i o = true ∧ ∀ r, Erases (hidden i) view (k r) q') ∨
      (hidden i o = false ∧ ∃ k', sys.unroll i q' = .act o k' ∧ ∀ r, Erases (hidden i) view (k r) (k' (view o r))) := by
  cases herases with
  | ret c =>
    have hbody := h.body hrun hq hi
    change sys.body i c = .act o k at hnext
    have hshown := h.first hrun hq hi hnext
    rw [hnext] at hbody
    cases hbody with
    | keep _ hk => exact .inr ⟨hshown, k, hnext, hk⟩
    | drop ho _ => cases hshown.symm.trans ho
  | keep ho hk =>
    cases hnext
    exact .inr ⟨ho, _, rfl, hk⟩
  | drop ho hk =>
    cases hnext
    exact .inl ⟨ho, hk⟩

/-- Every run leaves a run, and a related state. -/
theorem run (h : Erasure sys gone hidden view P cfg₀ Rel) (hrun : sys.RunWhere P cfg₀ evs cfg) :
    ∃ cfg', sys.Run cfg₀ (evs.filterMap (Event.erase gone hidden view)) cfg' ∧ Rel cfg.shared cfg'.shared ∧
      Leaves gone hidden view cfg.thread cfg'.thread := by
  induction hrun with
  | nil =>
    refine ⟨cfg₀, .nil, h.init, fun i _ => h.fresh i, fun i _ => ?_⟩
    rw [h.fresh]
    exact .fresh
  | @snoc evs cfg cfg₂ e run step ok ih =>
    obtain ⟨cfg', hrun', hrel, hleaves⟩ := ih
    rw [List.filterMap_append]
    cases step with
    | @spawn i c hfresh hstart =>
      cases hi : gone i with
      | true =>
        have hout : (Event.spawn i c : Event ι O R C W).erase gone hidden view = none := if_pos hi
        rw [List.filterMap_cons_none hout, List.filterMap_nil, List.append_nil]
        exact ⟨cfg', hrun', hrel, hleaves.alone fun hkept => absurd (hi.symm.trans hkept) nofun⟩
      | false =>
        have hfresh' := (hleaves.kept i hi).of_fresh hfresh
        have hkept : (Event.spawn i c : Event ι O R C W).erase gone hidden view = some (.spawn i c) :=
          if_neg (by simp [hi])
        rw [List.filterMap_cons_some hkept]
        exact ⟨_, .snoc hrun' (.spawn hfresh' (h.start hrel hi hstart)) trivial, hrel,
          hleaves.both hi (.running (.ret c))⟩
    | @act i q o k input s r hrunning hnext hperform =>
      have hstep := System.Step.act hrunning hnext hperform
      cases hi : gone i with
      | true =>
        have hor : (gone i || hidden i o) = true := by simp [hi]
        have hout : (Event.act i o r : Event ι O R C W).erase gone hidden view = none := if_pos hor
        rw [List.filterMap_cons_none hout, List.filterMap_nil, List.append_nil]
        exact ⟨cfg', hrun', h.left run hstep ok hor hrel, hleaves.alone fun hkept => absurd (hi.symm.trans hkept) nofun⟩
      | false =>
        obtain ⟨q', hq', herases⟩ := (hleaves.kept i hi).of_running hrunning
        obtain ⟨hhidden, hk⟩ | ⟨hshown, k', hnext', hk⟩ := h.next run hi hrunning herases hnext
        · have hor : (gone i || hidden i o) = true := by simp [hhidden]
          have hout : (Event.act i o r : Event ι O R C W).erase gone hidden view = none := if_pos hor
          rw [List.filterMap_cons_none hout, List.filterMap_nil, List.append_nil]
          refine ⟨cfg', hrun', h.left run hstep ok hor hrel, hleaves.alone fun _ => ?_⟩
          rw [hq']
          exact .running (hk r)
        · obtain ⟨s', hperform', hrel'⟩ := h.kept run ok hi hshown hperform hrel
          have hkept : (Event.act i o r : Event ι O R C W).erase gone hidden view = some (.act i o (view o r)) :=
            if_neg (by simp [hi, hshown])
          rw [List.filterMap_cons_some hkept]
          exact ⟨_, .snoc hrun' (.act hq' hnext' hperform') trivial, hrel', hleaves.both hi (.running (hk r))⟩
    | @world w s ends hworld =>
      obtain ⟨s', hworld', hrel'⟩ := h.world run hworld hrel
      exact ⟨_, .snoc hrun' (.world hworld') trivial, hrel', hleaves.ended ends⟩

end Erasure
end
end Programs
