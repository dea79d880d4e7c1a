import Mathlib.Data.List.Basic

set_option autoImplicit false

/-! Programs of actions. A program performs actions one after the other and goes on with the reply to each; what
an action does is said elsewhere. `Exec` gives its complete traces, whatever the replies. A monitor follows the
actions with a state of its own and says which are allowed; `Meets` says that a program only performs allowed
ones and ends as asked, and is composed along `bind`. -/
namespace Programs

inductive Program (O : Type) (R : O → Type) (α : Type) where
  | ret (x : α)
  | act (o : O) (k : R o → Program O R α)

section
variable {O : Type} {R : O → Type} {α β γ : Type}

namespace Program

def bind : Program O R α → (α → Program O R β) → Program O R β
  | .ret x, f => f x
  | .act o k, f => .act o fun r => (k r).bind f

instance : Monad (Program O R) where
  pure := .ret
  bind := bind

theorem bind_ret (p : Program O R α) : p.bind .ret = p := by
  induction p with
  | ret x => rfl
  | act o k ih => exact congrArg (Program.act o) (funext ih)

theorem bind_assoc (p : Program O R α) (f : α → Program O R β) (g : β → Program O R γ) :
    (p.bind f).bind g = p.bind fun x => (f x).bind g := by
  induction p with
  | ret x => rfl
  | act o k ih => exact congrArg (Program.act o) (funext ih)

instance : LawfulMonad (Program O R) :=
  LawfulMonad.mk' _ bind_ret (fun _ _ => rfl) bind_assoc

theorem act_bind (o : O) (k : R o → Program O R α) (f : α → Program O R β) :
    (Program.act o k >>= f) = .act o fun r => k r >>= f := rfl

def perform (o : O) : Program O R (R o) := .act o .ret

end Program

abbrev Trace (O : Type) (R : O → Type) := List (Σ o : O, R o)

/-- A complete execution. -/
inductive Exec : Program O R α → Trace O R → α → Prop
  | ret (x : α) : Exec (.ret x) [] x
  | act (o : O) {k : R o → Program O R α} (r : R o) {tr : Trace O R} {x : α} (tail : Exec (k r) tr x) :
      Exec (.act o k) (⟨o, r⟩ :: tr) x

theorem exec_ret_iff {x y : α} {tr : Trace O R} : Exec (Program.ret x : Program O R α) tr y ↔ tr = [] ∧ y = x := by
  constructor
  · rintro ⟨⟩
    exact ⟨rfl, rfl⟩
  · rintro ⟨rfl, rfl⟩
    exact .ret y

theorem exec_act_iff {o : O} {k : R o → Program O R α} {tr : Trace O R} {x : α} :
    Exec (.act o k) tr x ↔ ∃ r tail, tr = ⟨o, r⟩ :: tail ∧ Exec (k r) tail x := by
  constructor
  · rintro ⟨⟩
    exact ⟨_, _, rfl, ‹_›⟩
  · rintro ⟨r, tail, rfl, h⟩
    exact .act o r h

theorem Exec.bind {p : Program O R α} {f : α → Program O R β} {tr₁ tr₂ : Trace O R} {x : α} {y : β}
    (h₁ : Exec p tr₁ x) (h₂ : Exec (f x) tr₂ y) : Exec (p >>= f) (tr₁ ++ tr₂) y := by
  induction h₁ with
  | ret x => exact h₂
  | act o r tail ih => exact .act o r (ih h₂)

theorem exec_bind_iff {p : Program O R α} {f : α → Program O R β} {tr : Trace O R} {y : β} :
    Exec (p >>= f) tr y ↔ ∃ tr₁ tr₂ x, tr = tr₁ ++ tr₂ ∧ Exec p tr₁ x ∧ Exec (f x) tr₂ y := by
  constructor
  · intro h
    induction p generalizing tr with
    | ret x => exact ⟨[], tr, x, rfl, .ret x, h⟩
    | act o k ih =>
      rw [Program.act_bind] at h
      obtain ⟨r, tail, rfl, htail⟩ := exec_act_iff.mp h
      obtain ⟨tr₁, tr₂, x, rfl, h₁, h₂⟩ := ih r htail
      exact ⟨⟨o, r⟩ :: tr₁, tr₂, x, rfl, .act o r h₁, h₂⟩
  · rintro ⟨tr₁, tr₂, x, rfl, h₁, h₂⟩
    exact h₁.bind h₂

/-- The execution in which each action is given the reply that `reply` has for it. -/
def Program.follow (reply : ∀ o, R o) : Program O R α → Trace O R × α
  | .ret x => ([], x)
  | .act o k => (⟨o, reply o⟩ :: ((k (reply o)).follow reply).1, ((k (reply o)).follow reply).2)

theorem exec_follow (reply : ∀ o, R o) (p : Program O R α) : Exec p (p.follow reply).1 (p.follow reply).2 := by
  induction p with
  | ret x => exact .ret x
  | act o k ih => exact .act o (reply o) (ih (reply o))

theorem follow_reply (reply : ∀ o, R o) (p : Program O R α) : ∀ e ∈ (p.follow reply).1, e.2 = reply e.1 := by
  induction p with
  | ret x => exact List.forall_mem_nil _
  | act o k ih => exact List.forall_mem_cons.mpr ⟨rfl, ih (reply o)⟩

/-- Every complete execution is as `P` asks of its trace and its end. -/
structure Ensures (P : Trace O R → α → Prop) (p : Program O R α) : Prop where
  of_exec : ∀ {tr x}, Exec p tr x → P tr x

namespace Ensures
variable {P : Trace O R → α → Prop}

theorem ret {x : α} (h : P [] x) : Ensures P (.ret x) := by
  constructor
  intro tr y hexec
  obtain ⟨rfl, rfl⟩ := exec_ret_iff.mp hexec
  exact h

theorem act {o : O} {k : R o → Program O R α} (h : ∀ r, Ensures (fun tr x => P (⟨o, r⟩ :: tr) x) (k r)) :
    Ensures P (.act o k) := by
  constructor
  intro tr x hexec
  obtain ⟨r, tail, rfl, htail⟩ := exec_act_iff.mp hexec
  exact (h r).of_exec htail

theorem mono {P' : Trace O R → α → Prop} {p : Program O R α} (h : Ensures P p) (himp : ∀ tr x, P tr x → P' tr x) :
    Ensures P' p := by
  constructor
  intro tr x hexec
  exact himp tr x (h.of_exec hexec)

theorem trivial {p : Program O R α} : Ensures (fun _ _ => True) p := ⟨fun _ => True.intro⟩

/-- What the first part ensures carries the second. -/
theorem seq {P' : Trace O R → β → Prop} {p : Program O R α} {f : α → Program O R β} (h : Ensures P p)
    (hf : ∀ tr x, P tr x → Ensures (fun tr' y => P' (tr ++ tr') y) (f x)) : Ensures P' (p >>= f) := by
  constructor
  intro tr y hexec
  obtain ⟨tr₁, tr₂, x, rfl, h₁, h₂⟩ := exec_bind_iff.mp hexec
  exact (hf tr₁ x (h.of_exec h₁)).of_exec h₂

theorem forM {P : Trace O R → Prop} {xs : List γ} {f : γ → Program O R PUnit} (hnil : P [])
    (happend : ∀ {tr tr'}, P tr → P tr' → P (tr ++ tr')) (hf : ∀ x ∈ xs, Ensures (fun tr _ => P tr) (f x)) :
    Ensures (fun tr _ => P tr) (xs.forM f) := by
  induction xs with
  | nil => exact ret hnil
  | cons x xs ih =>
    change Ensures _ (f x >>= fun _ => xs.forM f)
    apply (hf x List.mem_cons_self).seq
    intro tr _ htr
    apply (ih fun y hy => hf y (List.mem_cons_of_mem x hy)).mono
    intro tr' _ htr'
    exact happend htr htr'

theorem mapM {P : Trace O R → Prop} {xs : List γ} {f : γ → Program O R α} (hnil : P [])
    (happend : ∀ {tr tr'}, P tr → P tr' → P (tr ++ tr')) (hf : ∀ x ∈ xs, Ensures (fun tr _ => P tr) (f x)) :
    Ensures (fun tr _ => P tr) (xs.mapM f) := by
  induction xs with
  | nil => exact ret hnil
  | cons x xs ih =>
    rw [List.mapM_cons]
    apply (hf x List.mem_cons_self).seq
    intro tr _ htr
    apply (ih fun y hy => hf y (List.mem_cons_of_mem x hy)).seq
    intro tr' _ htr'
    apply ret
    rw [List.append_nil]
    exact happend htr htr'

end Ensures

/-- All that a program may perform, whatever the replies, is as `N` asks. -/
inductive Only (N : O → Prop) : Program O R α → Prop
  | ret (x : α) : Only N (.ret x)
  | act {o : O} {k : R o → Program O R α} (h : N o) (hk : ∀ r, Only N (k r)) : Only N (.act o k)

namespace Only
variable {N : O → Prop}

theorem bind {p : Program O R α} {f : α → Program O R β} (h : Only N p) (hf : ∀ x, Only N (f x)) : Only N (p >>= f) := by
  induction h with
  | ret x => exact hf x
  | act h _ ih => exact .act h ih

theorem of_act {o : O} {k : R o → Program O R α} (h : Only N (.act o k)) : N o ∧ ∀ r, Only N (k r) := by
  cases h with
  | act ho hk => exact ⟨ho, hk⟩

theorem mono {N' : O → Prop} {p : Program O R α} (h : Only N p) (himp : ∀ o, N o → N' o) : Only N' p := by
  induction h with
  | ret x => exact .ret x
  | act ho _ ih => exact .act (himp _ ho) ih

theorem forM {xs : List γ} {f : γ → Program O R PUnit} (hf : ∀ x ∈ xs, Only N (f x)) : Only N (xs.forM f) := by
  induction xs with
  | nil => exact .ret _
  | cons x xs ih =>
    change Only N (f x >>= fun _ => xs.forM f)
    exact (hf x List.mem_cons_self).bind fun _ => ih fun y hy => hf y (List.mem_cons_of_mem x hy)

theorem mapM {xs : List γ} {f : γ → Program O R α} (hf : ∀ x ∈ xs, Only N (f x)) : Only N (xs.mapM f) := by
  induction xs with
  | nil => exact .ret _
  | cons x xs ih =>
    rw [List.mapM_cons]
    refine (hf x List.mem_cons_self).bind fun _ => ?_
    exact (ih fun y hy => hf y (List.mem_cons_of_mem x hy)).bind fun _ => .ret _

theorem ensures {p : Program O R α} (h : Only N p) : Ensures (fun tr _ => ∀ e ∈ tr, N e.1) p := by
  induction h with
  | ret x => exact .ret (List.forall_mem_nil _)
  | act h _ ih => exact .act fun r => (ih r).mono fun tr _ htr => List.forall_mem_cons.mpr ⟨h, htr⟩

end Only

/-- Whatever the replies, an action as `hit` asks comes, after none but such as `pass` asks. -/
inductive Soon (pass hit : O → Prop) : Program O R α → Prop
  | now {o : O} {k : R o → Program O R α} (h : hit o) : Soon pass hit (.act o k)
  | later {o : O} {k : R o → Program O R α} (h : pass o) (hk : ∀ r, Soon pass hit (k r)) : Soon pass hit (.act o k)

namespace Soon
variable {pass hit : O → Prop}

theorem ne_ret {p : Program O R α} (h : Soon pass hit p) (x : α) : p ≠ .ret x := by
  rintro rfl
  cases h

theorem bind {p : Program O R α} {f : α → Program O R β} (h : Soon pass hit p) : Soon pass hit (p >>= f) := by
  induction h with
  | now h => exact .now h
  | later h _ ih => exact .later h ih

theorem mapM {xs : List γ} {f : γ → Program O R α}
    (hf : ∀ x ∈ xs, (∃ y, f x = .ret y) ∨ Soon pass hit (f x)) (hsome : ∃ x ∈ xs, ¬ ∃ y, f x = .ret y) :
    Soon pass hit (xs.mapM f) := by
  induction xs with
  | nil =>
    obtain ⟨x, hx, _⟩ := hsome
    cases hx
  | cons x xs ih =>
    rw [List.mapM_cons]
    cases hf x List.mem_cons_self with
    | inr hsoon => exact hsoon.bind
    | inl hret =>
      have hrest : ∃ x ∈ xs, ¬ ∃ y, f x = .ret y := by
        obtain ⟨x', hx', hne⟩ := hsome
        cases List.mem_cons.mp hx' with
        | inl heq =>
          rw [heq] at hne
          exact absurd hret hne
        | inr hmem => exact ⟨x', hmem, hne⟩
      have hsoon := ih (fun y hy => hf y (List.mem_cons_of_mem x hy)) hrest
      obtain ⟨y, hy⟩ := hret
      rw [hy]
      exact hsoon.bind

end Soon

/-- The two programs perform the same actions, whatever the replies; their results may differ. -/
inductive Alike : Program O R α → Program O R β → Prop
  | ret (x : α) (y : β) : Alike (.ret x) (.ret y)
  | act {o : O} {k : R o → Program O R α} {k' : R o → Program O R β} (h : ∀ r, Alike (k r) (k' r)) :
      Alike (.act o k) (.act o k')

namespace Alike

theorem refl (p : Program O R α) : Alike p p := by
  induction p with
  | ret x => exact .ret x x
  | act o k ih => exact .act ih

theorem symm {p : Program O R α} {q : Program O R β} (h : Alike p q) : Alike q p := by
  induction h with
  | ret x y => exact .ret y x
  | act _ ih => exact .act ih

theorem bind {p : Program O R α} {q : Program O R β} {f : α → Program O R γ} {δ : Type} {g : β → Program O R δ}
    (h : Alike p q) (hfg : ∀ x y, Alike (f x) (g y)) : Alike (p >>= f) (q >>= g) := by
  induction h with
  | ret x y => exact hfg x y
  | act _ ih => exact .act ih

theorem mapM_map {δ : Type} {xs : List γ} {image : γ → δ} {f : γ → Program O R α} {g : δ → Program O R β}
    (h : ∀ x, Alike (f x) (g (image x))) : Alike (xs.mapM f) ((xs.map image).mapM g) := by
  induction xs with
  | nil => exact .ret [] []
  | cons x xs ih =>
    rw [List.map_cons, List.mapM_cons, List.mapM_cons]
    exact (h x).bind fun _ _ => ih.bind fun _ _ => .ret _ _

theorem exec {p : Program O R α} {q : Program O R β} (h : Alike p q) {tr : Trace O R} {x : α} (hexec : Exec p tr x) :
    ∃ y, Exec q tr y := by
  induction h generalizing tr with
  | ret x' y =>
    obtain ⟨rfl, -⟩ := exec_ret_iff.mp hexec
    exact ⟨y, .ret y⟩
  | act _ ih =>
    obtain ⟨r, tail, rfl, htail⟩ := exec_act_iff.mp hexec
    obtain ⟨y, hy⟩ := ih r htail
    exact ⟨y, .act _ r hy⟩

end Alike

section
variable {O' : Type} {R' : O' → Type}

def Program.into (name : O → O') (reply : ∀ o, R' (name o) → R o) : Program O R α → Program O' R' α
  | .ret x => .ret x
  | .act o k => .act (name o) fun r => (k (reply o r)).into name reply

end

section
variable {σ : Type}

/-- A program run alone on a state: its trace, the state it leaves and its result. -/
def Program.runOn (step : σ → (o : O) → Option (σ × R o)) : Program O R α → σ → Option (Trace O R × σ × α)
  | .ret x, s => some ([], s, x)
  | .act o k, s =>
    match step s o with
    | none => none
    | some (s', r) =>
      match (k r).runOn step s' with
      | none => none
      | some (tr, last, x) => some (⟨o, r⟩ :: tr, last, x)

variable {step : σ → (o : O) → Option (σ × R o)}

theorem runOn_bind {p : Program O R α} {f : α → Program O R β} {tr tr' : Trace O R} {s s' s'' : σ} {x : α} {y : β}
    (hp : p.runOn step s = some (tr, s', x)) (hf : (f x).runOn step s' = some (tr', s'', y)) :
    (p >>= f).runOn step s = some (tr ++ tr', s'', y) := by
  induction p generalizing s tr with
  | ret x' =>
    cases hp
    exact hf
  | act o k ih =>
    simp only [Program.act_bind, Program.runOn] at hp ⊢
    cases hstep : step s o with
    | none =>
      rw [hstep] at hp
      cases hp
    | some performed =>
      obtain ⟨next, r⟩ := performed
      rw [hstep] at hp
      dsimp only at hp ⊢
      cases hrest : (k r).runOn step next with
      | none =>
        rw [hrest] at hp
        cases hp
      | some last =>
        obtain ⟨rest, s₁, x₁⟩ := last
        rw [hrest] at hp
        cases hp
        rw [ih r hrest]
        rfl

/-- Two programs that begin in the same way end alike for an observer of the state who sees the trace
    entry by entry, if what follows does. -/
theorem runOn_bind_congr {ω : Type} {p : Program O R α} {f g : α → Program O R β} {observe : Trace O R × σ × β → ω}
    (hcons : ∀ e tr tr' s s' y y', observe (tr, s, y) = observe (tr', s', y') →
      observe (e :: tr, s, y) = observe (e :: tr', s', y'))
    (h : ∀ x s, ((f x).runOn step s).map observe = ((g x).runOn step s).map observe) (s : σ) :
    ((p >>= f).runOn step s).map observe = ((p >>= g).runOn step s).map observe := by
  induction p generalizing s with
  | ret x => exact h x s
  | act o k ih =>
    simp only [Program.act_bind, Program.runOn]
    cases step s o with
    | none => rfl
    | some sent =>
      obtain ⟨s', r⟩ := sent
      have hrest := ih r s'
      cases hf : (k r >>= f).runOn step s' with
      | none =>
        cases hg : (k r >>= g).runOn step s' with
        | none => simp [hf, hg]
        | some last' => simp [hf, hg] at hrest
      | some last =>
        cases hg : (k r >>= g).runOn step s' with
        | none => simp [hf, hg] at hrest
        | some last' =>
          simp only [hf, hg, Option.map_some, Option.some.injEq] at hrest ⊢
          exact hcons _ _ _ _ _ _ _ hrest

theorem Alike.runOn {p : Program O R α} {q : Program O R β} (h : Alike p q) (s : σ) :
    (p.runOn step s).map (fun last => (last.1, last.2.1)) = (q.runOn step s).map fun last => (last.1, last.2.1) := by
  induction h generalizing s with
  | ret x y => rfl
  | @act o k k' _ ih =>
    simp only [Program.runOn]
    cases step s o with
    | none => rfl
    | some sent =>
      obtain ⟨s', r⟩ := sent
      have hrest := ih r s'
      cases hk : (k r).runOn step s' with
      | none =>
        cases hk' : (k' r).runOn step s' with
        | none => simp [hk, hk']
        | some last' => simp [hk, hk'] at hrest
      | some last =>
        cases hk' : (k' r).runOn step s' with
        | none => simp [hk, hk'] at hrest
        | some last' =>
          simp only [hk, hk', Option.map_some, Option.some.injEq, Prod.mk.injEq] at hrest ⊢
          exact ⟨congrArg _ hrest.1, hrest.2⟩

/-- Run alone from `s`, the program ends in `s'` with this result. -/
def Leads (step : σ → (o : O) → Option (σ × R o)) (p : Program O R α) (s s' : σ) (x : α) : Prop :=
  ∃ tr, p.runOn step s = some (tr, s', x)

namespace Leads
variable {s s₁ s' : σ}

theorem ret (x : α) (s : σ) : Leads step (.ret x) s s x := ⟨[], rfl⟩

theorem act {o : O} {k : R o → Program O R α} {r : R o} {x : α} (h : step s o = some (s₁, r))
    (hk : Leads step (k r) s₁ s' x) : Leads step (.act o k) s s' x := by
  obtain ⟨tr, htr⟩ := hk
  refine ⟨⟨o, r⟩ :: tr, ?_⟩
  simp only [Program.runOn, h, htr]

theorem bind {p : Program O R α} {f : α → Program O R β} {x : α} {y : β} (h : Leads step p s s₁ x)
    (hf : Leads step (f x) s₁ s' y) : Leads step (p >>= f) s s' y := by
  obtain ⟨tr, htr⟩ := h
  obtain ⟨tr', htr'⟩ := hf
  exact ⟨tr ++ tr', runOn_bind htr htr'⟩

theorem unique {p : Program O R α} {s₂ : σ} {x y : α} (h : Leads step p s s₁ x) (h' : Leads step p s s₂ y) :
    s₁ = s₂ ∧ x = y := by
  obtain ⟨tr, htr⟩ := h
  obtain ⟨tr', htr'⟩ := h'
  cases htr.symm.trans htr'
  exact ⟨rfl, rfl⟩

theorem forM {xs : List γ} {f : γ → Program O R PUnit} {next : σ → γ → σ}
    (h : ∀ x ∈ xs, ∀ s, Leads step (f x) s (next s x) ⟨⟩) (s : σ) : Leads step (xs.forM f) s (xs.foldl next s) ⟨⟩ := by
  induction xs generalizing s with
  | nil => exact ret _ s
  | cons x xs ih =>
    change Leads step (f x >>= fun _ => xs.forM f) s _ _
    apply (h x List.mem_cons_self s).bind
    exact ih (fun y hy => h y (List.mem_cons_of_mem x hy)) (next s x)

theorem mapM {xs : List γ} {f : γ → Program O R α} {next : σ → γ → σ} {out : γ → α}
    (h : ∀ x ∈ xs, ∀ s, Leads step (f x) s (next s x) (out x)) (s : σ) :
    Leads step (xs.mapM f) s (xs.foldl next s) (xs.map out) := by
  induction xs generalizing s with
  | nil => exact ret _ s
  | cons x xs ih =>
    rw [List.mapM_cons]
    apply (h x List.mem_cons_self s).bind
    apply (ih (fun y hy => h y (List.mem_cons_of_mem x hy)) (next s x)).bind
    exact ret _ _

end Leads

end

/-- The turns of a loop, each going on where the last one ended. -/
inductive Turns (body : α → Program O R α) : α → Trace O R → α → Prop
  | done (c : α) : Turns body c [] c
  | turn {c c' c'' : α} {tr tr' : Trace O R} (first : Exec (body c) tr c') (rest : Turns body c' tr' c'') :
      Turns body c (tr ++ tr') c''

/-- The turns of a loop one by one, each with where it began. -/
inductive History (body : α → Program O R α) : α → List (α × Trace O R) → α → Prop
  | done (c : α) : History body c [] c
  | turn {c c' c'' : α} {tr : Trace O R} {h : List (α × Trace O R)} (first : Exec (body c) tr c')
      (rest : History body c' h c'') : History body c ((c, tr) :: h) c''

theorem turns_iff_history {body : α → Program O R α} {c c' : α} {tr : Trace O R} :
    Turns body c tr c' ↔ ∃ h, History body c h c' ∧ tr = h.flatMap Prod.snd := by
  constructor
  · intro hturns
    induction hturns with
    | done c => exact ⟨[], .done c, rfl⟩
    | turn first rest ih =>
      obtain ⟨h, hhistory, rfl⟩ := ih
      exact ⟨_, .turn first hhistory, rfl⟩
  · rintro ⟨h, hhistory, rfl⟩
    induction hhistory with
    | done c => exact .done c
    | turn first rest ih => exact .turn first ih

/-- A number of turns with the replies that `reply` has, one by one. -/
def followHistory (body : α → Program O R α) (reply : ∀ o, R o) : ℕ → α → List (α × Trace O R) × α
  | 0, c => ([], c)
  | n + 1, c =>
    ((c, ((body c).follow reply).1) :: (followHistory body reply n ((body c).follow reply).2).1,
      (followHistory body reply n ((body c).follow reply).2).2)

theorem history_follow (body : α → Program O R α) (reply : ∀ o, R o) (n : ℕ) (c : α) :
    History body c (followHistory body reply n c).1 (followHistory body reply n c).2 := by
  induction n generalizing c with
  | zero => exact .done c
  | succ n ih => exact .turn (exec_follow reply (body c)) (ih _)

/-- An observer of the actions with a state of its own. -/
structure Monitor (O : Type) (R : O → Type) (G : Type) where
  allows : G → O → Prop
  next : G → (o : O) → R o → G

variable {G : Type}

/-- The actions as `N` asks, and no state. -/
def Monitor.only (N : O → Prop) : Monitor O R Unit where
  allows := fun _ o => N o
  next := fun _ _ _ => ()

/-- From the monitor's state on, every action is allowed and the end is as asked. -/
inductive Meets (m : Monitor O R G) (Q : G → α → Prop) : G → Program O R α → Prop
  | ret {g : G} {x : α} (h : Q g x) : Meets m Q g (.ret x)
  | act {g : G} {o : O} {k : R o → Program O R α} (hallows : m.allows g o)
      (h : ∀ r, Meets m Q (m.next g o r) (k r)) : Meets m Q g (.act o k)

namespace Meets
variable {m : Monitor O R G}

theorem of_ret {Q : G → α → Prop} {g : G} {x : α} (h : Meets m Q g (.ret x)) : Q g x := by
  cases h with
  | ret h => exact h

theorem allowed {Q : G → α → Prop} {g : G} {o : O} {k : R o → Program O R α} (h : Meets m Q g (.act o k)) :
    m.allows g o := by
  cases h with
  | act hallows _ => exact hallows

theorem resume {Q : G → α → Prop} {g : G} {o : O} {k : R o → Program O R α} (h : Meets m Q g (.act o k)) (r : R o) :
    Meets m Q (m.next g o r) (k r) := by
  cases h with
  | act _ h => exact h r

theorem mono {Q Q' : G → α → Prop} {g : G} {p : Program O R α} (h : Meets m Q g p)
    (himp : ∀ g x, Q g x → Q' g x) : Meets m Q' g p := by
  induction h with
  | ret h => exact .ret (himp _ _ h)
  | act hallows _ ih => exact .act hallows ih

theorem bind {Q : G → β → Prop} {g : G} {p : Program O R α} {f : α → Program O R β}
    (h : Meets m (fun g x => Meets m Q g (f x)) g p) : Meets m Q g (p >>= f) := by
  induction h with
  | ret h => exact h
  | act hallows _ ih => exact .act hallows ih

/-- The rule of consequence for a sequence: what the first part ends with carries the second. -/
theorem seq {Q : G → α → Prop} {Q' : G → β → Prop} {g : G} {p : Program O R α} {f : α → Program O R β}
    (h : Meets m Q g p) (hf : ∀ g x, Q g x → Meets m Q' g (f x)) : Meets m Q' g (p >>= f) :=
  bind (h.mono hf)

theorem forM {I : G → Prop} {g : G} {xs : List γ} {f : γ → Program O R PUnit} (hg : I g)
    (hf : ∀ x ∈ xs, ∀ g, I g → Meets m (fun g _ => I g) g (f x)) : Meets m (fun g _ => I g) g (xs.forM f) := by
  induction xs generalizing g with
  | nil => exact .ret hg
  | cons x xs ih =>
    change Meets m _ g (f x >>= fun _ => xs.forM f)
    exact seq (hf x List.mem_cons_self g hg) fun g' _ hg' => ih hg' fun y hy => hf y (List.mem_cons_of_mem x hy)

theorem mapM {I : G → Prop} {g : G} {xs : List γ} {f : γ → Program O R α} (hg : I g)
    (hf : ∀ x ∈ xs, ∀ g, I g → Meets m (fun g _ => I g) g (f x)) : Meets m (fun g _ => I g) g (xs.mapM f) := by
  induction xs generalizing g with
  | nil => exact .ret hg
  | cons x xs ih =>
    rw [List.mapM_cons]
    refine seq (hf x List.mem_cons_self g hg) fun g' _ hg' => ?_
    exact seq (ih hg' fun y hy => hf y (List.mem_cons_of_mem x hy)) fun g'' _ hg'' => .ret hg''

theorem any (hallows : ∀ g o, m.allows g o) (g : G) (p : Program O R α) : Meets m (fun _ _ => True) g p := by
  induction p generalizing g with
  | ret x => exact .ret trivial
  | act o k ih => exact .act (hallows g o) fun r => ih r _

theorem of_only {N : O → Prop} {g : G} {p : Program O R α} (h : Only N p) (hallows : ∀ o, N o → m.allows g o)
    (hnext : ∀ o, N o → ∀ r, m.next g o r = g) : Meets m (fun g' _ => g' = g) g p := by
  induction h with
  | ret x => exact .ret rfl
  | act ho _ ih =>
    apply act (hallows _ ho)
    intro r
    rw [hnext _ ho]
    exact ih r

theorem within {N : O → Prop} {I : G → Prop} {Q : G → α → Prop} {g : G} {p : Program O R α} (h : Meets m Q g p) (hg : I g)
    (hallowed : ∀ g o, I g → m.allows g o → N o) (hnext : ∀ g o r, I g → I (m.next g o r)) : Only N p := by
  induction h with
  | ret _ => exact .ret _
  | act ho _ ih => exact .act (hallowed _ _ hg ho) fun r => ih r (hnext _ _ r hg)

theorem only {N : O → Prop} {Q : Unit → α → Prop} {u : Unit} {p : Program O R α} (h : Meets (.only N) Q u p) : Only N p :=
  h.within (I := fun _ => True) trivial (fun _ _ _ ho => ho) fun _ _ _ _ => trivial

theorem into {O' : Type} {R' : O' → Type} {m' : Monitor O' R' G} {N : O → Prop} {Q : G → α → Prop} {g : G}
    {name : O → O'} {reply : ∀ o, R' (name o) → R o} (hallows : ∀ o, N o → m'.allows g (name o))
    (hnext : ∀ o r, m'.next g (name o) r = g) {p : Program O R α} (h : Meets (.only N) (fun _ x => Q g x) () p) :
    Meets m' Q g (p.into name reply) := by
  generalize hunit : () = u at h
  induction h with
  | ret h => exact .ret h
  | @act u o k ho _ ih =>
    apply act (hallows o ho)
    intro r
    rw [hnext]
    exact ih (reply o r) rfl

end Meets

end
end Programs
