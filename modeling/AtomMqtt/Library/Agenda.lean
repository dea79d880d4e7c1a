import AtomMqtt.Library.Threads

set_option autoImplicit false

/-! Agendas. An agenda says what a thread has to do after an action, in order, and what it may begin when
nothing is left to do. Actions outside it are free. A body that meets the monitor of its agenda is followed step
by step: each of its actions is free, the next one owed, or a beginning. -/
namespace Programs

/-- What a thread has noted, and what it still owes. -/
structure Duty (N O : Type) where
  note : N
  owes : List O

structure Agenda (O : Type) (R : O → Type) (N : Type) where
  listed : O → Bool
  note : N → (o : O) → R o → N
  follows : N → (o : O) → R o → List O
  begins : N → O → Prop

section
variable {O : Type} {R : O → Type} {N α β γ : Type} [DecidableEq O]

namespace Agenda

/-- What is owed after an action: what follows it, and what was owed besides it. -/
def next (agenda : Agenda O R N) (d : Duty N O) (o : O) (r : R o) : Duty N O where
  note := agenda.note d.note o r
  owes := agenda.follows (agenda.note d.note o r) o r ++
    if agenda.listed o = true ∧ d.owes.head? = some o then d.owes.tail else d.owes

/-- A listed action is the next one owed, or begins when nothing is. -/
inductive Due (agenda : Agenda O R N) (d : Duty N O) (o : O) : Prop
  | owed {rest : List O} (h : d.owes = o :: rest)
  | begun (h : d.owes = []) (hbegins : agenda.begins d.note o)

def monitor (agenda : Agenda O R N) : Monitor O R (Duty N O) where
  allows := fun d o => agenda.listed o = true → agenda.Due d o
  next := agenda.next

/-- An action that changes nothing of the agenda. -/
structure Free (agenda : Agenda O R N) (o : O) : Prop where
  unlisted : agenda.listed o = false
  note : ∀ n r, agenda.note n o r = n
  follows : ∀ n r, agenda.follows n o r = []

variable {agenda : Agenda O R N} {d : Duty N O} {o : O}

theorem next_free (h : agenda.Free o) (r : R o) : agenda.next d o r = d := by
  simp [next, h.unlisted, h.note, h.follows]

theorem next_owed {rest : List O} (hlisted : agenda.listed o = true) (howes : d.owes = o :: rest) (r : R o) :
    agenda.next d o r =
      ⟨agenda.note d.note o r, agenda.follows (agenda.note d.note o r) o r ++ rest⟩ := by
  simp [next, hlisted, howes]

theorem next_begun (howes : d.owes = []) (r : R o) : agenda.next d o r =
    ⟨agenda.note d.note o r, agenda.follows (agenda.note d.note o r) o r⟩ := by
  simp [next, howes]

theorem mem_next {o' : O} {r : R o} (h : o' ∈ (agenda.next d o r).owes) :
    o' ∈ agenda.follows (agenda.note d.note o r) o r ∨ o' ∈ d.owes := by
  rw [next, List.mem_append] at h
  cases h with
  | inl hfollows => exact .inl hfollows
  | inr hrest =>
    split_ifs at hrest
    · exact .inr (List.mem_of_mem_tail hrest)
    · exact .inr hrest

end Agenda

section
variable {agenda : Agenda O R N} {Q : Duty N O → β → Prop} {d : Duty N O}

theorem meets_free {o : O} {k : R o → Program O R β} (hfree : agenda.Free o)
    (h : ∀ r, Meets agenda.monitor Q d (k r)) : Meets agenda.monitor Q d (.act o k) := by
  apply Meets.act
  · intro hlisted
    rw [hfree.unlisted] at hlisted
    cases hlisted
  · intro r
    change Meets agenda.monitor Q (agenda.next d o r) (k r)
    rw [Agenda.next_free hfree]
    exact h r

theorem meets_only {p : Program O R α} {f : α → Program O R β} (hp : Only agenda.Free p)
    (h : ∀ x, Meets agenda.monitor Q d (f x)) : Meets agenda.monitor Q d (p >>= f) := by
  induction hp with
  | ret x => exact h x
  | act hfree _ ih => exact meets_free hfree ih

theorem meets_only_last {p : Program O R β} (hp : Only agenda.Free p) (h : ∀ x, Q d x) :
    Meets agenda.monitor Q d p := by
  induction hp with
  | ret x => exact .ret (h x)
  | act hfree _ ih => exact meets_free hfree ih

theorem meets_owed {n : N} {rest : List O} {o : O} {k : R o → Program O R β} (hlisted : agenda.listed o = true)
    (h : ∀ r, Meets agenda.monitor Q ⟨agenda.note n o r, agenda.follows (agenda.note n o r) o r ++ rest⟩ (k r)) :
    Meets agenda.monitor Q ⟨n, o :: rest⟩ (.act o k) := by
  apply Meets.act
  · intro _
    exact .owed rfl
  · intro r
    change Meets agenda.monitor Q (agenda.next ⟨n, o :: rest⟩ o r) (k r)
    rw [Agenda.next_owed hlisted rfl]
    exact h r

theorem meets_begun {n : N} {o : O} {k : R o → Program O R β} (hbegins : agenda.begins n o)
    (h : ∀ r, Meets agenda.monitor Q ⟨agenda.note n o r, agenda.follows (agenda.note n o r) o r⟩ (k r)) :
    Meets agenda.monitor Q ⟨n, []⟩ (.act o k) := by
  apply Meets.act
  · intro _
    exact .begun rfl hbegins
  · intro r
    change Meets agenda.monitor Q (agenda.next ⟨n, []⟩ o r) (k r)
    rw [Agenda.next_begun rfl]
    exact h r

theorem meets_forM_owed {n : N} {rest : List O} {xs : List γ} {o : γ → O} {body : γ → Program O R PUnit}
    {f : PUnit → Program O R β} (hbody : ∀ x, body x = .act (o x) fun _ => .ret ⟨⟩)
    (hlisted : ∀ x, agenda.listed (o x) = true) (hnote : ∀ x r, agenda.note n (o x) r = n)
    (hfollows : ∀ x r, agenda.follows n (o x) r = []) (h : Meets agenda.monitor Q ⟨n, rest⟩ (f ⟨⟩)) :
    Meets agenda.monitor Q ⟨n, xs.map o ++ rest⟩ (xs.forM body >>= f) := by
  induction xs with
  | nil => exact h
  | cons x xs ih =>
    change Meets agenda.monitor Q ⟨n, o x :: (xs.map o ++ rest)⟩ ((body x >>= fun _ => xs.forM body) >>= f)
    rw [hbody, bind_assoc]
    apply meets_owed (hlisted x)
    intro r
    rw [hnote, hfollows, List.nil_append]
    exact ih

end

end
end Programs
