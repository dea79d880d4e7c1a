import Mathlib.Logic.Function.Basic

set_option autoImplicit false

/-! Write-behind. Tasks write a value in memory, and owe the store a note of it. Where each note is passed on
while it is true of the memory, or while another task still owes one, memory and store agree whenever no note is
owed. -/
namespace Programs

section
variable {ι O V : Type}

/-- After every `p` of the list there is a `q`. -/
def FollowedBy (p q : O → Prop) : List O → Prop
  | [] => True
  | o :: rest => (p o → ∃ b ∈ rest, q b) ∧ FollowedBy p q rest

theorem FollowedBy.append {p q : O → Prop} {xs ys : List O} (hxs : FollowedBy p q xs) (hys : FollowedBy p q ys) :
    FollowedBy p q (xs ++ ys) := by
  induction xs with
  | nil => exact hys
  | cons o xs ih =>
    refine ⟨?_, ih hxs.2⟩
    intro ho
    obtain ⟨b, hb, hq⟩ := hxs.1 ho
    exact ⟨b, List.mem_append_left ys hb, hq⟩

theorem FollowedBy.of_none {p q : O → Prop} {xs : List O} (h : ∀ o ∈ xs, ¬ p o) : FollowedBy p q xs := by
  induction xs with
  | nil => trivial
  | cons o xs ih =>
    rw [List.forall_mem_cons] at h
    exact ⟨fun ho => absurd ho h.1, ih h.2⟩

/-- None of these is a note. What a note makes of the stored value is what it tells. -/
def Silent (tells : O → Option (Option V)) (owes : List O) : Prop := ∀ b ∈ owes, tells b = none

/-- A task whose turn comes tells the store what the memory holds, or leaves the store alone and writes
    to the memory only if it owes a note. -/
theorem agree_step [DecidableEq ι] {tells : O → Option (Option V)} {owes : ι → List O} {i : ι} {owes' : List O} {o : O}
    {memory memory' stored stored' : Option V} (h : (∀ j, Silent tells (owes j)) → memory = stored)
    (hkept : ∀ b ∈ owes i, b ≠ o → b ∈ owes')
    (htold : ∀ v, tells o = some v → memory' = memory ∧ stored' = v ∧
      ((∀ j, j ≠ i → Silent tells (owes j)) → memory = v))
    (huntold : tells o = none → stored' = stored ∧
      ((∀ j, j ≠ i → Silent tells (owes j)) → Silent tells owes' → memory' = memory))
    (hsilent : ∀ j, Silent tells (Function.update owes i owes' j)) : memory' = stored' := by
  have hothers : ∀ j, j ≠ i → Silent tells (owes j) := by
    intro j hj
    have hj' := hsilent j
    rwa [Function.update_of_ne hj] at hj'
  have hown : Silent tells owes' := by
    have hi := hsilent i
    rwa [Function.update_self] at hi
  cases htells : tells o with
  | some v =>
    obtain ⟨hmemory, hstored, htrue⟩ := htold v htells
    rw [hmemory, hstored, htrue hothers]
  | none =>
    obtain ⟨hstored, hmemory⟩ := huntold htells
    rw [hstored, hmemory hothers hown]
    apply h
    intro j b hb
    by_cases hj : j = i
    · subst hj
      by_cases hbo : b = o
      · rw [hbo, htells]
      · exact hown b (hkept b hb hbo)
    · exact hothers j hj b hb

end
end Programs
