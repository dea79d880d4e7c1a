import Mathlib.Data.List.Basic

set_option autoImplicit false

/-! Words of levels and their wildcard patterns. A pattern is a list of levels, each a letter or any letter, and
may be open: then it accepts any further levels too. Over an alphabet in which a fresh letter can always be
found, the words of one pattern are all accepted by some pattern of a list exactly when finitely many expansions
of it are covered, each by one of them. -/
namespace Wildcard

structure Pattern (α : Type) where
  levels : List (Option α)
  isOpen : Bool
  deriving DecidableEq, Repr

section
variable {α : Type} [DecidableEq α]

def levelMatches {β : Type} [DecidableEq β] : Option β → β → Bool
  | none, _ => true
  | some a, b => a == b

def matchLevels {β : Type} [DecidableEq β] (isOpen : Bool) : List (Option β) → List β → Bool
  | [], word => isOpen || word.isEmpty
  | _ :: _, [] => false
  | l :: ls, a :: word => levelMatches l a && matchLevels isOpen ls word

namespace Pattern

def accepts (p : Pattern α) (word : List α) : Bool := matchLevels p.isOpen p.levels word

def closed (levels : List (Option α)) : Pattern α := { levels, isOpen := false }

/-- The pattern accepts the levels, any letter there standing for one new letter. -/
def covers (p : Pattern α) (levels : List (Option α)) : Bool :=
  matchLevels p.isOpen (p.levels.map (Option.map some)) levels

def expand (p : Pattern α) (more : ℕ) : List (Option α) := p.levels ++ List.replicate more none

def reaches (p : Pattern α) (more : ℕ) : Prop := p.isOpen = true ∨ more = 0

instance (p : Pattern α) (more : ℕ) : Decidable (p.reaches more) := inferInstanceAs (Decidable (_ ∨ _))

end Pattern

theorem matchLevels_length {β : Type} [DecidableEq β] (ls : List (Option β)) : ∀ word : List β,
    matchLevels false ls word = true → word.length = ls.length := by
  induction ls with
  | nil => intro word h; simpa [matchLevels] using h
  | cons l ls ih =>
    intro word h
    cases word with
    | nil => simp [matchLevels] at h
    | cons a word =>
      simp only [matchLevels, Bool.and_eq_true] at h
      simp only [List.length_cons, ih word h.2]

theorem matchLevels_append {β : Type} [DecidableEq β] (ls : List (Option β)) : ∀ word more : List β,
    matchLevels true ls word = true → matchLevels true ls (word ++ more) = true := by
  induction ls with
  | nil => intro word more _; simp [matchLevels]
  | cons l ls ih =>
    intro word more h
    cases word with
    | nil => simp [matchLevels] at h
    | cons a word =>
      simp only [matchLevels, Bool.and_eq_true] at h
      simp only [List.cons_append, matchLevels, h.1, ih word more h.2, Bool.and_self]

theorem covers_sound {p : Pattern α} {ls : List (Option α)} {word : List α} (hcov : p.covers ls = true)
    (hword : (Pattern.closed ls).accepts word = true) : p.accepts word = true := by
  obtain ⟨ps, isOpen⟩ := p
  simp only [Pattern.covers, Pattern.accepts, Pattern.closed] at hcov hword ⊢
  induction ps generalizing ls word with
  | nil =>
    have hlen := matchLevels_length ls word hword
    cases isOpen with
    | true => rfl
    | false =>
      simp only [List.map_nil, matchLevels, Bool.false_or, List.isEmpty_iff] at hcov ⊢
      exact List.length_eq_zero_iff.mp (by simpa [hcov] using hlen)
  | cons p ps ih =>
    cases ls with
    | nil => simp [matchLevels] at hcov
    | cons l ls =>
      cases word with
      | nil => simp [matchLevels] at hword
      | cons a word =>
        simp only [List.map_cons, matchLevels, Bool.and_eq_true] at hcov hword ⊢
        refine ⟨?_, ih hword.2 hcov.2⟩
        cases p with
        | none => rfl
        | some b =>
          have hl : some b = l := by simpa [levelMatches] using hcov.1
          rw [hl]
          exact hword.1

theorem matchLevels_iff {β : Type} [DecidableEq β] {isOpen : Bool} (ls : List (Option β)) : ∀ word : List β,
    matchLevels isOpen ls word = true ↔ ∃ first rest, word = first ++ rest ∧
      List.Forall₂ (fun l a => levelMatches l a = true) ls first ∧ (isOpen = true ∨ rest = []) := by
  induction ls with
  | nil =>
    intro word
    rw [matchLevels, Bool.or_eq_true, List.isEmpty_iff]
    constructor
    · exact fun h => ⟨[], word, rfl, .nil, h⟩
    · rintro ⟨first, rest, rfl, hfirst, hrest⟩
      cases hfirst
      exact hrest
  | cons l ls ih =>
    intro word
    cases word with
    | nil =>
      rw [matchLevels]
      constructor
      · exact fun h => absurd h Bool.false_ne_true
      · rintro ⟨first, rest, heq, hfirst, -⟩
        cases hfirst
        cases heq
    | cons a word =>
      rw [matchLevels, Bool.and_eq_true, ih word]
      constructor
      · rintro ⟨ha, first, rest, rfl, hfirst, hrest⟩
        exact ⟨a :: first, rest, rfl, .cons ha hfirst, hrest⟩
      · rintro ⟨first, rest, heq, hfirst, hrest⟩
        cases hfirst with
        | cons ha hfirst =>
          obtain ⟨rfl, rfl⟩ := List.cons.inj heq
          exact ⟨ha, _, rest, rfl, hfirst, hrest⟩

/-- The word with one letter at every level that takes any letter. -/
def generic (z : α) (ls : List (Option α)) : List α := ls.map (·.getD z)

theorem closed_accepts_generic (z : α) (ls : List (Option α)) :
    (Pattern.closed ls).accepts (generic z ls) = true := by
  induction ls with
  | nil => rfl
  | cons l ls ih =>
    have head : levelMatches l (l.getD z) = true := by cases l <;> simp [levelMatches]
    simp only [Pattern.accepts, Pattern.closed, generic, List.map_cons, matchLevels, Bool.and_eq_true] at ih ⊢
    exact ⟨head, ih⟩

theorem accepts_generic {p : Pattern α} {z : α} (hz : some z ∉ p.levels) (ls : List (Option α)) :
    p.accepts (generic z ls) = p.covers ls := by
  obtain ⟨ps, isOpen⟩ := p
  simp only [Pattern.covers, Pattern.accepts, generic] at hz ⊢
  induction ps generalizing ls with
  | nil => simp [matchLevels]
  | cons p ps ih =>
    simp only [List.mem_cons, not_or] at hz
    cases ls with
    | nil => rfl
    | cons l ls =>
      have head : levelMatches p (l.getD z) = levelMatches (p.map some) l := by
        cases p with
        | none => rfl
        | some b =>
          have hb : b ≠ z := fun h => hz.1 (h ▸ rfl)
          cases l with
          | none => simp [levelMatches, hb]
          | some a => simp [levelMatches]
      simp only [List.map_cons, matchLevels, head, ih ls hz.2]

theorem accepts_iff_expand (p : Pattern α) (word : List α) :
    p.accepts word = true ↔ ∃ n, p.reaches n ∧ (Pattern.closed (p.expand n)).accepts word = true := by
  obtain ⟨ls, isOpen⟩ := p
  simp only [Pattern.accepts, Pattern.closed, Pattern.expand, Pattern.reaches]
  induction ls generalizing word with
  | nil =>
    have any : ∀ w : List α, matchLevels false (List.replicate w.length none) w = true := by
      intro w
      induction w with
      | nil => rfl
      | cons a w ih => simpa [List.replicate_succ, matchLevels, levelMatches] using ih
    constructor
    · intro h
      rcases isOpen with _ | _
      · exact ⟨0, Or.inr rfl, by simpa [matchLevels] using h⟩
      · exact ⟨word.length, Or.inl rfl, any word⟩
    · rintro ⟨n, hn | hn, h⟩
      · simp [matchLevels, hn]
      · subst hn
        have hword : word = [] := by simpa [matchLevels] using h
        simp [matchLevels, hword]
  | cons l ls ih =>
    cases word with
    | nil => simp [matchLevels]
    | cons a word =>
      simp only [List.cons_append, matchLevels, Bool.and_eq_true, ih word]
      constructor
      · rintro ⟨ha, n, hn, h⟩
        exact ⟨n, hn, ha, h⟩
      · rintro ⟨n, hn, ha, h⟩
        exact ⟨ha, n, hn, h⟩

/-- Beyond the last level of every pattern, an expansion that is covered is covered by an open one. -/
def bound (ps : List (Pattern α)) : ℕ := (ps.map fun p => p.levels.length).foldr max 0 + 1

omit [DecidableEq α] in
theorem length_lt_bound {ps : List (Pattern α)} {p : Pattern α} (hp : p ∈ ps) : p.levels.length < bound ps := by
  induction ps with
  | nil => simp at hp
  | cons q ps ih =>
    simp only [bound, List.map_cons, List.foldr_cons] at ih ⊢
    rcases List.mem_cons.mp hp with rfl | h
    · omega
    · have later := ih h
      omega

theorem covers_expand_of_bound {ps : List (Pattern α)} {p q : Pattern α} (hp : p ∈ ps)
    (hcov : p.covers (q.expand (bound ps)) = true) (n : ℕ) (hn : bound ps ≤ n) :
    p.covers (q.expand n) = true := by
  have hlen := length_lt_bound hp
  obtain ⟨more, rfl⟩ : ∃ more, n = bound ps + more := ⟨n - bound ps, by omega⟩
  have hopen : p.isOpen = true := by
    by_contra hclosed
    simp only [Bool.not_eq_true] at hclosed
    rw [Pattern.covers, hclosed] at hcov
    have h := matchLevels_length _ _ hcov
    simp only [Pattern.expand, List.length_append, List.length_replicate, List.length_map] at h
    omega
  simp only [Pattern.covers, hopen, Pattern.expand, List.replicate_add] at hcov ⊢
  rw [← List.append_assoc]
  exact matchLevels_append _ _ _ hcov

/-- Where every word of `q` is accepted by some pattern of the list, each expansion is covered by a single one: a
    letter that none of them has stands for any letter. -/
theorem exists_covers {ok : α → Prop} (fresh : ∀ l : List α, ∃ z, ok z ∧ z ∉ l) {q : Pattern α}
    (hq : ∀ a, some a ∈ q.levels → ok a) {ps : List (Pattern α)}
    (hall : ∀ word, word ≠ [] → (∀ a ∈ word, ok a) → q.accepts word = true → ∃ p ∈ ps, p.accepts word = true)
    {n : ℕ} (hreach : q.reaches n) (hne : q.expand n ≠ []) : ∃ p ∈ ps, p.covers (q.expand n) = true := by
  obtain ⟨z, hok, hz⟩ := fresh ((ps.flatMap fun p => p.levels).filterMap id)
  have hword : q.accepts (generic z (q.expand n)) = true :=
    (accepts_iff_expand q _).mpr ⟨n, hreach, closed_accepts_generic z _⟩
  have hletters : ∀ a ∈ generic z (q.expand n), ok a := by
    intro a ha
    obtain ⟨l, hl, rfl⟩ := List.mem_map.mp ha
    cases l with
    | none => exact hok
    | some b =>
      refine hq b ?_
      simpa [Pattern.expand, List.mem_replicate] using hl
  obtain ⟨p, hp, hacc⟩ := hall _ (by simpa [generic] using hne) hletters hword
  have hzp : some z ∉ p.levels := by
    intro h
    exact hz (List.mem_filterMap.mpr ⟨some z, List.mem_flatMap.mpr ⟨p, hp, h⟩, rfl⟩)
  exact ⟨p, hp, (accepts_generic hzp _).symm.trans hacc⟩

theorem expand_ne_nil {q : Pattern α} {n : ℕ} {word : List α} (hne : word ≠ [])
    (h : (Pattern.closed (q.expand n)).accepts word = true) : q.expand n ≠ [] := by
  intro hnil
  have hlen := matchLevels_length _ _ h
  simp only [Pattern.closed, hnil, List.length_nil, List.length_eq_zero_iff] at hlen
  exact hne hlen

theorem accepts_of_included {ok : α → Prop} (fresh : ∀ l : List α, ∃ z, ok z ∧ z ∉ l) {p q : Pattern α}
    (hq : ∀ a, some a ∈ q.levels → ok a)
    (hall : ∀ word, word ≠ [] → (∀ a ∈ word, ok a) → q.accepts word = true → p.accepts word = true)
    {word : List α} (hne : word ≠ []) (h : q.accepts word = true) : p.accepts word = true := by
  obtain ⟨n, hreach, hinst⟩ := (accepts_iff_expand q word).mp h
  have hsome : ∀ word, word ≠ [] → (∀ a ∈ word, ok a) → q.accepts word = true → ∃ p' ∈ [p], p'.accepts word = true :=
    fun word hne hok hword => ⟨p, List.mem_cons_self, hall word hne hok hword⟩
  obtain ⟨p', hp', hcov⟩ := exists_covers fresh hq hsome hreach (expand_ne_nil hne hinst)
  obtain rfl := List.mem_singleton.mp hp'
  exact covers_sound hcov hinst

/-- Every word of `q` is accepted by some pattern of the list if and only if each expansion of `q`
    up to the bound is covered by a single one. The words are those of the letters `ok`, of which
    there is always one that a given list does not have. -/
theorem included_iff {ok : α → Prop} (fresh : ∀ l : List α, ∃ z, ok z ∧ z ∉ l) {q : Pattern α}
    (hq : ∀ a, some a ∈ q.levels → ok a) (ps : List (Pattern α)) :
    (∀ word, word ≠ [] → (∀ a ∈ word, ok a) → q.accepts word = true → ∃ p ∈ ps, p.accepts word = true) ↔
      ∀ n ≤ bound ps, q.reaches n → q.expand n ≠ [] → ∃ p ∈ ps, p.covers (q.expand n) = true := by
  constructor
  · intro hall n _ hreach hne
    exact exists_covers fresh hq hall hreach hne
  · intro hcond word hne _ hword
    obtain ⟨n, hreach, hinst⟩ := (accepts_iff_expand q word).mp hword
    have hexp := expand_ne_nil hne hinst
    rcases Nat.le_total n (bound ps) with h | h
    · obtain ⟨p, hp, hcov⟩ := hcond n h hreach hexp
      exact ⟨p, hp, covers_sound hcov hinst⟩
    · have hopen : q.reaches (bound ps) := by
        rcases hreach with ho | hz
        · exact Or.inl ho
        · simp only [bound] at h
          omega
      obtain ⟨p, hp, hcov⟩ := hcond (bound ps) (Nat.le_refl _) hopen (by simp [Pattern.expand, bound])
      exact ⟨p, hp, covers_sound (covers_expand_of_bound hp hcov n h) hinst⟩

end
end Wildcard
