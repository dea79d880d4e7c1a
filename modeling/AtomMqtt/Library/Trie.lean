import Mathlib.Data.List.Basic
import Mathlib.Data.List.Nodup

set_option autoImplicit false

/-! Tries with named children. A node has a value and a list of named children; a path leads through the first
child of each name. A change of the value at the end of a path, with or without making the nodes that lack, and
a change of all values, act on the paths as they say. When the names below each node are distinct, the entries
in pre-order list every path once with the value it leads to. -/
namespace NamedTrie

def modifyFirst {α γ : Type} [DecidableEq α] (a : α) (f : γ → γ) : List (α × γ) → List (α × γ)
  | [] => []
  | (b, c) :: cs => if b = a then (b, f c) :: cs else (b, c) :: modifyFirst a f cs

inductive Trie (α β : Type) where
  | node (value : β) (children : List (α × Trie α β))

section
variable {α β γ : Type} [DecidableEq α]

theorem lookup_cons_if (a b : α) (c : γ) (cs : List (α × γ)) :
    ((b, c) :: cs).lookup a = if a = b then some c else cs.lookup a := by
  by_cases h : a = b
  · simp [h]
  · simp [List.lookup_cons, beq_false_of_ne h, h]

theorem modifyFirst_map_fst (a : α) (f : γ → γ) (cs : List (α × γ)) :
    (modifyFirst a f cs).map Prod.fst = cs.map Prod.fst := by
  induction cs with
  | nil => rfl
  | cons c cs ih =>
    obtain ⟨b, c⟩ := c
    by_cases h : b = a
    · simp [modifyFirst, h]
    · simp [modifyFirst, h, ih]

theorem mem_modifyFirst {a : α} {f : γ → γ} {cs : List (α × γ)} {c : α × γ} (h : c ∈ modifyFirst a f cs) :
    c ∈ cs ∨ ∃ d ∈ cs, c = (d.1, f d.2) := by
  induction cs with
  | nil => simp [modifyFirst] at h
  | cons e cs ih =>
    obtain ⟨b, e⟩ := e
    simp only [modifyFirst] at h
    split_ifs at h with hb
    · rcases List.mem_cons.mp h with rfl | h
      · exact Or.inr ⟨_, List.mem_cons_self, rfl⟩
      · exact Or.inl (List.mem_cons_of_mem _ h)
    · rcases List.mem_cons.mp h with rfl | h
      · exact Or.inl List.mem_cons_self
      · rcases ih h with h | ⟨d, hd, rfl⟩
        · exact Or.inl (List.mem_cons_of_mem _ h)
        · exact Or.inr ⟨d, List.mem_cons_of_mem _ hd, rfl⟩

theorem lookup_modifyFirst (a b : α) (f : γ → γ) (cs : List (α × γ)) :
    (modifyFirst a f cs).lookup b = if b = a then (cs.lookup b).map f else cs.lookup b := by
  induction cs with
  | nil => simp [modifyFirst]
  | cons c cs ih =>
    obtain ⟨d, c⟩ := c
    by_cases hd : d = a
    · subst hd
      by_cases hb : b = d <;> simp [modifyFirst, lookup_cons_if, hb]
    · by_cases hb : b = d
      · subst hb
        simp [modifyFirst, hd]
      · simp only [modifyFirst, hd, if_false, lookup_cons_if, hb, ih]

theorem mem_of_lookup {a : α} {cs : List (α × γ)} {c : γ} (h : cs.lookup a = some c) : (a, c) ∈ cs := by
  induction cs with
  | nil => simp at h
  | cons d cs ih =>
    obtain ⟨b, d⟩ := d
    rw [lookup_cons_if] at h
    split_ifs at h with hb
    · obtain rfl : d = c := by simpa using h
      exact hb ▸ List.mem_cons_self
    · exact List.mem_cons_of_mem _ (ih h)

theorem lookup_of_mem {a : α} {cs : List (α × γ)} {c : γ} (hnd : (cs.map Prod.fst).Nodup) (h : (a, c) ∈ cs) :
    cs.lookup a = some c := by
  induction cs with
  | nil => simp at h
  | cons d cs ih =>
    obtain ⟨b, d⟩ := d
    simp only [List.map_cons, List.nodup_cons] at hnd
    rw [lookup_cons_if]
    rcases List.mem_cons.mp h with h | h
    · obtain ⟨rfl, rfl⟩ := Prod.mk.inj h
      simp
    · have hne : a ≠ b := fun e => hnd.1 (List.mem_map.mpr ⟨(a, c), h, e⟩)
      rw [if_neg hne, ih hnd.2 h]

theorem lookup_isSome_iff {a : α} {cs : List (α × γ)} : (cs.lookup a).isSome = true ↔ a ∈ cs.map Prod.fst := by
  induction cs with
  | nil => simp
  | cons d cs ih =>
    obtain ⟨b, d⟩ := d
    rw [lookup_cons_if, List.map_cons, List.mem_cons]
    by_cases hb : a = b
    · simp [hb]
    · simpa only [hb, if_false, false_or] using ih

theorem lookup_map (f : γ → γ) (a : α) (cs : List (α × γ)) :
    (cs.map fun c => (c.1, f c.2)).lookup a = (cs.lookup a).map f := by
  induction cs with
  | nil => rfl
  | cons d cs ih =>
    obtain ⟨b, d⟩ := d
    by_cases hb : a = b
    · simp [hb]
    · simp only [List.map_cons, lookup_cons_if, hb, if_false, ih]

theorem lookup_append_new {a : α} {cs : List (α × γ)} (hnew : cs.lookup a = none) (b : α) (c : γ) :
    (cs ++ [(a, c)]).lookup b = if b = a then some c else cs.lookup b := by
  induction cs with
  | nil => simp [lookup_cons_if]
  | cons d cs ih =>
    obtain ⟨e, d⟩ := d
    rw [lookup_cons_if] at hnew
    split_ifs at hnew with he
    rw [List.cons_append, lookup_cons_if, ih hnew, lookup_cons_if]
    by_cases hb : b = e
    · subst hb
      simp [Ne.symm he]
    · simp only [hb, if_false]

namespace Trie

def get? : List α → Trie α β → Option β
  | [], .node v _ => some v
  | a :: path, .node _ cs => (cs.lookup a).bind (get? path)

/-- `f` on the value at the end of a path, the nodes that lack made with the value `d`. -/
def alter (d : β) (f : β → β) : List α → Trie α β → Trie α β
  | [], .node v cs => .node (f v) cs
  | a :: path, .node v cs =>
    if (cs.lookup a).isSome then .node v (modifyFirst a (alter d f path) cs)
    else .node v (cs ++ [(a, alter d f path (.node d []))])

/-- `f` on the value at the end of a path, if there is one. -/
def adjust (f : β → β) : List α → Trie α β → Trie α β
  | [], .node v cs => .node (f v) cs
  | a :: path, .node v cs => .node v (modifyFirst a (adjust f path) cs)

mutual

def mapValues (f : β → β) : Trie α β → Trie α β
  | .node v cs => .node (f v) (mapChildren f cs)

def mapChildren (f : β → β) : List (α × Trie α β) → List (α × Trie α β)
  | [] => []
  | (a, t) :: cs => (a, mapValues f t) :: mapChildren f cs

end

mutual

def entries : Trie α β → List (List α × β)
  | .node v cs => ([], v) :: entriesBelow cs

def entriesBelow : List (α × Trie α β) → List (List α × β)
  | [] => []
  | (a, t) :: cs => (entries t).map (fun e => (a :: e.1, e.2)) ++ entriesBelow cs

end

inductive Distinct : Trie α β → Prop
  | node {v : β} {cs : List (α × Trie α β)} (names : (cs.map Prod.fst).Nodup)
      (children : ∀ c ∈ cs, Distinct c.2) : Distinct (.node v cs)

omit [DecidableEq α] in
theorem mapChildren_eq (f : β → β) (cs : List (α × Trie α β)) :
    mapChildren f cs = cs.map fun c => (c.1, mapValues f c.2) := by
  induction cs with
  | nil => rfl
  | cons c cs ih => simp [mapChildren, ih]

omit [DecidableEq α] in
theorem entriesBelow_eq (cs : List (α × Trie α β)) :
    entriesBelow cs = cs.flatMap fun c => (entries c.2).map fun e => (c.1 :: e.1, e.2) := by
  induction cs with
  | nil => rfl
  | cons c cs ih => simp [entriesBelow, ih]

/-- The value at the end of a path, `d` where the path does not lead. -/
def valueAt (d : β) (path : List α) (t : Trie α β) : β := (get? path t).getD d

theorem valueAt_leaf (d : β) (path : List α) : valueAt d path (.node d [] : Trie α β) = d := by
  cases path <;> simp [valueAt, get?]

theorem valueAt_cons (d v : β) (a : α) (path : List α) (cs : List (α × Trie α β)) :
    valueAt d (a :: path) (.node v cs) = ((cs.lookup a).map (valueAt d path)).getD d := by
  cases h : cs.lookup a <;> simp [valueAt, get?, h]

theorem valueAt_alter (d : β) (f : β → β) (path : List α) : ∀ (other : List α) (t : Trie α β),
    valueAt d other (alter d f path t) = if other = path then f (valueAt d path t) else valueAt d other t := by
  induction path with
  | nil =>
    rintro other ⟨v, cs⟩
    cases other <;> simp [alter, valueAt, get?]
  | cons a path ih =>
    rintro other ⟨v, cs⟩
    cases other with
    | nil =>
      simp only [alter]
      split_ifs <;> simp_all [valueAt, get?]
    | cons b other =>
      simp only [alter, List.cons.injEq]
      by_cases hsome : (cs.lookup a).isSome = true
      · obtain ⟨child, hchild⟩ := Option.isSome_iff_exists.mp hsome
        rw [if_pos hsome, valueAt_cons, lookup_modifyFirst, valueAt_cons, valueAt_cons]
        by_cases hb : b = a
        · subst hb
          simp [hchild, ih]
        · simp [hb]
      · have hnone : cs.lookup a = none := Option.not_isSome_iff_eq_none.mp hsome
        rw [if_neg hsome, valueAt_cons, lookup_append_new hnone, valueAt_cons, valueAt_cons]
        by_cases hb : b = a
        · subst hb
          simp [hnone, ih, valueAt_leaf]
        · simp [hb]

theorem valueAt_adjust (d : β) {f : β → β} (hf : f d = d) (path : List α) : ∀ (other : List α) (t : Trie α β),
    valueAt d other (adjust f path t) = if other = path then f (valueAt d path t) else valueAt d other t := by
  induction path with
  | nil =>
    rintro other ⟨v, cs⟩
    cases other <;> simp [adjust, valueAt, get?]
  | cons a path ih =>
    rintro other ⟨v, cs⟩
    cases other with
    | nil => simp [adjust, valueAt, get?]
    | cons b other =>
      rw [adjust, valueAt_cons, lookup_modifyFirst, valueAt_cons, valueAt_cons]
      by_cases hb : b = a
      · subst hb
        cases hchild : cs.lookup b <;> simp [hf, ih]
      · simp [hb]

theorem valueAt_mapValues (d : β) {f : β → β} (hf : f d = d) (path : List α) : ∀ t : Trie α β,
    valueAt d path (mapValues f t) = f (valueAt d path t) := by
  induction path with
  | nil => rintro ⟨v, cs⟩; rfl
  | cons a path ih =>
    rintro ⟨v, cs⟩
    rw [mapValues, mapChildren_eq, valueAt_cons, lookup_map, valueAt_cons]
    cases hchild : cs.lookup a <;> simp [hf, ih]

omit [DecidableEq α] in
theorem Distinct.leaf (d : β) : Distinct (.node d [] : Trie α β) := .node (by simp) (by simp)

theorem Distinct.alter {t : Trie α β} (ht : Distinct t) (d : β) (f : β → β) (path : List α) :
    Distinct (alter d f path t) := by
  induction path generalizing t with
  | nil =>
    obtain ⟨names, children⟩ := ht
    exact .node names children
  | cons a path ih =>
    obtain ⟨names, children⟩ := ht
    rename_i v cs
    by_cases hsome : (cs.lookup a).isSome = true
    · rw [Trie.alter, if_pos hsome]
      refine .node (by rwa [modifyFirst_map_fst]) fun c hc => ?_
      rcases mem_modifyFirst hc with hc | ⟨e, he, rfl⟩
      · exact children c hc
      · exact ih (children e he)
    · rw [Trie.alter, if_neg hsome]
      have hnew : a ∉ cs.map Prod.fst := fun h => hsome (lookup_isSome_iff.mpr h)
      refine .node ?_ fun c hc => ?_
      · rw [List.map_append, List.nodup_append]
        refine ⟨names, by simp, ?_⟩
        simpa using fun b x hx hb => hnew (List.mem_map.mpr ⟨(b, x), hx, hb⟩)
      · rcases List.mem_append.mp hc with hc | hc
        · exact children c hc
        · obtain rfl : c = _ := by simpa using hc
          exact ih (Distinct.leaf d)

theorem Distinct.adjust {t : Trie α β} (ht : Distinct t) (f : β → β) (path : List α) :
    Distinct (adjust f path t) := by
  induction path generalizing t with
  | nil =>
    obtain ⟨names, children⟩ := ht
    exact .node names children
  | cons a path ih =>
    obtain ⟨names, children⟩ := ht
    refine .node (by rwa [modifyFirst_map_fst]) fun c hc => ?_
    rcases mem_modifyFirst hc with hc | ⟨e, he, rfl⟩
    · exact children c hc
    · exact ih (children e he)

omit [DecidableEq α] in
theorem Distinct.mapValues {t : Trie α β} (ht : Distinct t) (f : β → β) : Distinct (mapValues f t) := by
  induction ht with
  | node names children ih =>
    rw [Trie.mapValues, mapChildren_eq]
    refine .node (by simpa [List.map_map, Function.comp_def] using names) fun c hc => ?_
    obtain ⟨e, he, rfl⟩ := List.mem_map.mp hc
    exact ih e he

theorem mem_entries_iff {t : Trie α β} (ht : Distinct t) (path : List α) (v : β) :
    (path, v) ∈ entries t ↔ get? path t = some v := by
  induction ht generalizing path with
  | @node w cs names children ih =>
    cases path with
    | nil => simp [entries, entriesBelow_eq, get?, eq_comm]
    | cons a path =>
      have hrest : ((a :: path, v) ∈ entries (.node w cs)) ↔ ∃ c ∈ cs, c.1 = a ∧ (path, v) ∈ entries c.2 := by
        simp only [entries, entriesBelow_eq, List.mem_cons, Prod.mk.injEq, reduceCtorEq, false_and, false_or,
          List.mem_flatMap, List.mem_map]
        constructor
        · rintro ⟨c, hc, ⟨p, w⟩, he, hp, rfl⟩
          obtain ⟨rfl, rfl⟩ := List.cons.inj hp
          exact ⟨c, hc, rfl, he⟩
        · rintro ⟨c, hc, rfl, he⟩
          exact ⟨c, hc, (path, v), he, rfl, rfl⟩
      rw [hrest, get?, Option.bind_eq_some_iff]
      constructor
      · rintro ⟨c, hc, rfl, he⟩
        exact ⟨c.2, lookup_of_mem names hc, (ih c hc path).mp he⟩
      · rintro ⟨child, hchild, he⟩
        have hc := mem_of_lookup hchild
        exact ⟨(a, child), hc, rfl, (ih (a, child) hc path).mpr he⟩

/-- Down the edges that the path names, whichever of equally named children they lead to. -/
inductive Reaches : Trie α β → List α → Trie α β → Prop
  | here (t : Trie α β) : Reaches t [] t
  | down {v : β} {cs : List (α × Trie α β)} {a : α} {c t : Trie α β} {path : List α} (child : (a, c) ∈ cs)
      (later : Reaches c path t) : Reaches (.node v cs) (a :: path) t

theorem Distinct.reached {t : Trie α β} (ht : Distinct t) {path : List α} {v : β} {cs : List (α × Trie α β)}
    (h : Reaches t path (.node v cs)) : (cs.map Prod.fst).Nodup ∧ get? path t = some v := by
  generalize hu : (Trie.node v cs : Trie α β) = u at h
  induction h with
  | here t =>
    subst hu
    cases ht with
    | node names _ => exact ⟨names, rfl⟩
  | down child later ih =>
    cases ht with
    | node names children =>
      obtain ⟨hnames, hget⟩ := ih (children _ child) hu
      refine ⟨hnames, ?_⟩
      rw [get?, lookup_of_mem names child]
      exact hget

omit [DecidableEq α] in
theorem entries_nodup {t : Trie α β} (ht : Distinct t) : ((entries t).map Prod.fst).Nodup := by
  induction ht with
  | @node w cs names children ih =>
    have hbelow : ((entriesBelow cs).map Prod.fst).Nodup := by
      clear children
      induction cs with
      | nil => simp [entriesBelow]
      | cons c cs ihcs =>
        obtain ⟨a, t⟩ := c
        simp only [List.map_cons, List.nodup_cons] at names
        have head := ih (a, t) List.mem_cons_self
        have tail := ihcs names.2 fun c hc => ih c (List.mem_cons_of_mem _ hc)
        rw [entriesBelow, List.map_append, List.map_map, List.nodup_append]
        refine ⟨?_, tail, ?_⟩
        · have hcons : (Prod.fst ∘ fun e : List α × β => (a :: e.1, e.2)) = (a :: ·) ∘ Prod.fst := rfl
          rw [hcons, ← List.map_map]
          exact head.map (List.cons_injective)
        · rintro p hp q hq rfl
          obtain ⟨e, -, rfl⟩ := List.mem_map.mp hp
          rw [entriesBelow_eq] at hq
          obtain ⟨e', he', heq⟩ := List.mem_map.mp hq
          obtain ⟨c, hc, hmem⟩ := List.mem_flatMap.mp he'
          obtain ⟨e'', -, rfl⟩ := List.mem_map.mp hmem
          have hname : c.1 = a := (List.cons.inj heq).1
          exact names.1 (hname ▸ List.mem_map.mpr ⟨c, hc, rfl⟩)
    rw [entries, List.map_cons, List.nodup_cons]
    refine ⟨?_, hbelow⟩
    simp [entriesBelow_eq]

end Trie
end
end NamedTrie
