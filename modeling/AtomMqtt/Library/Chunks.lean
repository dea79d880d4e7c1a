import AtomMqtt.Library.Scan

set_option autoImplicit false

/-! Sections of a declared length. `Takes m E` says which tokens a scanner has read when it returns, and where.
A section is a loop over items up to a declared end; an item may be one that is read past that end. `Chunked`
describes the items, and the theorems say when the tokens after the section make no difference: exactly if no
item begins before the end and ends after it. -/
namespace Scanning

section
variable {τ ε α β : Type}

/-- What the scanner returns it has read from tokens that are related to it, from that position on. -/
def Takes (m : Scan τ ε α) (E : ℕ → List τ → α → Prop) : Prop :=
  ∀ ⦃data : List τ⦄ ⦃pos q : ℕ⦄ ⦃x : α⦄, pos ≤ data.length → m data pos = .ok (x, q) →
    ∃ c rest, data.drop pos = c ++ rest ∧ q = pos + c.length ∧ E pos c x

theorem Takes.mono {m : Scan τ ε α} {E E' : ℕ → List τ → α → Prop} (h : Takes m E)
    (himp : ∀ pos c x, E pos c x → E' pos c x) : Takes m E' := by
  intro data pos q x hpos hm
  obtain ⟨c, rest, hdata, hq, hE⟩ := h hpos hm
  exact ⟨c, rest, hdata, hq, himp pos c x hE⟩

theorem takes_pure (x : α) : Takes (pure x : Scan τ ε α) fun _ c y => c = [] ∧ y = x := by
  rintro data pos q y _ ⟨⟩
  exact ⟨[], data.drop pos, rfl, rfl, rfl, rfl⟩

theorem Takes.bind {m : Scan τ ε α} {f : α → Scan τ ε β} {E : ℕ → List τ → α → Prop}
    {F : α → ℕ → List τ → β → Prop} (h : Takes m E) (hf : ∀ x, Takes (f x) (F x)) :
    Takes (m >>= f) fun pos c y => ∃ d e x, c = d ++ e ∧ E pos d x ∧ F x (pos + d.length) e y := by
  intro data pos q y hpos hmf
  rw [bind_apply] at hmf
  cases hm : m data pos with
  | error err =>
    rw [hm] at hmf
    cases hmf
  | ok result =>
    obtain ⟨x, q₁⟩ := result
    rw [hm] at hmf
    obtain ⟨d, rest, hdata, hq₁, hE⟩ := h hpos hm
    have hlen : data.length - pos = d.length + rest.length := by
      rw [← List.length_drop, hdata, List.length_append]
    have hrest : data.drop q₁ = rest := by
      rw [hq₁, ← List.drop_drop, hdata, List.drop_left]
    obtain ⟨e, rest', hdata', hq, hF⟩ := hf x (by omega) hmf
    rw [hq₁] at hF
    refine ⟨d ++ e, rest', ?_, ?_, d, e, x, rfl, hE, hF⟩
    · rw [hdata, ← hrest, hdata', List.append_assoc]
    · rw [hq, hq₁, List.length_append, Nat.add_assoc]

theorem takes_next (oob : ε) : Takes (next oob : Scan τ ε τ) fun _ c t => c = [t] := by
  intro data pos q t _ hm
  unfold next at hm
  split at hm
  · rename_i t' hget
    cases hm
    obtain ⟨hlt, rfl⟩ := List.getElem?_eq_some_iff.mp hget
    exact ⟨[data[pos]], data.drop (pos + 1), List.drop_eq_getElem_cons hlt, rfl, rfl⟩
  · cases hm

theorem takes_takeN (oob : ε) (n : ℕ) : Takes (takeN oob n : Scan τ ε (List τ)) fun _ c x => x = c ∧ c.length = n := by
  intro data pos q x _ hm
  unfold takeN at hm
  split_ifs at hm with hfit
  cases hm
  have hlen : ((data.drop pos).take n).length = n := by
    rw [List.length_take, List.length_drop]
    omega
  exact ⟨(data.drop pos).take n, (data.drop pos).drop n, (List.take_append_drop n _).symm, by rw [hlen], rfl, hlen⟩

theorem takes_error (e : ε) (E : ℕ → List τ → α → Prop) : Takes (fun _ _ => .error e : Scan τ ε α) E := by
  rintro data pos q x _ ⟨⟩

theorem takes_within (limit n : ℕ) (e : ε) :
    Takes (within limit n e : Scan τ ε Unit) fun pos c _ => c = [] ∧ pos + n ≤ limit := by
  intro data pos q x _ hm
  unfold within at hm
  split_ifs at hm with hlimit
  cases hm
  exact ⟨[], data.drop pos, rfl, rfl, rfl, Nat.le_of_not_lt hlimit⟩

theorem takes_onRest (oob : ε) {f : List τ → Except ε (α × ℕ)} {E : List τ → α → Prop}
    (hf : ∀ {data x n}, f data = .ok (x, n) → ∃ c rest, data = c ++ rest ∧ n = c.length ∧ E c x) :
    Takes (onRest oob f) fun _ => E := by
  intro data pos q x hpos hm
  simp only [onRest, hpos, if_true] at hm
  split at hm
  · rename_i y n hok
    cases hm
    obtain ⟨c, rest, hdata, rfl, hE⟩ := hf hok
    exact ⟨c, rest, hdata, rfl, hE⟩
  · cases hm

end

section
variable {τ ε α : Type}

section
variable {stuck : ε} {item : Scan τ ε α} {limit fuel pos : ℕ} {data : List τ}

theorem whileBefore_done (hdone : limit ≤ pos) : whileBefore stuck item limit fuel data pos = .ok ([], pos) := by
  cases fuel <;> exact if_neg (Nat.not_lt.mpr hdone)

theorem whileBefore_error (hlt : pos < limit) {e : ε} (hitem : item data pos = .error e) :
    whileBefore stuck item limit (fuel + 1) data pos = .error e := by
  change (if pos < limit then _ else _) = _
  rw [if_pos hlt, bind_apply, hitem]

theorem whileBefore_turn (hlt : pos < limit) {x : α} {q : ℕ} (hitem : item data pos = .ok (x, q)) :
    whileBefore stuck item limit (fuel + 1) data pos =
      (whileBefore stuck item limit fuel data q).map fun r => (x :: r.1, r.2) := by
  change (if pos < limit then _ else _) = _
  rw [if_pos hlt, bind_apply, hitem]
  change ((x :: ·) <$> whileBefore stuck item limit fuel) data q = _
  rw [map_apply]
  cases whileBefore stuck item limit fuel data q <;> rfl

end

/-- The items of a section: their tokens, and which of them are read without a look at the limit. -/
structure Chunked (item : Scan τ ε α) (E : List τ → α → Prop) (loose : α → Prop) (limit : ℕ) : Prop where
  pos : ∀ {c x}, E c x → 0 < c.length
  reads : ∀ {pre c rest : List τ} {x : α}, E c x → loose x ∨ pre.length + c.length ≤ limit → ReadsAt item pre c rest x
  takes : Takes item fun p c x => E c x ∧ (loose x ∨ p + c.length ≤ limit)

def flat (ps : List (List τ × α)) : List τ := ps.flatMap Prod.fst

/-- Items up to the declared end, and one more that begins before it and ends after it. -/
structure Overruns (E : List τ → α → Prop) (loose : α → Prop) (tokens : List τ) (declared : ℕ)
    (init : List (List τ × α)) (last : List τ × α) : Prop where
  items : ∀ p ∈ init, E p.1 p.2
  item : E last.1 last.2
  loose : loose last.2
  tokens : flat init ++ last.1 <+: tokens
  begins : (flat init).length < declared
  ends : declared < (flat init).length + last.1.length

/-- The items that a loop has read from `pos` to `q`: up to the limit, or up to one that goes past it. -/
structure Walked (E : List τ → α → Prop) (loose : α → Prop) (limit : ℕ) (data : List τ) (pos : ℕ)
    (ps : List (List τ × α)) (q : ℕ) : Prop where
  items : ∀ p ∈ ps, E p.1 p.2
  tokens : flat ps <+: data.drop pos
  next : q = pos + (flat ps).length
  ends : q = limit ∨ ∃ init last, ps = init ++ [last] ∧ loose last.2 ∧ pos + (flat init).length < limit ∧ limit < q

namespace Walked
variable {E : List τ → α → Prop} {loose : α → Prop} {limit pos q : ℕ} {data c rest : List τ} {x : α}
  {ps : List (List τ × α)}

theorem nil : Walked E loose limit data limit [] limit := ⟨List.forall_mem_nil _, List.nil_prefix, rfl, .inl rfl⟩

theorem last (hdata : data.drop pos = c ++ rest) (hE : E c x) (hloose : loose x) (hlt : pos < limit)
    (hpast : limit < pos + c.length) : Walked E loose limit data pos [(c, x)] (pos + c.length) := by
  have hflat : flat [(c, x)] = c := List.flatMap_singleton _ _
  refine ⟨List.forall_mem_singleton.mpr hE, ?_, by rw [hflat], .inr ⟨[], (c, x), rfl, hloose, hlt, hpast⟩⟩
  rw [hflat, hdata]
  exact List.prefix_append c rest

theorem cons (hdata : data.drop pos = c ++ rest) (hE : E c x) (h : Walked E loose limit data (pos + c.length) ps q) :
    Walked E loose limit data pos ((c, x) :: ps) q := by
  have hflat : ∀ ps, flat ((c, x) :: ps) = c ++ flat ps := fun _ => List.flatMap_cons
  have hrest : data.drop (pos + c.length) = rest := by rw [← List.drop_drop, hdata, List.drop_left]
  refine ⟨List.forall_mem_cons.mpr ⟨hE, h.items⟩, ?_, ?_, h.ends.imp_right ?_⟩
  · rw [hflat, hdata, List.prefix_append_right_inj, ← hrest]
    exact h.tokens
  · rw [hflat, List.length_append, ← Nat.add_assoc]
    exact h.next
  · rintro ⟨init, last, rfl, hloose, hbegins, hends⟩
    refine ⟨(c, x) :: init, last, rfl, hloose, ?_, hends⟩
    rw [hflat, List.length_append]
    omega

end Walked

namespace Chunked
variable {item : Scan τ ε α} {E : List τ → α → Prop} {loose : α → Prop} {limit : ℕ}

theorem length_le_flat (h : Chunked item E loose limit) {ps : List (List τ × α)} (hps : ∀ p ∈ ps, E p.1 p.2) :
    ps.length ≤ (flat ps).length := by
  induction ps with
  | nil => exact Nat.le_refl 0
  | cons p ps ih =>
    have hrest := ih fun p' hp' => hps p' (List.mem_cons_of_mem p hp')
    have hpos := h.pos (hps p List.mem_cons_self)
    simp only [flat, List.flatMap_cons, List.length_append, List.length_cons] at hrest ⊢
    omega

/-- The loop reads the items that end by the limit and goes on behind them. Induction on the items. -/
theorem loop_split (h : Chunked item E loose limit) (stuck : ε) (fuel : ℕ) {rest : List τ} {ps : List (List τ × α)} :
    ∀ {pre : List τ}, (∀ p ∈ ps, E p.1 p.2) → pre.length + (flat ps).length ≤ limit →
      whileBefore stuck item limit (ps.length + fuel) (pre ++ (flat ps ++ rest)) pre.length =
        (whileBefore stuck item limit fuel (pre ++ (flat ps ++ rest)) (pre.length + (flat ps).length)).map
          fun r => (ps.map Prod.snd ++ r.1, r.2) := by
  induction ps with
  | nil =>
    intro pre _ _
    simp only [List.length_nil, Nat.zero_add, List.map_nil, List.nil_append, flat, List.flatMap_nil, Nat.add_zero]
    cases whileBefore stuck item limit fuel (pre ++ rest) pre.length <;> rfl
  | cons p ps ih =>
    intro pre hps hfit
    have hE := hps p List.mem_cons_self
    have hpos := h.pos hE
    have hflat : flat (p :: ps) = p.1 ++ flat ps := List.flatMap_cons
    rw [hflat, List.length_append] at hfit
    have hhead : ReadsAt item pre p.1 (flat ps ++ rest) p.2 := h.reads hE (.inr (by omega))
    have htail := @ih (pre ++ p.1) (fun p' hp' => hps p' (List.mem_cons_of_mem p hp'))
      (by rw [List.length_append]; omega)
    have hlt : pre.length < limit := by omega
    have hfuel : (p :: ps).length + fuel = ps.length + fuel + 1 := by rw [List.length_cons]; omega
    rw [List.length_append, List.append_assoc] at htail
    unfold ReadsAt at hhead
    rw [hflat, List.append_assoc, hfuel, whileBefore_turn hlt hhead, htail, List.length_append, Nat.add_assoc]
    cases whileBefore stuck item limit fuel (pre ++ (p.1 ++ (flat ps ++ rest)))
      (pre.length + (p.1.length + (flat ps).length)) <;> rfl

theorem loop_reads (h : Chunked item E loose limit) (stuck : ε) {fuel : ℕ} {pre rest : List τ}
    {ps : List (List τ × α)} (hps : ∀ p ∈ ps, E p.1 p.2) (hend : pre.length + (flat ps).length = limit)
    (hfuel : (flat ps).length ≤ fuel) :
    whileBefore stuck item limit fuel (pre ++ (flat ps ++ rest)) pre.length = .ok (ps.map Prod.snd, limit) := by
  obtain ⟨more, rfl⟩ := Nat.exists_eq_add_of_le (Nat.le_trans (h.length_le_flat hps) hfuel)
  rw [h.loop_split stuck more hps (Nat.le_of_eq hend), hend, whileBefore_done (Nat.le_refl limit)]
  simp [Except.map]

theorem loop_takes (h : Chunked item E loose limit) (stuck : ε) (fuel : ℕ) {data : List τ} :
    ∀ {pos q : ℕ} {xs : List α}, pos ≤ data.length → pos ≤ limit →
      whileBefore stuck item limit fuel data pos = .ok (xs, q) →
        ∃ ps, xs = ps.map Prod.snd ∧ Walked E loose limit data pos ps q := by
  induction fuel with
  | zero =>
    intro pos q xs _ hle hloop
    simp only [whileBefore] at hloop
    split_ifs at hloop with hlt
    cases hloop
    obtain rfl : pos = limit := by omega
    exact ⟨[], rfl, .nil⟩
  | succ fuel ih =>
    intro pos q xs hpos hle hloop
    by_cases hlt : pos < limit
    · cases hitem : item data pos with
      | error e =>
        rw [whileBefore_error hlt hitem] at hloop
        cases hloop
      | ok result =>
        obtain ⟨x, q₁⟩ := result
        rw [whileBefore_turn hlt hitem] at hloop
        obtain ⟨c, rest, hdata, rfl, hE, hstays⟩ := h.takes hpos hitem
        by_cases hinside : pos + c.length ≤ limit
        · have hlen : data.length - pos = c.length + rest.length := by
            rw [← List.length_drop, hdata, List.length_append]
          cases hrec : whileBefore stuck item limit fuel data (pos + c.length) with
          | error e =>
            rw [hrec] at hloop
            cases hloop
          | ok result =>
            rw [hrec] at hloop
            cases hloop
            obtain ⟨ps, hxs, hwalked⟩ := ih (by omega) hinside hrec
            exact ⟨(c, x) :: ps, congrArg (x :: ·) hxs, .cons hdata hE hwalked⟩
        · rw [whileBefore_done (Nat.le_of_not_le hinside)] at hloop
          cases hloop
          exact ⟨[(c, x)], rfl, .last hdata hE (hstays.resolve_right hinside) hlt (by omega)⟩
    · rw [whileBefore_done (Nat.le_of_not_lt hlt)] at hloop
      cases hloop
      obtain rfl : pos = limit := by omega
      exact ⟨[], rfl, .nil⟩

/-- An item that is cut off is not read: it would be read in the same way with its tokens complete. -/
theorem not_reads_part (h : Chunked item E loose limit) (pre : List τ) {c' tail : List τ} {x : α}
    (hE : E (c' ++ tail) x) (hover : loose x) (htail : 0 < tail.length) :
    ∃ e, item (pre ++ c') pre.length = .error e := by
  cases hitem : item (pre ++ c') pre.length with
  | error e => exact ⟨e, rfl⟩
  | ok result =>
    obtain ⟨x', q⟩ := result
    have hpos : pre.length ≤ (pre ++ c').length := by simp
    obtain ⟨c, rest, hdata, hq, hE', hstays⟩ := h.takes hpos hitem
    rw [List.drop_left] at hdata
    subst hdata
    have hpart : ReadsAt item pre c (rest ++ tail) x' := h.reads hE' hstays
    have hwhole : ReadsAt item pre (c ++ rest ++ tail) [] x := h.reads hE (.inl hover)
    unfold ReadsAt at hpart hwhole
    rw [List.append_nil, List.append_assoc, hpart] at hwhole
    have hend := congrArg Prod.snd (Except.ok.inj hwhole)
    simp only [List.length_append] at hend
    omega

variable {body head : List τ} {declared : ℕ}

theorem section_local (h : Chunked item E loose (head.length + declared)) (stuck : ε)
    (hnone : ∀ init last, ¬ Overruns E loose body declared init last) {fuel q : ℕ} (hfuel : declared ≤ fuel)
    {xs : List α}
    (hloop : whileBefore stuck item (head.length + declared) fuel (head ++ body) head.length = .ok (xs, q))
    (rest : List τ) :
    whileBefore stuck item (head.length + declared) fuel (head ++ (body.take declared ++ rest)) head.length =
      .ok (xs, head.length + declared) := by
  obtain ⟨ps, rfl, hps, hprefix, hq, hend⟩ := h.loop_takes stuck fuel (by simp) (Nat.le_add_right _ _) hloop
  rw [List.drop_left] at hprefix
  cases hend with
  | inl hexact =>
    have hdeclared : (flat ps).length = declared := by omega
    have htake : body.take declared = flat ps := by
      rw [← hdeclared]
      exact (List.prefix_iff_eq_take.mp hprefix).symm
    rw [htake]
    apply h.loop_reads stuck hps
    · omega
    · omega
  | inr hpast =>
    obtain ⟨init, last, rfl, hover, hbegins, hends⟩ := hpast
    have hflat : flat (init ++ [last]) = flat init ++ last.1 := by simp [flat]
    rw [hflat] at hprefix hq
    rw [List.length_append] at hq
    refine absurd ⟨?_, hps last (by simp), hover, hprefix, by omega, by omega⟩ (hnone init last)
    intro p hp
    exact hps p (List.mem_append_left _ hp)

/-- With such an item the section is read, but not from its own tokens alone. -/
theorem section_over (h : Chunked item E loose (head.length + declared)) (stuck : ε) {init : List (List τ × α)}
    {last : List τ × α} (hover : Overruns E loose body declared init last) {fuel : ℕ} (hfuel : declared ≤ fuel) :
    (∃ xs q, whileBefore stuck item (head.length + declared) fuel (head ++ body) head.length = .ok (xs, q)) ∧
      ∃ e, whileBefore stuck item (head.length + declared) fuel (head ++ body.take declared) head.length = .error e := by
  obtain ⟨hitems, hitem, hpast, ⟨rest, rfl⟩, hbegins, hends⟩ := hover
  have hcount := h.length_le_flat hitems
  obtain ⟨more, rfl⟩ : ∃ more, fuel = init.length + (more + 1) := ⟨fuel - init.length - 1, by omega⟩
  have hlt : head.length + (flat init).length < head.length + declared := by omega
  have hpre : (head ++ flat init).length = head.length + (flat init).length := List.length_append
  constructor
  · have hread : ReadsAt item (head ++ flat init) last.1 rest last.2 := h.reads hitem (.inl hpast)
    unfold ReadsAt at hread
    rw [hpre, List.append_assoc] at hread
    refine ⟨init.map Prod.snd ++ [last.2], head.length + (flat init).length + last.1.length, ?_⟩
    rw [List.append_assoc, h.loop_split stuck (more + 1) hitems (by omega), whileBefore_turn hlt hread,
      whileBefore_done (by omega)]
    rfl
  · let used := declared - (flat init).length
    have htake : (flat init ++ last.1 ++ rest).take declared = flat init ++ last.1.take used := by
      rw [List.append_assoc, List.take_append, List.take_of_length_le (by omega),
        List.take_append_of_le_length (by omega)]
    have hcut : 0 < (last.1.drop used).length := by
      rw [List.length_drop]
      omega
    have hparts : E (last.1.take used ++ last.1.drop used) last.2 := (List.take_append_drop used last.1).symm ▸ hitem
    obtain ⟨e, he⟩ := h.not_reads_part (head ++ flat init) hparts hpast hcut
    rw [hpre, List.append_assoc] at he
    refine ⟨e, ?_⟩
    rw [htake, h.loop_split stuck (more + 1) hitems (by omega), whileBefore_error hlt he]
    rfl

end Chunked

end
end Scanning
