import Mathlib.Data.List.Basic

set_option autoImplicit false

/-! Scanning a list from a position. A scanner reads a fixed list of tokens from a position that it moves
forward, and may stop with a fault. `Reads m e x` says that, wherever the tokens `e` stand, `m` reads exactly
these and returns `x`, whatever follows; `ReadsEnd m e x` says so when nothing follows. Both compose along
`bind`, so the round trip of a format is assembled from those of its fields. -/
namespace Scanning

abbrev Scan (τ ε α : Type) := ReaderT (List τ) (StateT ℕ (Except ε)) α

section
variable {τ ε α β : Type}

/-- `if c { return Err(e) }` -/
def reject (c : Bool) (e : ε) : Scan τ ε Unit := fun _ pos => if c then .error e else .ok ((), pos)

/-- `if pos + n > data.len() { return Err(e) }` -/
def ensure (n : ℕ) (e : ε) : Scan τ ε Unit := fun data pos =>
  if pos + n > data.length then .error e else .ok ((), pos)

/-- `if pos + n > limit { return Err(e) }` -/
def within (limit n : ℕ) (e : ε) : Scan τ ε Unit := fun _ pos =>
  if pos + n > limit then .error e else .ok ((), pos)

/-- `data[pos]`, then `pos += 1`; `oob` is the fault of an index out of range. -/
def next (oob : ε) : Scan τ ε τ := fun data pos =>
  match data[pos]? with
  | some t => .ok (t, pos + 1)
  | none => .error oob

/-- `data[pos..pos + n]`, then `pos += n` -/
def takeN (oob : ε) (n : ℕ) : Scan τ ε (List τ) := fun data pos =>
  if pos + n ≤ data.length then .ok ((data.drop pos).take n, pos + n) else .error oob

/-- `data[pos..]`, with the position left at the end -/
def takeRest (oob : ε) : Scan τ ε (List τ) := fun data pos =>
  if pos ≤ data.length then .ok (data.drop pos, data.length) else .error oob

/-- `let (x, consumed) = f(&data[pos..])?; pos += consumed` -/
def onRest (oob : ε) (f : List τ → Except ε (α × ℕ)) : Scan τ ε α := fun data pos =>
  if pos ≤ data.length then
    match f (data.drop pos) with
    | .ok (x, consumed) => .ok (x, pos + consumed)
    | .error e => .error e
  else .error oob

/-- A field that a flag announces. -/
def readIf (present : Bool) (m : Scan τ ε α) : Scan τ ε (Option α) :=
  if present then some <$> m else pure none

/-- `while pos < limit { out.push(item()?) }`; `stuck` is the fault of a loop that outlives its fuel. -/
def whileBefore (stuck : ε) (item : Scan τ ε α) (limit : ℕ) : ℕ → Scan τ ε (List α)
  | 0 => fun _ pos => if pos < limit then .error stuck else .ok ([], pos)
  | fuel + 1 => fun data pos =>
    if pos < limit then (do let x ← item; (x :: ·) <$> whileBefore stuck item limit fuel) data pos
    else .ok ([], pos)

/-- `while pos < data.len() { out.push(item()?) }`: one token at least is read at each turn, so
    the length of the data is fuel enough. -/
def whileData (stuck : ε) (item : Scan τ ε α) : Scan τ ε (List α) := fun data pos =>
  whileBefore stuck item data.length data.length data pos

theorem bind_apply (m : Scan τ ε α) (f : α → Scan τ ε β) (data : List τ) (pos : ℕ) :
    (m >>= f) data pos = match m data pos with
      | .error e => .error e
      | .ok (x, q) => f x data q := by
  change (m data pos >>= fun x => f x.1 data x.2) = _
  cases m data pos <;> rfl

theorem map_apply (m : Scan τ ε α) (f : α → β) (data : List τ) (pos : ℕ) :
    (f <$> m) data pos = match m data pos with
      | .error e => .error e
      | .ok (x, q) => .ok (f x, q) := by
  change ((fun x => (f x.1, x.2)) <$> m data pos) = _
  cases m data pos <;> rfl

theorem pure_apply (x : α) (data : List τ) (pos : ℕ) :
    (pure x : Scan τ ε α) data pos = .ok (x, pos) := rfl

/-- One reading: after `pre`, with `rest` to follow, `m` reads exactly `e`. -/
def ReadsAt (m : Scan τ ε α) (pre e rest : List τ) (x : α) : Prop :=
  m (pre ++ (e ++ rest)) pre.length = .ok (x, pre.length + e.length)

def Reads (m : Scan τ ε α) (e : List τ) (x : α) : Prop := ∀ pre rest, ReadsAt m pre e rest x

def ReadsEnd (m : Scan τ ε α) (e : List τ) (x : α) : Prop := ∀ pre, ReadsAt m pre e [] x

/-- A function on slices that reads a prefix and reports how long it is. -/
def Decodes (f : List τ → Except ε (α × ℕ)) (e : List τ) (x : α) : Prop :=
  ∀ rest, f (e ++ rest) = .ok (x, e.length)

theorem ReadsAt.bind {m : Scan τ ε α} {f : α → Scan τ ε β} {pre d e rest : List τ} {x : α} {y : β}
    (h₁ : ReadsAt m pre d (e ++ rest) x) (h₂ : ReadsAt (f x) (pre ++ d) e rest y) :
    ReadsAt (m >>= f) pre (d ++ e) rest y := by
  unfold ReadsAt at *
  rw [bind_apply, List.append_assoc, h₁]
  simpa only [List.append_assoc, List.length_append, Nat.add_assoc] using h₂

theorem ReadsAt.map {m : Scan τ ε α} {pre e rest : List τ} {x : α} (h : ReadsAt m pre e rest x)
    (f : α → β) : ReadsAt (f <$> m) pre e rest (f x) := by
  unfold ReadsAt at *
  rw [map_apply, h]

theorem Reads.bind {m : Scan τ ε α} {f : α → Scan τ ε β} {d e : List τ} {x : α} {y : β}
    (h₁ : Reads m d x) (h₂ : Reads (f x) e y) : Reads (m >>= f) (d ++ e) y :=
  fun pre rest => (h₁ pre (e ++ rest)).bind (h₂ (pre ++ d) rest)

theorem Reads.bindEnd {m : Scan τ ε α} {f : α → Scan τ ε β} {d e : List τ} {x : α} {y : β}
    (h₁ : Reads m d x) (h₂ : ReadsEnd (f x) e y) : ReadsEnd (m >>= f) (d ++ e) y :=
  fun pre => (h₁ pre (e ++ [])).bind (h₂ (pre ++ d))

theorem Reads.bindNilEnd {m : Scan τ ε α} {f : α → Scan τ ε β} {e : List τ} {x : α} {y : β}
    (h₁ : Reads m [] x) (h₂ : ReadsEnd (f x) e y) : ReadsEnd (m >>= f) e y := h₁.bindEnd h₂

theorem Reads.map {m : Scan τ ε α} {e : List τ} {x : α} (h : Reads m e x) (f : α → β) :
    Reads (f <$> m) e (f x) := fun pre rest => (h pre rest).map f

theorem Reads.toEnd {m : Scan τ ε α} {e : List τ} {x : α} (h : Reads m e x) : ReadsEnd m e x :=
  fun pre => h pre []

theorem reads_pure (x : α) : Reads (pure x : Scan τ ε α) [] x := fun _ _ => rfl

theorem ReadsAt.bindPure {m : Scan τ ε α} {f : α → Scan τ ε β} {pre e rest : List τ} {x : α} {y : β}
    (h : ReadsAt m pre e rest x) (hf : f x = pure y) : ReadsAt (m >>= f) pre e rest y := by
  have hy : ReadsAt (f x) (pre ++ e) [] rest y := by rw [hf]; exact reads_pure y _ _
  simpa only [List.append_nil] using ReadsAt.bind (e := []) h hy

theorem Reads.bindPure {m : Scan τ ε α} {f : α → Scan τ ε β} {e : List τ} {x : α} {y : β}
    (h : Reads m e x) (hf : f x = pure y) : Reads (m >>= f) e y :=
  fun pre rest => (h pre rest).bindPure hf

theorem ReadsEnd.bindPure {m : Scan τ ε α} {f : α → Scan τ ε β} {e : List τ} {x : α} {y : β}
    (h : ReadsEnd m e x) (hf : f x = pure y) : ReadsEnd (m >>= f) e y :=
  fun pre => (h pre).bindPure hf

theorem reads_reject {c : Bool} (hc : c = false) (e : ε) : Reads (reject c e : Scan τ ε Unit) [] () := by
  intro pre rest
  simp [ReadsAt, reject, hc]

theorem reads_next (oob : ε) (t : τ) : Reads (next oob) [t] t := by
  intro pre rest
  simp [ReadsAt, next]

theorem reads_takeN (oob : ε) {n : ℕ} {e : List τ} (hn : e.length = n) : Reads (takeN oob n) e e := by
  intro pre rest
  subst hn
  simp [ReadsAt, takeN]

theorem readsEnd_takeRest (oob : ε) (e : List τ) : ReadsEnd (takeRest oob) e e := by
  intro pre
  simp [ReadsAt, takeRest]

theorem Decodes.reads {f : List τ → Except ε (α × ℕ)} {e : List τ} {x : α} (h : Decodes f e x) (oob : ε) :
    Reads (onRest oob f) e x := by
  intro pre rest
  simp [ReadsAt, onRest, h rest]

theorem Reads.ensured {m : Scan τ ε α} {e : List τ} {x : α} {n : ℕ} (h : Reads m e x) (hn : n ≤ e.length)
    (err : ε) : Reads (ensure n err >>= fun _ => m) e x := by
  intro pre rest
  have hlen : ¬ pre.length + n > (pre ++ (e ++ rest)).length := by simp only [List.length_append]; omega
  simpa only [ReadsAt, bind_apply, ensure, hlen, if_false] using h pre rest

theorem ReadsEnd.ensured {m : Scan τ ε α} {e : List τ} {x : α} {n : ℕ} (h : ReadsEnd m e x)
    (hn : n ≤ e.length) (err : ε) : ReadsEnd (ensure n err >>= fun _ => m) e x := by
  intro pre
  have hlen : ¬ pre.length + n > (pre ++ (e ++ [])).length := by simp only [List.length_append]; omega
  simpa only [ReadsAt, bind_apply, ensure, hlen, if_false] using h pre

theorem ReadsAt.within {m : Scan τ ε α} {pre e rest : List τ} {x : α} {limit n : ℕ}
    (h : ReadsAt m pre e rest x) (hn : pre.length + n ≤ limit) (err : ε) :
    ReadsAt (within limit n err >>= fun _ => m) pre e rest x := by
  have hlen : ¬ pre.length + n > limit := by omega
  simpa only [ReadsAt, bind_apply, Scanning.within, hlen, if_false] using h

theorem reads_readIf_some {m : Scan τ ε α} {e : List τ} {x : α} {present : Bool} (hp : present = true)
    (h : Reads m e x) : Reads (readIf present m) e (some x) := by
  subst hp
  exact h.map some

theorem reads_readIf_none {m : Scan τ ε α} {present : Bool} (hp : present = false) :
    Reads (readIf present m) [] none := by
  subst hp
  exact reads_pure none

theorem reads_readIf {m : Scan τ ε α} {enc : α → List τ} (o : Option α) {present : Bool}
    (hp : present = o.isSome) (h : ∀ x, o = some x → Reads m (enc x) x) :
    Reads (readIf present m) (o.elim [] enc) o := by
  cases o with
  | none => exact reads_readIf_none hp
  | some x => exact reads_readIf_some hp (h x rfl)

/-- The loop reads the items one after the other up to its limit. Induction on the items: each of
    them is not empty, so one unit of fuel a token suffices. -/
theorem readsAt_whileBefore {stuck : ε} {item : Scan τ ε α} {enc : α → List τ} {limit : ℕ} (xs : List α) :
    ∀ {pre rest : List τ} {fuel : ℕ}, (xs.flatMap enc).length ≤ fuel →
      pre.length + (xs.flatMap enc).length = limit → (∀ x ∈ xs, 0 < (enc x).length) →
      (∀ x ∈ xs, ∀ pre rest, pre.length + (enc x).length ≤ limit → ReadsAt item pre (enc x) rest x) →
      ReadsAt (whileBefore stuck item limit fuel) pre (xs.flatMap enc) rest xs := by
  induction xs with
  | nil =>
    intro pre rest fuel _ hlimit _ _
    have hlt : ¬ pre.length < limit := by simp at hlimit; omega
    cases fuel <;> simp [ReadsAt, whileBefore, hlt]
  | cons x xs ih =>
    intro pre rest fuel hfuel hlimit hpos hitem
    have hx := hpos x List.mem_cons_self
    simp only [List.flatMap_cons, List.length_append] at hfuel hlimit
    cases fuel with
    | zero => omega
    | succ fuel =>
      have hlt : pre.length < limit := by omega
      have head := hitem x List.mem_cons_self pre ((xs.flatMap enc) ++ rest) (by omega)
      have tail : ReadsAt (whileBefore stuck item limit fuel) (pre ++ enc x) (xs.flatMap enc) rest xs :=
        ih (by omega) (by simp only [List.length_append]; omega)
          (fun y hy => hpos y (List.mem_cons_of_mem x hy))
          (fun y hy => hitem y (List.mem_cons_of_mem x hy))
      have turn := head.bind (f := fun x => (x :: ·) <$> whileBefore stuck item limit fuel) (tail.map _)
      simpa only [ReadsAt, whileBefore, hlt, if_true, List.flatMap_cons] using turn

theorem readsEnd_whileData {stuck : ε} {item : Scan τ ε α} {enc : α → List τ} {xs : List α}
    (hpos : ∀ x ∈ xs, 0 < (enc x).length) (hitem : ∀ x ∈ xs, Reads item (enc x) x) :
    ReadsEnd (whileData stuck item) (xs.flatMap enc) xs := by
  intro pre
  have hfuel : (xs.flatMap enc).length ≤ (pre ++ (xs.flatMap enc ++ [])).length := by
    simp only [List.length_append]
    omega
  have hlimit : pre.length + (xs.flatMap enc).length = (pre ++ (xs.flatMap enc ++ [])).length := by
    simp only [List.length_append, List.length_nil]
    omega
  exact readsAt_whileBefore xs hfuel hlimit hpos fun x hx pre rest _ => hitem x hx pre rest

end
end Scanning
