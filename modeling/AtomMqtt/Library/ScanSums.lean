import AtomMqtt.Library.ScanBounds
import AtomMqtt.Library.ScanResults

set_option autoImplicit false

/-! Scanners whose sums can fault. The same scanners over an addition of positions that need not be the one of
the natural numbers, as that of a machine word. `SameFrom data need m' m`: with `need` tokens left to read, the
two scanners do the same. As long as no scanner leaves its tokens, an addition that is right up to a little more
than their number is as good as the exact one. -/
namespace Scanning

section
variable {τ ε α β : Type} (sum : ℕ → ℕ → Except ε ℕ)

def ensureBy (n : ℕ) (e : ε) : Scan τ ε Unit := fun data pos => do
  let stop ← sum pos n
  if stop > data.length then .error e else .ok ((), pos)

def withinBy (limit n : ℕ) (e : ε) : Scan τ ε Unit := fun _ pos => do
  let stop ← sum pos n
  if stop > limit then .error e else .ok ((), pos)

def nextBy (oob : ε) : Scan τ ε τ := fun data pos => do
  let t ← data[pos]?.elim (.error oob) .ok
  let q ← sum pos 1
  return (t, q)

def takeNBy (oob : ε) (n : ℕ) : Scan τ ε (List τ) := fun data pos => do
  let stop ← sum pos n
  if stop ≤ data.length then .ok ((data.drop pos).take n, stop) else .error oob

def onRestBy (oob : ε) (f : List τ → Except ε (α × ℕ)) : Scan τ ε α := fun data pos => do
  let r ← if pos ≤ data.length then f (data.drop pos) else .error oob
  let q ← sum pos r.2
  return (r.1, q)

end

section
variable {τ ε α β : Type} {good : ε → Prop} {data : List τ}

def SameFrom (data : List τ) (need : ℕ) (m' m : Scan τ ε α) : Prop :=
  ∀ pos, pos + need ≤ data.length → m' data pos = m data pos

theorem sameFrom_refl (m : Scan τ ε α) (need : ℕ) : SameFrom data need m m := fun _ _ => rfl

theorem SameFrom.mono {need need' : ℕ} {m' m : Scan τ ε α} (h : SameFrom data need m' m) (hneed : need ≤ need') :
    SameFrom data need' m' m := fun pos hpos => h pos (by omega)

theorem SameFrom.bindOn {need read left : ℕ} {m' m : Scan τ ε α} {f' f : α → Scan τ ε β} {P : α → Prop}
    (h : SameFrom data need m' m) (hm : Guarded good data need m read left) (hP : Yields m P)
    (hf : ∀ x, P x → SameFrom data left (f' x) (f x)) : SameFrom data need (m' >>= f') (m >>= f) := by
  intro pos hpos
  rw [bind_apply, bind_apply, h pos hpos]
  cases hread : m data pos with
  | error e => rfl
  | ok result =>
    obtain ⟨x, q⟩ := result
    exact hf x (hP hread) q (hm.ok hpos hread).2

theorem SameFrom.bind {need read left : ℕ} {m' m : Scan τ ε α} {f' f : α → Scan τ ε β} (h : SameFrom data need m' m)
    (hm : Guarded good data need m read left) (hf : ∀ x, SameFrom data left (f' x) (f x)) :
    SameFrom data need (m' >>= f') (m >>= f) := h.bindOn hm (yields_any m) fun x _ => hf x

theorem SameFrom.map {need : ℕ} {m' m : Scan τ ε α} (h : SameFrom data need m' m) (f : α → β) :
    SameFrom data need (f <$> m') (f <$> m) := by
  intro pos hpos
  rw [map_apply, map_apply, h pos hpos]

theorem SameFrom.readIf {m' m : Scan τ ε α} (present : Bool) (h : SameFrom data 0 m' m) :
    SameFrom data 0 (readIf present m') (readIf present m) := by
  cases present with
  | false => exact sameFrom_refl _ 0
  | true => exact h.map some

/-- Induction on the fuel: at each turn a token is left. -/
theorem SameFrom.whileBefore (stuck : ε) {item' item : Scan τ ε α} {limit : ℕ} (h : SameFrom data 1 item' item)
    (hitem : Guarded good data 1 item 1 0) (hlimit : limit ≤ data.length) (fuel : ℕ) :
    SameFrom data 0 (whileBefore stuck item' limit fuel) (whileBefore stuck item limit fuel) := by
  induction fuel with
  | zero => exact sameFrom_refl _ 0
  | succ fuel ih =>
    intro pos _
    by_cases hlt : pos < limit
    · simp only [Scanning.whileBefore, hlt, if_true]
      exact h.bind hitem (fun x => ih.map (x :: ·)) pos (by omega)
    · simp only [Scanning.whileBefore, hlt, if_false]

theorem SameFrom.whileData (stuck : ε) {item' item : Scan τ ε α} (h : SameFrom data 1 item' item)
    (hitem : Guarded good data 1 item 1 0) : SameFrom data 0 (whileData stuck item') (whileData stuck item) :=
  SameFrom.whileBefore stuck h hitem (Nat.le_refl _) data.length

/-- The addition is right up to a bound. -/
def AddsTo (sum : ℕ → ℕ → Except ε ℕ) (bound : ℕ) : Prop := ∀ a b, a + b ≤ bound → sum a b = .ok (a + b)

section
variable {sum : ℕ → ℕ → Except ε ℕ} {bound : ℕ} (hsum : AddsTo sum bound)
include hsum

theorem same_ensure {n : ℕ} (hroom : data.length + n ≤ bound) (e : ε) :
    SameFrom data 0 (ensureBy sum n e) (ensure n e) := by
  intro pos hpos
  rw [ensureBy, hsum pos n (by omega)]
  rfl

theorem same_within {n limit : ℕ} (hroom : data.length + n ≤ bound) (e : ε) :
    SameFrom data 0 (withinBy sum limit n e) (within limit n e) := by
  intro pos hpos
  rw [withinBy, hsum pos n (by omega)]
  rfl

theorem same_next (hroom : data.length ≤ bound) (oob : ε) : SameFrom data 1 (nextBy sum oob) (next oob) := by
  intro pos hpos
  have hlt : pos < data.length := by omega
  rw [nextBy, next, hsum pos 1 (by omega), List.getElem?_eq_getElem hlt]
  rfl

theorem same_takeN {n : ℕ} (hroom : data.length ≤ bound) (oob : ε) : SameFrom data n (takeNBy sum oob n) (takeN oob n) := by
  intro pos hpos
  rw [takeNBy, hsum pos n (by omega)]
  rfl

theorem same_onRest (hroom : data.length ≤ bound) (oob : ε) {f' f : List τ → Except ε (α × ℕ)}
    (hsame : ∀ pos, f' (data.drop pos) = f (data.drop pos))
    (hok : ∀ {rest x n}, f rest = .ok (x, n) → n ≤ rest.length) : SameFrom data 0 (onRestBy sum oob f') (onRest oob f) := by
  intro pos hpos
  have hle : pos ≤ data.length := hpos
  rw [onRestBy, onRest, if_pos hle, if_pos hle, hsame]
  cases hf : f (data.drop pos) with
  | error e => rfl
  | ok result =>
    obtain ⟨x, n⟩ := result
    have hn := hok hf
    rw [List.length_drop] at hn
    change (sum pos n >>= fun q => pure (x, q)) = _
    rw [hsum pos n (by omega)]
    rfl

end
end
end Scanning
