import AtomMqtt.Library.Scan

set_option autoImplicit false

/-! Scanners that stay inside their tokens. `Guarded good data need m read left`: from a position with `need`
tokens after it, `m` reads at least `read` and leaves at least `left` of them, or stops with a fault that is
`good`. Guards compose along `bind`, so the bound of a format is assembled from those of its fields, like its
round trip. -/
namespace Scanning

section
variable {τ ε α β : Type} {good : ε → Prop} {data : List τ}

def Guarded (good : ε → Prop) (data : List τ) (need : ℕ) (m : Scan τ ε α) (read left : ℕ) : Prop :=
  ∀ pos, pos + need ≤ data.length →
    match m data pos with
    | .ok (_, q) => pos + read ≤ q ∧ q + left ≤ data.length
    | .error e => good e

theorem Guarded.ok {need read left : ℕ} {m : Scan τ ε α} (h : Guarded good data need m read left) {pos q : ℕ} {x : α}
    (hneed : pos + need ≤ data.length) (hm : m data pos = .ok (x, q)) : pos + read ≤ q ∧ q + left ≤ data.length := by
  have hat := h pos hneed
  rw [hm] at hat
  exact hat

theorem Guarded.fault {need read left : ℕ} {m : Scan τ ε α} (h : Guarded good data need m read left) {pos : ℕ} {e : ε}
    (hneed : pos + need ≤ data.length) (hm : m data pos = .error e) : good e := by
  have hat := h pos hneed
  rw [hm] at hat
  exact hat

theorem Guarded.mono {need need' read read' left left' : ℕ} {m : Scan τ ε α}
    (h : Guarded good data need m read left) (hneed : need ≤ need') (hread : read' ≤ read) (hleft : left' ≤ left) :
    Guarded good data need' m read' left' := by
  intro pos hpos
  have hat := h pos (by omega)
  cases hm : m data pos with
  | error e => exact h.fault (by omega) hm
  | ok result =>
    obtain ⟨x, q⟩ := result
    have := h.ok (by omega) hm
    exact ⟨by omega, by omega⟩

theorem Guarded.bindRead {need read left left' : ℕ} {m : Scan τ ε α} {f : α → Scan τ ε β}
    (h : Guarded good data need m read left) (hf : ∀ x, Guarded good data left (f x) 0 left') :
    Guarded good data need (m >>= f) read left' := by
  intro pos hneed
  rw [bind_apply]
  cases hm : m data pos with
  | error e => exact h.fault hneed hm
  | ok result =>
    obtain ⟨x, q⟩ := result
    obtain ⟨hread, hleft⟩ := h.ok hneed hm
    change match f x data q with
      | .ok (_, q) => pos + read ≤ q ∧ q + left' ≤ data.length
      | .error e => good e
    cases hfx : f x data q with
    | error e => exact (hf x).fault hleft hfx
    | ok result =>
      obtain ⟨y, q'⟩ := result
      obtain ⟨hread', hleft'⟩ := (hf x).ok hleft hfx
      exact ⟨by omega, hleft'⟩

theorem Guarded.bind {need read left left' : ℕ} {m : Scan τ ε α} {f : α → Scan τ ε β}
    (h : Guarded good data need m read left) (hf : ∀ x, Guarded good data left (f x) 0 left') :
    Guarded good data need (m >>= f) 0 left' := (h.bindRead hf).mono (Nat.le_refl _) (Nat.zero_le _) (Nat.le_refl _)

theorem guarded_pure (x : α) (n : ℕ) : Guarded good data n (pure x) 0 n := fun _ h => ⟨Nat.le_refl _, h⟩

theorem Guarded.map {need read left : ℕ} {m : Scan τ ε α} (h : Guarded good data need m read left) (f : α → β) :
    Guarded good data need (f <$> m) read left := by
  intro pos hneed
  rw [map_apply]
  cases hm : m data pos with
  | error e => exact h.fault hneed hm
  | ok result => exact h.ok hneed hm

theorem guarded_error {e : ε} (he : good e) (need read left : ℕ) :
    Guarded good data need (fun _ _ => .error e : Scan τ ε α) read left := fun _ _ => he

theorem guarded_reject (c : Bool) {e : ε} (he : good e) (n : ℕ) : Guarded good data n (reject c e) 0 n := by
  intro pos hneed
  cases c with
  | false => exact ⟨Nat.le_refl _, hneed⟩
  | true => exact he

theorem guarded_ensure (n : ℕ) {e : ε} (he : good e) : Guarded good data 0 (ensure n e) 0 n := by
  intro pos _
  unfold ensure
  by_cases h : pos + n > data.length
  · simp only [h, if_true]
    exact he
  · simp only [h, if_false]
    exact ⟨Nat.le_refl _, by omega⟩

theorem guarded_within {limit : ℕ} (hlimit : limit ≤ data.length) (n : ℕ) {e : ε} (he : good e) :
    Guarded good data 0 (within limit n e) 0 n := by
  intro pos _
  unfold within
  by_cases h : pos + n > limit
  · simp only [h, if_true]
    exact he
  · simp only [h, if_false]
    exact ⟨Nat.le_refl _, by omega⟩

theorem guarded_next (oob : ε) (n : ℕ) : Guarded good data (n + 1) (next oob) 1 n := by
  intro pos hneed
  have hlt : pos < data.length := by omega
  simp only [next, List.getElem?_eq_getElem hlt]
  exact ⟨Nat.le_refl _, by omega⟩

theorem guarded_takeN (oob : ε) (n : ℕ) : Guarded good data n (takeN oob n) n 0 := by
  intro pos hneed
  simp only [takeN, hneed, if_true]
  exact ⟨Nat.le_refl _, hneed⟩

theorem guarded_takeRest (oob : ε) : Guarded good data 0 (takeRest oob) 0 0 := by
  intro pos hneed
  have hpos : pos ≤ data.length := hneed
  simp only [takeRest, hpos, if_true]
  exact ⟨hpos, Nat.le_refl _⟩

theorem guarded_onRest (oob : ε) {f : List τ → Except ε (α × ℕ)} {read : ℕ}
    (hok : ∀ rest x n, f rest = .ok (x, n) → read ≤ n ∧ n ≤ rest.length) (herr : ∀ rest e, f rest = .error e → good e) :
    Guarded good data 0 (onRest oob f) read 0 := by
  intro pos hneed
  have hpos : pos ≤ data.length := hneed
  simp only [onRest, hpos, if_true]
  cases hf : f (data.drop pos) with
  | error e => exact herr _ e hf
  | ok result =>
    obtain ⟨x, n⟩ := result
    obtain ⟨hread, hn⟩ := hok _ x n hf
    rw [List.length_drop] at hn
    exact ⟨by omega, by omega⟩

theorem guarded_readIf {m : Scan τ ε α} {read : ℕ} (present : Bool) (h : Guarded good data 0 m read 0) :
    Guarded good data 0 (readIf present m) 0 0 := by
  cases present with
  | false => exact guarded_pure none 0
  | true => exact (h.map some).mono (Nat.le_refl _) (Nat.zero_le _) (Nat.le_refl _)

/-- The loop has fuel enough, as each item has a token at least. Induction on the fuel. -/
theorem guarded_whileBefore (stuck : ε) {item : Scan τ ε α} {limit : ℕ} (hitem : Guarded good data 1 item 1 0)
    (hlimit : limit ≤ data.length) (fuel : ℕ) : ∀ pos, pos ≤ data.length → limit ≤ pos + fuel →
      match whileBefore stuck item limit fuel data pos with
      | .ok (_, q) => pos ≤ q ∧ q ≤ data.length
      | .error e => good e := by
  induction fuel with
  | zero =>
    intro pos hpos hfuel
    have hend : ¬ pos < limit := by omega
    simp only [whileBefore, hend, if_false]
    exact ⟨Nat.le_refl _, hpos⟩
  | succ fuel ih =>
    intro pos hpos hfuel
    by_cases hlt : pos < limit
    · simp only [whileBefore, hlt, if_true, bind_apply]
      cases hm : item data pos with
      | error e => exact hitem.fault (by omega) hm
      | ok result =>
        obtain ⟨x, q⟩ := result
        obtain ⟨hread, hq⟩ := hitem.ok (by omega) hm
        have hrest := ih q hq (by omega)
        simp only [map_apply]
        cases hw : whileBefore stuck item limit fuel data q with
        | error e =>
          rw [hw] at hrest
          exact hrest
        | ok result =>
          obtain ⟨xs, q'⟩ := result
          rw [hw] at hrest
          exact ⟨by omega, hrest.2⟩
    · simp only [whileBefore, hlt, if_false]
      exact ⟨Nat.le_refl _, hpos⟩

theorem guarded_whileData (stuck : ε) {item : Scan τ ε α} (hitem : Guarded good data 1 item 1 0) :
    Guarded good data 0 (whileData stuck item) 0 0 := by
  intro pos hneed
  have h := guarded_whileBefore stuck hitem (Nat.le_refl _) data.length pos hneed (Nat.le_add_left _ pos)
  unfold whileData
  cases hw : whileBefore stuck item data.length data.length data pos with
  | error e =>
    rw [hw] at h
    exact h
  | ok result =>
    rw [hw] at h
    exact h

end
end Scanning
