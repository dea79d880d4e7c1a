import AtomMqtt.Library.Scan

set_option autoImplicit false

/-! What a scanner returns. `Yields m P`: whatever the tokens and the position, what `m` returns has the
property. The image of a scanner is assembled from those of its fields, like its round trip and its bounds. -/
namespace Scanning

section
variable {τ ε α β : Type}

def Yields (m : Scan τ ε α) (P : α → Prop) : Prop := ∀ ⦃data pos x q⦄, m data pos = .ok (x, q) → P x

theorem Yields.mono {m : Scan τ ε α} {P P' : α → Prop} (h : Yields m P) (himp : ∀ x, P x → P' x) : Yields m P' :=
  fun _ _ x _ hm => himp x (h hm)

theorem yields_any (m : Scan τ ε α) : Yields m fun _ => True := fun _ _ _ _ _ => trivial

theorem yields_pure {x : α} {P : α → Prop} (hx : P x) : Yields (pure x : Scan τ ε α) P := by
  rintro data pos y q ⟨⟩
  exact hx

theorem Yields.bind {m : Scan τ ε α} {f : α → Scan τ ε β} {P : α → Prop} {Q : β → Prop} (h : Yields m P)
    (hf : ∀ x, P x → Yields (f x) Q) : Yields (m >>= f) Q := by
  intro data pos y q hmf
  rw [bind_apply] at hmf
  cases hm : m data pos with
  | error e =>
    rw [hm] at hmf
    cases hmf
  | ok result =>
    obtain ⟨x, q₁⟩ := result
    rw [hm] at hmf
    exact hf x (h hm) hmf

theorem Yields.after {m : Scan τ ε α} {f : α → Scan τ ε β} {Q : β → Prop} (hf : ∀ x, Yields (f x) Q) :
    Yields (m >>= f) Q := (yields_any m).bind fun x _ => hf x

theorem Yields.map {m : Scan τ ε α} {f : α → β} {P : α → Prop} {Q : β → Prop} (h : Yields m P) (hf : ∀ x, P x → Q (f x)) :
    Yields (f <$> m) Q := by
  intro data pos y q hmf
  rw [map_apply] at hmf
  cases hm : m data pos with
  | error e =>
    rw [hm] at hmf
    cases hmf
  | ok result =>
    obtain ⟨x, q₁⟩ := result
    rw [hm] at hmf
    cases hmf
    exact hf x (h hm)

theorem yields_takeN (oob : ε) (n : ℕ) : Yields (takeN oob n : Scan τ ε (List τ)) fun xs => xs.length = n := by
  intro data pos xs q hm
  unfold takeN at hm
  split_ifs at hm with hfit
  cases hm
  rw [List.length_take, List.length_drop]
  omega

theorem yields_onRest (oob : ε) {f : List τ → Except ε (α × ℕ)} {P : α → Prop}
    (hf : ∀ {data x n}, f data = .ok (x, n) → P x) : Yields (onRest oob f) P := by
  intro data pos x q hm
  unfold onRest at hm
  split_ifs at hm
  split at hm
  · rename_i y n hok
    cases hm
    exact hf hok
  · cases hm

theorem yields_readIf {m : Scan τ ε α} {P : α → Prop} (present : Bool) (h : Yields m P) :
    Yields (readIf present m) fun opt => opt.isSome = present ∧ ∀ x, opt = some x → P x := by
  cases present with
  | false => exact yields_pure ⟨rfl, nofun⟩
  | true =>
    refine h.map fun x hx => ⟨rfl, ?_⟩
    rintro y ⟨⟩
    exact hx

/-- Each item of a loop has been returned by one turn of it. Induction on the fuel. -/
theorem yields_whileBefore (stuck : ε) {item : Scan τ ε α} {P : α → Prop} (h : Yields item P) (limit fuel : ℕ) :
    Yields (whileBefore stuck item limit fuel) fun xs => ∀ x ∈ xs, P x := by
  induction fuel with
  | zero =>
    intro data pos xs q hm
    simp only [whileBefore] at hm
    split_ifs at hm
    cases hm
    exact List.forall_mem_nil P
  | succ fuel ih =>
    have hturn : Yields (item >>= fun x => (x :: ·) <$> whileBefore stuck item limit fuel) fun xs => ∀ x ∈ xs, P x :=
      h.bind fun x hx => ih.map fun xs hxs => List.forall_mem_cons.mpr ⟨hx, hxs⟩
    intro data pos xs q hm
    simp only [whileBefore] at hm
    split_ifs at hm
    · exact hturn hm
    · cases hm
      exact List.forall_mem_nil P

theorem yields_whileData (stuck : ε) {item : Scan τ ε α} {P : α → Prop} (h : Yields item P) :
    Yields (whileData stuck item) fun xs => ∀ x ∈ xs, P x :=
  fun data _ _ _ hm => yields_whileBefore stuck h data.length data.length hm

end
end Scanning
