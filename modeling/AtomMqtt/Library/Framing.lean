import Mathlib.Data.List.Basic

set_option autoImplicit false

/-! A stream of items that arrives in chunks. A decoder looks at the head of a buffer and gives an item with its
length, asks for more, or fails. A reader takes items out as long as there are any and then appends the next
chunk. Whether it comes to the items of the stream depends on what each chunk leaves of the item that it does
not complete. -/
namespace Framing

abbrev Decoder (α β ε : Type) := List α → Except ε (Option (β × ℕ))

section
variable {α β ε : Type}

/-- From a buffer, over these chunks, a reader decodes these items and is left with a buffer. -/
inductive Reads (decode : Decoder α β ε) : List α → List (List α) → List β → List α → Prop
  | done (buf : List α) : Reads decode buf [] [] buf
  | item {buf left : List α} {chunks : List (List α)} {x : β} {n : ℕ} {xs : List β}
      (hdecode : decode buf = .ok (some (x, n))) (rest : Reads decode (buf.drop n) chunks xs left) :
      Reads decode buf chunks (x :: xs) left
  | chunk {buf left chunk : List α} {chunks : List (List α)} {xs : List β}
      (hdecode : decode buf = .ok none) (rest : Reads decode (buf ++ chunk) chunks xs left) :
      Reads decode buf (chunk :: chunks) xs left

/-- The decoder cuts the item off the head of a buffer, and makes no item of a part of it. -/
structure Delimited (encode : β → List α) (decode : Decoder α β ε) (x : β) : Prop where
  whole : ∀ r, decode (encode x ++ r) = .ok (some (x, (encode x).length))
  part : ∀ {received missing}, encode x = received ++ missing → missing ≠ [] → ∀ y n, decode received ≠ .ok (some (y, n))

/-- The items that the bytes received so far do not complete, and what there is of the first of them. -/
def unfinished (encode : β → List α) : List β → List α → List β × List α
  | [], received => ([], received)
  | x :: xs, received =>
    if (encode x).length ≤ received.length then unfinished encode xs (received.drop (encode x).length)
    else (x :: xs, received)

variable {encode : β → List α} {decode : Decoder α β ε}

theorem Reads.unique {buf left left' : List α} {chunks : List (List α)} {xs xs' : List β}
    (h : Reads decode buf chunks xs left) (h' : Reads decode buf chunks xs' left') (hleft : decode left = .ok none)
    (hleft' : decode left' = .ok none) : xs = xs' ∧ left = left' := by
  induction h generalizing xs' with
  | done buf =>
    cases h' with
    | done _ => exact ⟨rfl, rfl⟩
    | item hdecode rest =>
      rw [hleft] at hdecode
      cases hdecode
  | item hdecode rest ih =>
    cases h' with
    | done _ =>
      rw [hleft'] at hdecode
      cases hdecode
    | item hdecode' rest' =>
      rw [hdecode] at hdecode'
      cases hdecode'
      obtain ⟨rfl, rfl⟩ := ih rest' hleft
      exact ⟨rfl, rfl⟩
    | chunk hdecode' rest' =>
      rw [hdecode] at hdecode'
      cases hdecode'
  | chunk hdecode rest ih =>
    cases h' with
    | item hdecode' rest' =>
      rw [hdecode] at hdecode'
      cases hdecode'
    | chunk hdecode' rest' => exact ih rest' hleft

theorem unfinished_append (xs : List β) (received more : List α) : unfinished encode xs (received ++ more) =
    unfinished encode (unfinished encode xs received).1 ((unfinished encode xs received).2 ++ more) := by
  induction xs generalizing received with
  | nil => rfl
  | cons x xs ih =>
    by_cases hfit : (encode x).length ≤ received.length
    · have hmore : (encode x).length ≤ (received ++ more).length := by
        rw [List.length_append]
        omega
      rw [unfinished, if_pos hmore, unfinished, if_pos hfit, List.drop_append_of_le_length hfit]
      exact ih _
    · simp only [unfinished, hfit, if_false]

/-- The head of a stream is a part of its first item, or has the whole of it. -/
theorem head_cases {x : β} {xs : List β} {received more : List α}
    (h : received ++ more = (x :: xs).flatMap encode) :
    ((encode x).length ≤ received.length ∧ ∃ received', received = encode x ++ received' ∧
      received' ++ more = xs.flatMap encode) ∨
    (received.length < (encode x).length ∧ ∃ missing, encode x = received ++ missing ∧ missing ≠ []) := by
  rw [List.flatMap_cons] at h
  rcases List.append_eq_append_iff.mp h with ⟨missing, hx, hmore⟩ | ⟨received', hreceived, hrest⟩
  · cases missing with
    | nil =>
      rw [List.append_nil] at hx
      exact .inl ⟨hx ▸ Nat.le_refl _, [], by rw [hx, List.append_nil], hmore⟩
    | cons a missing =>
      refine .inr ⟨?_, a :: missing, hx, by simp⟩
      rw [hx, List.length_append, List.length_cons]
      omega
  · refine .inl ⟨?_, received', hreceived, hrest.symm⟩
    rw [hreceived, List.length_append]
    omega

theorem reads_unfinished {xs : List β} (hxs : ∀ x ∈ xs, Delimited encode decode x) {buf more chunk : List α}
    {chunks : List (List α)} {left : List α} (hstream : buf ++ more = xs.flatMap encode) :
    Reads decode buf (chunk :: chunks) xs left ↔ decode (unfinished encode xs buf).2 = .ok none ∧
      Reads decode ((unfinished encode xs buf).2 ++ chunk) chunks (unfinished encode xs buf).1 left := by
  induction xs generalizing buf with
  | nil =>
    constructor
    · intro h
      cases h with
      | chunk hdecode rest => exact ⟨hdecode, rest⟩
    · intro h
      exact .chunk h.1 h.2
  | cons x xs ih =>
    have hx := hxs x List.mem_cons_self
    rcases head_cases hstream with ⟨hfit, received', rfl, hrest⟩ | ⟨hlt, missing, hmissing, hne⟩
    · rw [unfinished, if_pos hfit, List.drop_left, ← ih (fun y hy => hxs y (List.mem_cons_of_mem x hy)) hrest]
      have hwhole := hx.whole received'
      constructor
      · intro h
        cases h with
        | item hdecode rest =>
          rw [hwhole] at hdecode
          cases hdecode
          rw [List.drop_left] at rest
          exact rest
        | chunk hdecode rest =>
          rw [hwhole] at hdecode
          cases hdecode
      · intro h
        apply Reads.item hwhole
        rw [List.drop_left]
        exact h
    · rw [unfinished, if_neg (by omega)]
      constructor
      · intro h
        cases h with
        | item hdecode rest => exact absurd hdecode (hx.part hmissing hne _ _)
        | chunk hdecode rest => exact ⟨hdecode, rest⟩
      · intro h
        exact .chunk h.1 h.2

theorem reads_whole {xs : List β} (hxs : ∀ x ∈ xs, Delimited encode decode x) :
    Reads decode (xs.flatMap encode) [] xs [] := by
  induction xs with
  | nil => exact .done []
  | cons x xs ih =>
    rw [List.flatMap_cons]
    apply Reads.item ((hxs x List.mem_cons_self).whole _)
    rw [List.drop_left]
    exact ih fun y hy => hxs y (List.mem_cons_of_mem x hy)

theorem unfinished_subset (xs : List β) (received : List α) : ∀ x ∈ (unfinished encode xs received).1, x ∈ xs := by
  induction xs generalizing received with
  | nil => exact fun x hx => hx
  | cons y ys ih =>
    intro x hx
    rw [unfinished] at hx
    split at hx
    · exact List.mem_cons_of_mem y (ih _ x hx)
    · exact hx

theorem unfinished_part (xs : List β) (received : List α) : ∀ x rest, (unfinished encode xs received).1 = x :: rest →
      (unfinished encode xs received).2.length < (encode x).length := by
  induction xs generalizing received with
  | nil =>
    intro x rest h
    cases h
  | cons y ys ih =>
    intro x rest h
    rw [unfinished] at h ⊢
    split_ifs at h ⊢ with hfit
    · exact ih _ x rest h
    · cases h
      exact Nat.lt_of_not_le hfit

theorem unfinished_stream {xs : List β} {received more : List α} (h : received ++ more = xs.flatMap encode) :
    (unfinished encode xs received).2 ++ more = (unfinished encode xs received).1.flatMap encode := by
  induction xs generalizing received with
  | nil => exact h
  | cons x xs ih =>
    rcases head_cases h with ⟨hfit, received', rfl, hrest⟩ | ⟨hlt, _⟩
    · rw [unfinished, if_pos hfit, List.drop_left]
      exact ih hrest
    · rw [unfinished, if_neg (by omega)]
      exact h

/-- A stream read in chunks gives its items exactly if the decoder asks for more wherever a chunk ends.
    Induction on the chunks. -/
theorem reads_iff {xs : List β} (hxs : ∀ x ∈ xs, Delimited encode decode x) {buf : List α} {chunks : List (List α)}
    (hstream : buf ++ chunks.flatten = xs.flatMap encode) :
    Reads decode buf chunks xs [] ↔
      ∀ i < chunks.length, decode (unfinished encode xs (buf ++ (chunks.take i).flatten)).2 = .ok none := by
  induction chunks generalizing buf xs with
  | nil =>
    rw [List.flatten_nil, List.append_nil] at hstream
    rw [hstream]
    simp only [reads_whole hxs, List.length_nil, Nat.not_lt_zero, false_imp_iff, implies_true]
  | cons chunk chunks ih =>
    have hrest := unfinished_stream hstream
    rw [List.flatten_cons, ← List.append_assoc] at hrest
    rw [reads_unfinished hxs hstream, ih (fun x hx => hxs x (unfinished_subset _ _ x hx)) hrest]
    have hlater : ∀ i, unfinished encode (unfinished encode xs buf).1
        ((unfinished encode xs buf).2 ++ chunk ++ (chunks.take i).flatten) =
        unfinished encode xs (buf ++ ((chunk :: chunks).take (i + 1)).flatten) := by
      intro i
      rw [List.take_succ_cons, List.flatten_cons, unfinished_append xs buf, List.append_assoc]
    simp only [hlater]
    constructor
    · intro h i hi
      cases i with
      | zero =>
        rw [List.take_zero, List.flatten_nil, List.append_nil]
        exact h.1
      | succ i => exact h.2 i (Nat.lt_of_succ_lt_succ hi)
    · intro h
      refine ⟨?_, fun i hi => h (i + 1) (Nat.succ_lt_succ hi)⟩
      have hfirst := h 0 (Nat.succ_pos _)
      rw [List.take_zero, List.flatten_nil, List.append_nil] at hfirst
      exact hfirst

/-- The items that a decoder takes off the head of a buffer, as many as the fuel lets it. -/
def itemsWithin (decode : Decoder α β ε) : ℕ → List α → List β
  | 0, _ => []
  | fuel + 1, buf =>
    match decode buf with
    | .ok (some (x, n)) => x :: itemsWithin decode fuel (buf.drop n)
    | _ => []

/-- Every item takes something off the buffer. -/
def items (decode : Decoder α β ε) (buf : List α) : List β := itemsWithin decode (buf.length + 1) buf

/-- An item is a part of the buffer that is not empty, and what follows it is not looked at. -/
structure Cuts (decode : Decoder α β ε) : Prop where
  size : ∀ {buf x n}, decode buf = .ok (some (x, n)) → 0 < n ∧ n ≤ buf.length
  append : ∀ {buf x n}, decode buf = .ok (some (x, n)) → ∀ more, decode (buf ++ more) = .ok (some (x, n))

namespace Cuts

theorem itemsWithin_eq (h : Cuts decode) (fuel : ℕ) : ∀ (fuel' : ℕ) (buf : List α), buf.length < fuel →
    buf.length < fuel' → itemsWithin decode fuel buf = itemsWithin decode fuel' buf := by
  induction fuel with
  | zero =>
    intro fuel' buf hfuel
    omega
  | succ fuel ih =>
    intro fuel' buf hfuel hfuel'
    cases fuel' with
    | zero => omega
    | succ fuel' =>
      match hdecode : decode buf with
      | .ok (some (x, n)) =>
        have hsize := h.size hdecode
        have hdrop : (buf.drop n).length = buf.length - n := List.length_drop
        simp only [itemsWithin, hdecode]
        rw [ih fuel' (buf.drop n) (by omega) (by omega)]
      | .ok none => simp only [itemsWithin, hdecode]
      | .error _ => simp only [itemsWithin, hdecode]

theorem items_cons (h : Cuts decode) {buf : List α} {x : β} {n : ℕ} (hdecode : decode buf = .ok (some (x, n))) :
    items decode buf = x :: items decode (buf.drop n) := by
  have hsize := h.size hdecode
  have hdrop : (buf.drop n).length = buf.length - n := List.length_drop
  simp only [items, itemsWithin, hdecode]
  rw [h.itemsWithin_eq buf.length ((buf.drop n).length + 1) (buf.drop n) (by omega) (by omega)]
  rfl

theorem items_cons_append (h : Cuts decode) {buf : List α} {x : β} {n : ℕ} (hdecode : decode buf = .ok (some (x, n)))
    (more : List α) : items decode (buf ++ more) = x :: items decode (buf.drop n ++ more) := by
  rw [h.items_cons (h.append hdecode more), List.drop_append_of_le_length (h.size hdecode).2]

theorem items_within (h : Cuts decode) (more : List α) (fuel : ℕ) : ∀ {buf : List α}, buf.length < fuel →
    items decode buf <+: items decode (buf ++ more) := by
  induction fuel with
  | zero =>
    intro buf hfuel
    omega
  | succ fuel ih =>
    intro buf hfuel
    match hdecode : decode buf with
    | .ok (some (x, n)) =>
      have hsize := h.size hdecode
      have hdrop : (buf.drop n).length = buf.length - n := List.length_drop
      rw [h.items_cons hdecode, h.items_cons_append hdecode]
      exact List.prefix_cons_inj x |>.mpr (ih (by omega))
    | .ok none =>
      simp only [items, itemsWithin, hdecode]
      exact List.nil_prefix
    | .error _ =>
      simp only [items, itemsWithin, hdecode]
      exact List.nil_prefix

theorem items_of_reads (h : Cuts decode) {buf left : List α} {chunks : List (List α)} {xs : List β}
    (hreads : Reads decode buf chunks xs left) : items decode (buf ++ chunks.flatten) = xs ++ items decode left := by
  induction hreads with
  | done buf => simp
  | item hdecode rest ih => rw [h.items_cons_append hdecode, ih, List.cons_append]
  | chunk hdecode rest ih => rw [List.flatten_cons, ← List.append_assoc, ih]

end Cuts

theorem Reads.append {buf mid left : List α} {chunks chunks' : List (List α)} {xs xs' : List β}
    (h : Reads decode buf chunks xs mid) (h' : Reads decode mid chunks' xs' left) :
    Reads decode buf (chunks ++ chunks') (xs ++ xs') left := by
  induction h with
  | done buf => exact h'
  | item hdecode rest ih => exact .item hdecode (ih h')
  | chunk hdecode rest ih => exact .chunk hdecode (ih h')

theorem items_of_none {buf : List α} (h : decode buf = .ok none) : items decode buf = [] := by
  simp only [items, itemsWithin, h]

theorem decoded_of_mem {fuel : ℕ} {x : β} : ∀ {buf : List α}, x ∈ itemsWithin decode fuel buf →
    ∃ buf' n, decode buf' = .ok (some (x, n)) := by
  induction fuel with
  | zero =>
    intro buf hx
    cases hx
  | succ fuel ih =>
    intro buf hx
    match hdecode : decode buf with
    | .ok (some (y, n)) =>
      simp only [itemsWithin, hdecode, List.mem_cons] at hx
      rcases hx with rfl | hx
      · exact ⟨buf, n, hdecode⟩
      · exact ih hx
    | .ok none =>
      simp only [itemsWithin, hdecode, List.not_mem_nil] at hx
    | .error _ =>
      simp only [itemsWithin, hdecode, List.not_mem_nil] at hx

theorem decode_of_head {buf : List α} {x : β} (h : (items decode buf).head? = some x) :
    ∃ n, decode buf = .ok (some (x, n)) := by
  match hdecode : decode buf with
  | .ok (some (y, n)) =>
    simp only [items, itemsWithin, hdecode, List.head?_cons, Option.some.injEq] at h
    exact ⟨n, h ▸ rfl⟩
  | .ok none =>
    rw [items_of_none hdecode] at h
    cases h
  | .error _ =>
    simp only [items, itemsWithin, hdecode] at h
    cases h

/-- If the decoder finds an item at the head of a stream that begins with this one, then it is this one. -/
def Foremost (encode : β → List α) (decode : Decoder α β ε) (x : β) : Prop :=
  ∀ {r y n}, decode (encode x ++ r) = .ok (some (y, n)) → y = x ∧ n = (encode x).length

namespace Cuts

theorem decode_nil (h : Cuts decode) (x : β) (n : ℕ) : decode [] ≠ .ok (some (x, n)) := by
  intro hdecode
  have hsize := h.size hdecode
  rw [List.length_nil] at hsize
  omega

theorem items_nil (h : Cuts decode) : items decode [] = [] := by
  match hdecode : decode [] with
  | .ok (some (x, n)) => exact (h.decode_nil x n hdecode).elim
  | .ok none => exact items_of_none hdecode
  | .error _ => simp only [items, itemsWithin, hdecode]

theorem head_of_stream (h : Cuts decode) {x y : β} {n : ℕ} {buf r : List α} (hx : Foremost encode decode x)
    (hbuf : buf <+: encode x ++ r) (hdecode : decode buf = .ok (some (y, n))) :
    y = x ∧ n = (encode x).length ∧ buf = encode x ++ buf.drop n := by
  obtain ⟨more, hmore⟩ := hbuf
  have hall := h.append hdecode more
  rw [hmore] at hall
  obtain ⟨rfl, rfl⟩ := hx hall
  have hwithin : encode y <+: buf :=
    List.prefix_of_prefix_length_le (List.prefix_append _ r) ⟨more, hmore⟩ (h.size hdecode).2
  obtain ⟨rest, rfl⟩ := hwithin
  exact ⟨rfl, rfl, by rw [List.drop_left]⟩

theorem items_of_stream (h : Cuts decode) {xs : List β} (hxs : ∀ x ∈ xs, Foremost encode decode x) :
    ∀ {buf : List α}, buf <+: xs.flatMap encode → items decode buf <+: xs := by
  induction xs with
  | nil =>
    intro buf hbuf
    obtain rfl : buf = [] := List.prefix_nil.mp hbuf
    exact h.items_nil ▸ List.prefix_rfl
  | cons x xs ih =>
    intro buf hbuf
    rw [List.flatMap_cons] at hbuf
    match hdecode : decode buf with
    | .ok (some (y, n)) =>
      obtain ⟨rfl, rfl, hsplit⟩ := h.head_of_stream (hxs x List.mem_cons_self) hbuf hdecode
      rw [hsplit, List.prefix_append_right_inj] at hbuf
      rw [h.items_cons hdecode, List.prefix_cons_inj]
      exact ih (fun z hz => hxs z (List.mem_cons_of_mem _ hz)) hbuf
    | .ok none =>
      rw [items_of_none hdecode]
      exact List.nil_prefix
    | .error _ =>
      simp only [items, itemsWithin, hdecode]
      exact List.nil_prefix

theorem items_of_whole (h : Cuts decode) {xs : List β} (hxs : ∀ x ∈ xs, Delimited encode decode x) :
    items decode (xs.flatMap encode) = xs := by
  have hitems := h.items_of_reads (reads_whole hxs)
  rwa [List.flatten_nil, List.append_nil, h.items_nil, List.append_nil] at hitems

end Cuts

/-- Over these chunks, a reader that pulls until there is no more item is given these items and is left with a buffer. -/
inductive Pulls (pull : List α → Except ε (Option β) × List α) : List α → List (List α) → List β → List α → Prop
  | done {buf left : List α} (hpull : pull buf = (.ok none, left)) : Pulls pull buf [] [] left
  | item {buf rest left : List α} {chunks : List (List α)} {x : β} {xs : List β}
      (hpull : pull buf = (.ok (some x), rest)) (hrest : Pulls pull rest chunks xs left) :
      Pulls pull buf chunks (x :: xs) left
  | chunk {buf rest left chunk : List α} {chunks : List (List α)} {xs : List β}
      (hpull : pull buf = (.ok none, rest)) (hrest : Pulls pull (rest ++ chunk) chunks xs left) :
      Pulls pull buf (chunk :: chunks) xs left

variable {pull : List α → Except ε (Option β) × List α}

theorem Pulls.unique {buf left left' : List α} {chunks : List (List α)} {xs xs' : List β}
    (h : Pulls pull buf chunks xs left) (h' : Pulls pull buf chunks xs' left') : xs = xs' ∧ left = left' := by
  induction h generalizing xs' with
  | done hpull =>
    cases h' with
    | done hpull' => exact ⟨rfl, congrArg Prod.snd (hpull.symm.trans hpull')⟩
    | item hpull' _ => cases hpull.symm.trans hpull'
  | item hpull _ ih =>
    cases h' with
    | done hpull' => cases hpull.symm.trans hpull'
    | item hpull' hrest' =>
      cases hpull.symm.trans hpull'
      obtain ⟨rfl, rfl⟩ := ih hrest'
      exact ⟨rfl, rfl⟩
    | chunk hpull' _ => cases hpull.symm.trans hpull'
  | chunk hpull _ ih =>
    cases h' with
    | item hpull' _ => cases hpull.symm.trans hpull'
    | chunk hpull' hrest' =>
      cases hpull.symm.trans hpull'
      exact ih hrest'

/-- The decoder cuts the item off the head of its buffer, and leaves a part of it where it is. -/
structure Pulled (encode : β → List α) (pull : List α → Except ε (Option β) × List α) (x : β) : Prop where
  whole : ∀ r, pull (encode x ++ r) = (.ok (some x), r)
  part : ∀ {received missing}, encode x = received ++ missing → missing ≠ [] → pull received = (.ok none, received)

/-- A stream is pulled out whatever its chunks are. Induction on the chunks, for each on the items. -/
theorem pulls_stream (hempty : pull [] = (.ok none, [])) (chunks : List (List α)) : ∀ (xs : List β) {buf : List α},
    (∀ x ∈ xs, Pulled encode pull x) → buf ++ chunks.flatten = xs.flatMap encode → Pulls pull buf chunks xs [] := by
  induction chunks with
  | nil =>
    intro xs
    induction xs with
    | nil =>
      intro buf _ hstream
      obtain rfl : buf = [] := (List.append_eq_nil_iff.mp hstream).1
      exact .done hempty
    | cons x xs ih =>
      intro buf hxs hstream
      rw [List.flatten_nil, List.append_nil, List.flatMap_cons] at hstream
      refine .item (hstream ▸ (hxs x List.mem_cons_self).whole _) ?_
      exact ih (fun y hy => hxs y (List.mem_cons_of_mem x hy)) (List.append_nil _)
  | cons chunk chunks ihc =>
    intro xs
    induction xs with
    | nil =>
      intro buf _ hstream
      obtain rfl : buf = [] := (List.append_eq_nil_iff.mp hstream).1
      exact .chunk hempty (ihc [] (fun x hx => absurd hx List.not_mem_nil) hstream)
    | cons x xs ih =>
      intro buf hxs hstream
      have hx := hxs x List.mem_cons_self
      rcases head_cases hstream with ⟨_, received', rfl, hrest⟩ | ⟨_, missing, hmissing, hne⟩
      · exact .item (hx.whole received') (ih (fun y hy => hxs y (List.mem_cons_of_mem x hy)) hrest)
      · rw [List.flatten_cons, ← List.append_assoc] at hstream
        exact .chunk (hx.part hmissing hne) (ihc (x :: xs) hxs hstream)

end
end Framing
