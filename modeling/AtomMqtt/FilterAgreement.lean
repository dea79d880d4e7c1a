import AtomMqtt.SubscriptionRefinement

set_option autoImplicit false

/-! A subscription to live messages and one to retained messages. The tree walks the segments of a filter as it
is sent, the retained messages are matched with those of the trimmed filter, and what follows a `#` is part of
the one and not of the other. -/
namespace AtomMqtt

def Trimmed (seg seg' : List Char) : Prop := seg = seg' ∨ ∃ c ∈ seg, isWhitespace c = true

theorem trimmed_refl (segs : List (List Char)) : List.Forall₂ Trimmed segs segs :=
  List.forall₂_same.mpr fun _ _ => .inl rfl

theorem trimmed_trans {segs segs' segs'' : List (List Char)} (h : List.Forall₂ Trimmed segs segs')
    (h' : List.Forall₂ Trimmed segs' segs'') : List.Forall₂ Trimmed segs segs'' := by
  induction h generalizing segs'' with
  | nil => exact h'
  | cons hseg _ ih =>
    cases h' with
    | cons hseg' hrest' =>
      refine .cons ?_ (ih hrest')
      cases hseg with
      | inl heq => exact heq ▸ hseg'
      | inr hspace => exact .inr hspace

theorem whitespace_ne_slash {c : Char} (h : isWhitespace c = true) : c ≠ '/' := by
  intro heq
  subst heq
  cases h

theorem trimmed_modifyHead {c : Char} {segs segs' : List (List Char)} (h : List.Forall₂ Trimmed segs segs') :
    List.Forall₂ Trimmed (segs.modifyHead (c :: ·)) (segs'.modifyHead (c :: ·)) := by
  cases h with
  | nil => exact .nil
  | cons hseg hrest =>
    refine .cons ?_ hrest
    cases hseg with
    | inl heq => exact .inl (congrArg (c :: ·) heq)
    | inr hspace =>
      obtain ⟨d, hd, hspace⟩ := hspace
      exact .inr ⟨d, List.mem_cons_of_mem c hd, hspace⟩

theorem splitOn_whitespace (before after : List Char) {c : Char} (h : isWhitespace c = true) :
    List.Forall₂ Trimmed ((before ++ c :: after).splitOn '/') ((before ++ after).splitOn '/') := by
  induction before with
  | nil =>
    rw [List.nil_append, List.nil_append, List.splitOn_cons_eq_if_modifyHead, if_neg (by simp [whitespace_ne_slash h])]
    cases hsegs : after.splitOn '/' with
    | nil => exact .nil
    | cons seg segs => exact .cons (.inr ⟨c, List.mem_cons_self, h⟩) (trimmed_refl segs)
  | cons d before ih =>
    rw [List.cons_append, List.cons_append, List.splitOn_cons_eq_if_modifyHead, List.splitOn_cons_eq_if_modifyHead]
    split_ifs
    · exact .cons (.inl rfl) ih
    · exact trimmed_modifyHead ih

theorem splitOn_dropWhile (l : List Char) :
    List.Forall₂ Trimmed (l.splitOn '/') ((l.dropWhile isWhitespace).splitOn '/') := by
  induction l with
  | nil => exact trimmed_refl _
  | cons c l ih =>
    rw [List.dropWhile_cons]
    split_ifs with h
    · exact trimmed_trans (splitOn_whitespace [] l h) ih
    · exact trimmed_refl _

theorem splitOn_rdropWhile (l : List Char) :
    List.Forall₂ Trimmed (l.splitOn '/') ((l.rdropWhile isWhitespace).splitOn '/') := by
  induction l using List.reverseRecOn with
  | nil => exact trimmed_refl _
  | append_singleton l c ih =>
    rw [List.rdropWhile_concat]
    split_ifs with h
    · have hlast := splitOn_whitespace l [] h
      rw [List.append_nil] at hlast
      exact trimmed_trans hlast ih
    · exact trimmed_refl _

/-- The trimmed filter has the same segments, less white space in the first and the last. -/
theorem splitSlash_trim (filter : String) : List.Forall₂ (fun seg seg' : String => seg = seg' ∨ ∃ c ∈ seg.toList,
    isWhitespace c = true) (splitSlash filter) (splitSlash (trim filter)) := by
  have h := trimmed_trans (splitOn_dropWhile filter.toList) (splitOn_rdropWhile (filter.toList.dropWhile isWhitespace))
  rw [splitSlash, splitSlash, trim, String.toList_ofList, List.forall₂_map_left_iff, List.forall₂_map_right_iff]
  refine h.imp ?_
  intro seg seg' hseg
  rw [String.toList_ofList]
  exact hseg.imp (congrArg String.ofList) id

/-- A segment that no wildcard is: the wildcards of a filter, each replaced by `z`. -/
def literal (z seg : String) : String := if seg == "+" || seg == "#" then z else seg

theorem accepts_literal (z : String) (segs : List String) :
    (segmentPattern segs).accepts (segs.map (literal z)) = true := by
  induction segs with
  | nil => rfl
  | cons seg segs ih =>
    cases hash : seg == "#" with
    | true =>
      rw [beq_iff_eq.mp hash]
      exact accepts_hash segs _
    | false =>
      rw [List.map_cons, accepts_cons segs _ _ hash, ih, literal, hash]
      cases seg == "+" <;> simp

theorem accepts_before_hash (z : String) (before after rest : List String) :
    (segmentPattern (before ++ "#" :: after)).accepts (before.map (literal z) ++ rest) = true := by
  induction before with
  | nil => exact accepts_hash after rest
  | cons seg before ih =>
    cases hash : seg == "#" with
    | true =>
      rw [beq_iff_eq.mp hash]
      exact accepts_hash _ _
    | false =>
      rw [List.map_cons, List.cons_append, List.cons_append, accepts_cons _ _ _ hash, ih, literal, hash]
      cases seg == "+" <;> simp

theorem clean_of_wildcard {seg : String} (h : seg = "+" ∨ seg = "#") : ¬ ∃ c ∈ seg.toList, isWhitespace c = true := by
  have hclean : seg.toList.any isWhitespace = false := by rcases h with rfl | rfl <;> decide
  rintro ⟨c, hmem, hwhite⟩
  exact List.any_eq_false.mp hclean c hmem hwhite

/-- The path has no segment of its own but those of the trimmed filter, if a search for the filter itself comes to it. -/
theorem eq_of_mem_literal {z : String} {path segs : List String}
    (htrim : List.Forall₂ (fun seg seg' : String => seg = seg' ∨ ∃ c ∈ seg.toList, isWhitespace c = true) path segs) :
    z ∉ path → path ∈ matchPaths (segs.map (literal z)) → path = segs := by
  induction htrim with
  | nil => exact fun _ _ => rfl
  | @cons seg seg' rest rest' hseg hrest ih =>
    intro hz hmem
    have hplain : seg = "+" ∨ seg = "#" → seg = seg' := fun hwild => hseg.resolve_right (clean_of_wildcard hwild)
    rw [List.map_cons, mem_matchPaths_cons] at hmem
    rcases hmem with hhash | ⟨hhead, htail⟩
    · obtain ⟨hhead, hnil⟩ := List.cons.inj hhash
      rw [hplain (.inr hhead)]
      subst hnil
      cases hrest
      rfl
    · have htail := ih (fun h => hz (List.mem_cons_of_mem seg h)) htail
      suffices hsame : seg = seg' by rw [hsame, htail]
      cases hhead with
      | inl hlit =>
        rw [literal] at hlit
        split_ifs at hlit with hwild
        · exact absurd (hlit ▸ List.mem_cons_self) hz
        · exact hlit
      | inr hplus => exact hplain (.inl hplus)

theorem not_mem_after_hash {z : String} (hplus : z ≠ "#") (before : List String) {after : List String}
    (hafter : after ≠ []) : before ++ "#" :: after ∉ matchPaths (before.map (literal z) ++ [z]) := by
  induction before with
  | nil =>
    rw [List.nil_append, List.map_nil, List.nil_append, mem_matchPaths_cons]
    rintro (hhash | ⟨hhead, -⟩)
    · exact hafter (List.cons.inj hhash).2
    · exact hhead.elim (fun h => hplus h.symm) (by decide)
  | cons seg before ih =>
    rw [List.cons_append, List.map_cons, List.cons_append, mem_matchPaths_cons]
    rintro (hhash | ⟨-, htail⟩)
    · exact List.append_ne_nil_of_right_ne_nil before (List.cons_ne_nil _ _) (List.cons.inj hhash).2
    · exact ih htail

theorem mem_lookup_subscribed (clientId filter topic : String) (qos : QoS) :
    { clientId, filter, qos } ∈ (SubscriptionTree.new.subscribe clientId filter qos).lookup topic ↔
      splitSlash filter ∈ matchPaths (splitSlash topic) := by
  have hempty : Represents SubscriptionMap.empty SubscriptionTree.new.root := Represents.empty
  have hmap : (SubscriptionMap.empty.insert clientId filter qos) (clientId, filter) = some qos := if_pos rfl
  have htree := hempty.step (.subscribe clientId filter qos)
  exact (htree.mem_lookup topic _).trans (and_iff_right hmap)

theorem trim_of_agrees {filter : String}
    (h : ∀ topic, splitSlash filter ∈ matchPaths (splitSlash topic) ↔ (TopicFilter.new filter).matches topic = true) :
    trim filter = filter := by
  obtain ⟨z, hz, hfresh⟩ := exists_fresh_segment (splitSlash filter)
  have hsegs : ∀ seg ∈ (splitSlash (trim filter)).map (literal z), IsSegment seg := by
    intro seg hseg
    obtain ⟨seg', hseg', rfl⟩ := List.mem_map.mp hseg
    rw [literal]
    split_ifs
    · exact hz
    · exact splitSlash_isSegment hseg'
  have htopic := splitSlash_joinSlash (by simp [splitSlash_ne_nil]) hsegs
  have hmatch := h (joinSlash ((splitSlash (trim filter)).map (literal z)))
  rw [TopicFilter.matches_eq, htopic] at hmatch
  have hpath := eq_of_mem_literal (splitSlash_trim filter) hfresh (hmatch.mpr (accepts_literal z _))
  exact (splitSlash_injective hpath).symm

theorem hashLast_of_agrees {filter : String} (htrim : trim filter = filter)
    (h : ∀ topic, splitSlash filter ∈ matchPaths (splitSlash topic) ↔ (TopicFilter.new filter).matches topic = true) :
    HashLast filter := by
  intro hhash
  obtain ⟨before, after, hsplit⟩ := List.append_of_mem hhash
  have hpath : splitSlash filter = before ++ "#" :: (after ++ [(splitSlash filter).getLast (splitSlash_ne_nil filter)]) := by
    rw [← List.cons_append, ← List.append_assoc, ← hsplit, List.dropLast_append_getLast]
  obtain ⟨z, hz, hfresh⟩ := exists_fresh_segment ["#"]
  have hsegs : ∀ seg ∈ before.map (literal z) ++ [z], IsSegment seg := by
    intro seg hseg
    rcases List.mem_append.mp hseg with hseg | hseg
    · obtain ⟨seg', hseg', rfl⟩ := List.mem_map.mp hseg
      rw [literal]
      split_ifs
      · exact hz
      · refine splitSlash_isSegment (s := filter) ?_
        rw [hpath]
        exact List.mem_append_left _ hseg'
    · exact List.mem_singleton.mp hseg ▸ hz
  have hmatch := h (joinSlash (before.map (literal z) ++ [z]))
  rw [TopicFilter.matches_eq, splitSlash_joinSlash (by simp) hsegs, htrim, filterPattern, hpath] at hmatch
  exact not_mem_after_hash (by simpa using hfresh) before (by simp) (hmatch.mpr (accepts_before_hash z before _ [z]))

/-- A subscription is found for the topics whose retained messages are sent for it exactly when its filter has no white
    space around it and a `#` only last. -/
theorem live_iff_retained (clientId filter : String) (qos : QoS) :
    (∀ topic, { clientId, filter, qos } ∈ (SubscriptionTree.new.subscribe clientId filter qos).lookup topic ↔
      (TopicFilter.new filter).matches topic = true) ↔
    trim filter = filter ∧ HashLast filter := by
  simp only [mem_lookup_subscribed]
  constructor
  · intro h
    have htrim := trim_of_agrees h
    exact ⟨htrim, hashLast_of_agrees htrim h⟩
  · rintro ⟨htrim, hlast⟩ topic
    rw [visited_iff_accepts _ hlast, TopicFilter.matches_eq, htrim, filterPattern]

theorem live_retained_disagree : ¬ ∀ (clientId filter : String) (qos : QoS) (topic : String),
    { clientId, filter, qos } ∈ (SubscriptionTree.new.subscribe clientId filter qos).lookup topic ↔
      (TopicFilter.new filter).matches topic = true := by
  intro h
  have hlive : { clientId := "c", filter := "a/#/b", qos := .AtMostOnce } ∉
      (SubscriptionTree.new.subscribe "c" "a/#/b" .AtMostOnce).lookup "a/x" := by decide +kernel
  have hretained : (TopicFilter.new "a/#/b").matches "a/x" = true := by decide +kernel
  exact hlive ((h "c" "a/#/b" .AtMostOnce "a/x").mpr hretained)

theorem head_splitSlash {c : Char} (hc : c ≠ '/') {topic : String} (h : topic.toList.head? = some c) :
    ∃ first rest, splitSlash topic = first :: rest ∧ first.toList.head? = some c := by
  obtain ⟨cs, hcs⟩ : ∃ cs, topic.toList = c :: cs := List.head?_eq_some_iff.mp h
  have hsplit : (c :: cs).splitOn '/' = (cs.splitOn '/').modifyHead (c :: ·) := by
    rw [List.splitOn_cons_eq_if_modifyHead, if_neg (by simpa using hc)]
  rw [splitSlash, hcs, hsplit]
  cases hrest : cs.splitOn '/' with
  | nil => exact absurd hrest (List.splitOn_ne_nil _ _)
  | cons first rest => exact ⟨String.ofList (c :: first), rest.map String.ofList, rfl, by simp⟩

theorem accepts_first (filter : List String) (hne : filter ≠ []) (first : String) (rest : List String) :
    (segmentPattern filter).accepts (first :: rest) = true ↔ (∃ segs, filter = "#" :: segs) ∨
      ∃ segs, (filter = "+" :: segs ∨ filter = first :: segs) ∧ (segmentPattern segs).accepts rest = true := by
  cases filter with
  | nil => exact absurd rfl hne
  | cons seg segs =>
    cases hash : seg == "#" with
    | true =>
      rw [beq_iff_eq.mp hash, accepts_hash]
      exact iff_of_true rfl (.inl ⟨segs, rfl⟩)
    | false =>
      have hnohash : ¬ ∃ segs', seg :: segs = "#" :: segs' := by
        rintro ⟨segs', heq⟩
        rw [(List.cons.inj heq).1] at hash
        cases hash
      rw [accepts_cons segs first rest hash, Bool.and_eq_true, Bool.or_eq_true, beq_iff_eq, beq_iff_eq,
        or_iff_right hnohash]
      constructor
      · rintro ⟨hseg, hrest⟩
        exact ⟨segs, hseg.imp (by rintro rfl; rfl) (by rintro rfl; rfl), hrest⟩
      · rintro ⟨segs', hseg, hrest⟩
        cases hseg with
        | inl heq =>
          obtain ⟨rfl, rfl⟩ := List.cons.inj heq
          exact ⟨.inl rfl, hrest⟩
        | inr heq =>
          obtain ⟨rfl, rfl⟩ := List.cons.inj heq
          exact ⟨.inr rfl, hrest⟩

/-- A topic that starts with `$` is matched like any other: by `#` alone, and by a filter that has a `+`
    or the topic's own first segment in front, if the rest matches the rest. -/
theorem systemTopics_matched {topic : String} (hsystem : topic.toList.head? = some '$') (ops : List TreeOp) :
    ∃ first rest, splitSlash topic = first :: rest ∧ first.toList.head? = some '$' ∧
      (∀ c f q, { clientId := c, filter := f, qos := q } ∈ (ops.foldl TreeOp.onTree SubscriptionTree.new).lookup topic ↔
        ops.foldl TreeOp.onMap SubscriptionMap.empty (c, f) = some q ∧ (splitSlash f = ["#"] ∨
          ∃ segs, (splitSlash f = "+" :: segs ∨ splitSlash f = first :: segs) ∧ segs ∈ matchPaths rest)) ∧
      ∀ f, (TopicFilter.new f).matches topic = true ↔ (∃ segs, splitSlash (trim f) = "#" :: segs) ∨
        ∃ segs, (splitSlash (trim f) = "+" :: segs ∨ splitSlash (trim f) = first :: segs) ∧
          (segmentPattern segs).accepts rest = true := by
  obtain ⟨first, rest, hsplit, hfirst⟩ := head_splitSlash (by decide) hsystem
  refine ⟨first, rest, hsplit, hfirst, ?_, ?_⟩
  · intro c f q
    have hempty : Represents SubscriptionMap.empty SubscriptionTree.new.root := Represents.empty
    have htree := hempty.run ops
    refine (htree.mem_lookup topic _).trans (and_congr_right fun _ => ?_)
    change splitSlash f ∈ matchPaths (splitSlash topic) ↔ _
    rw [hsplit]
    cases hf : splitSlash f with
    | nil => exact absurd hf (splitSlash_ne_nil f)
    | cons seg segs =>
      rw [mem_matchPaths_cons]
      refine or_congr_right ?_
      constructor
      · rintro ⟨hseg, hsegs⟩
        exact ⟨segs, hseg.symm.imp (by rintro rfl; rfl) (by rintro rfl; rfl), hsegs⟩
      · rintro ⟨segs', hseg, hsegs⟩
        cases hseg with
        | inl heq =>
          obtain ⟨rfl, rfl⟩ := List.cons.inj heq
          exact ⟨.inr rfl, hsegs⟩
        | inr heq =>
          obtain ⟨rfl, rfl⟩ := List.cons.inj heq
          exact ⟨.inl rfl, hsegs⟩
  · intro f
    rw [TopicFilter.matches_eq, hsplit, filterPattern]
    exact accepts_first _ (splitSlash_ne_nil _) first rest

theorem systemTopics_matched_uptime :
    ∃ first rest, splitSlash "$SYS/uptime" = first :: rest ∧ first.toList.head? = some '$' ∧
      (∀ c f q, { clientId := c, filter := f, qos := q } ∈
          ([TreeOp.subscribe "c" "+/uptime" .AtMostOnce].foldl TreeOp.onTree SubscriptionTree.new).lookup "$SYS/uptime" ↔
        [TreeOp.subscribe "c" "+/uptime" .AtMostOnce].foldl TreeOp.onMap SubscriptionMap.empty (c, f) = some q ∧
          (splitSlash f = ["#"] ∨
            ∃ segs, (splitSlash f = "+" :: segs ∨ splitSlash f = first :: segs) ∧ segs ∈ matchPaths rest)) ∧
      ∀ f, (TopicFilter.new f).matches "$SYS/uptime" = true ↔ (∃ segs, splitSlash (trim f) = "#" :: segs) ∨
        ∃ segs, (splitSlash (trim f) = "+" :: segs ∨ splitSlash (trim f) = first :: segs) ∧
          (segmentPattern segs).accepts rest = true :=
  systemTopics_matched (by decide) [.subscribe "c" "+/uptime" .AtMostOnce]

/-- Neither `#` nor `+/uptime` is kept from `$SYS/uptime`, in the tree and in the loop over the segments. -/
theorem systemTopics_notHidden :
    { clientId := "c", filter := "#", qos := .AtMostOnce } ∈
        (SubscriptionTree.new.subscribe "c" "#" .AtMostOnce).lookup "$SYS/uptime" ∧
      { clientId := "c", filter := "+/uptime", qos := .AtMostOnce } ∈
        (SubscriptionTree.new.subscribe "c" "+/uptime" .AtMostOnce).lookup "$SYS/uptime" ∧
      (TopicFilter.new "#").matches "$SYS/uptime" = true ∧ (TopicFilter.new "+/uptime").matches "$SYS/uptime" = true := by
  decide +kernel

end AtomMqtt
