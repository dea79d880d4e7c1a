import AtomMqtt.AclSoundness
import AtomMqtt.FilterAgreement

set_option autoImplicit false

/-! Which topics a filter matches. The rules of the protocol for the segments of a filter, the two matchers that
compute them, and what a rule of the checker grants of the filters below it. -/
namespace AtomMqtt
open Wildcard

def LevelFits (seg part : String) : Prop := seg = "+" ∨ seg = part

/-- The topic begins with one segment for each segment of the filter, and ends there unless the filter ends in `#`. -/
def FilterFits (filter topic : List String) : Prop :=
  ∃ first rest, topic = first ++ rest ∧
    if filter.getLast? = some "#" then List.Forall₂ LevelFits filter.dropLast first
    else List.Forall₂ LevelFits filter first ∧ rest = []

def segmentLevel (seg : String) : Option String := if seg == "+" then none else some seg

theorem levelMatches_segmentLevel (seg part : String) :
    levelMatches (segmentLevel seg) part = true ↔ LevelFits seg part := by
  rw [segmentLevel, LevelFits]
  split_ifs with hplus
  · exact iff_of_true rfl (.inl (beq_iff_eq.mp hplus))
  · have hne : seg ≠ "+" := by simpa using hplus
    rw [levelMatches, beq_iff_eq, or_iff_right hne]

theorem segmentPattern_append {segs : List String} (h : "#" ∉ segs) (last : List String) :
    segmentPattern (segs ++ last) =
      { levels := segs.map segmentLevel ++ (segmentPattern last).levels, isOpen := (segmentPattern last).isOpen } := by
  induction segs with
  | nil => rfl
  | cons seg segs ih =>
    rw [List.mem_cons, not_or] at h
    obtain ⟨hseg, hsegs⟩ := h
    have hne : ¬ (seg == "#") = true := by
      rw [beq_iff_eq]
      exact fun heq => hseg heq.symm
    rw [List.cons_append, segmentPattern, if_neg hne, ih hsegs]
    rfl

theorem accepts_append_iff {segs : List String} (h : "#" ∉ segs) (last topic : List String)
    (hlast : (segmentPattern last).levels = []) : (segmentPattern (segs ++ last)).accepts topic = true ↔
      ∃ first rest, topic = first ++ rest ∧ List.Forall₂ LevelFits segs first ∧
        ((segmentPattern last).isOpen = true ∨ rest = []) := by
  rw [segmentPattern_append h, hlast, List.append_nil, Pattern.accepts, matchLevels_iff]
  simp only [List.forall₂_map_left_iff, levelMatches_segmentLevel]

theorem accepts_iff_filterFits {segs : List String} (hlast : "#" ∉ segs.dropLast) (topic : List String) :
    (segmentPattern segs).accepts topic = true ↔ FilterFits segs topic := by
  unfold FilterFits
  by_cases hhash : segs.getLast? = some "#"
  · obtain ⟨before, rfl⟩ := List.getLast?_eq_some_iff.mp hhash
    rw [List.dropLast_concat] at hlast
    rw [accepts_append_iff hlast ["#"] topic rfl]
    simp [segmentPattern]
  · have hnone : "#" ∉ segs := by
      intro hmem
      have hne : segs ≠ [] := List.ne_nil_of_mem hmem
      rw [← List.dropLast_append_getLast hne, List.mem_append, List.mem_singleton] at hmem
      have heq := hmem.resolve_left hlast
      exact hhash (by rw [List.getLast?_eq_some_getLast hne, ← heq])
    have happend := accepts_append_iff hnone [] topic rfl
    rw [List.append_nil] at happend
    rw [happend]
    simp [segmentPattern, hhash]

/-- What a lookup in the tree goes by are the same rules. -/
theorem segmentsMatch_iff_filterFits {segs : List String} (hlast : "#" ∉ segs.dropLast) (topic : List String) :
    segmentsMatch segs topic = true ↔ FilterFits segs topic := by
  rw [segmentsMatch_eq_accepts segs hlast, accepts_iff_filterFits hlast]

/-- Neither the first nor the last character is white space. -/
def NoOuterSpace (s : String) : Prop :=
  (∀ c, s.toList.head? = some c → isWhitespace c = false) ∧ ∀ c, s.toList.getLast? = some c → isWhitespace c = false

theorem trim_of_noOuterSpace {s : String} (h : NoOuterSpace s) : trim s = s := by
  obtain ⟨hhead, hlast⟩ := h
  have hfront : s.toList.dropWhile isWhitespace = s.toList := by
    cases hs : s.toList with
    | nil => rfl
    | cons c cs =>
      have hc := hhead c (by rw [hs]; rfl)
      rw [List.dropWhile_cons_of_neg (by simp [hc])]
  have hback : s.toList.rdropWhile isWhitespace = s.toList := by
    rw [List.rdropWhile_eq_self_iff]
    intro hne hspace
    have hc := hlast _ (List.getLast?_eq_some_getLast hne)
    rw [hspace] at hc
    cases hc
  rw [trim, hfront, hback, String.ofList_toList]

/-- The checker's matcher is the one of the filters, and where a `#` stands only last both are the rules of the
    protocol. -/
theorem topicMatchesFilter_agrees (topic : String) {filter : String} (hspace : NoOuterSpace filter) :
    topicMatchesFilter topic filter = (TopicFilter.new filter).matches topic ∧
      (HashLast filter →
        (topicMatchesFilter topic filter = true ↔ FilterFits (splitSlash filter) (splitSlash topic)) ∧
        ((TopicFilter.new filter).matches topic = true ↔ FilterFits (splitSlash filter) (splitSlash topic))) := by
  have hsame : topicMatchesFilter topic filter = (TopicFilter.new filter).matches topic := by
    rw [topicMatchesFilter_eq, TopicFilter.matches_eq, trim_of_noOuterSpace hspace]
  refine ⟨hsame, fun hlast => ?_⟩
  have hrules : topicMatchesFilter topic filter = true ↔ FilterFits (splitSlash filter) (splitSlash topic) := by
    rw [topicMatchesFilter_eq]
    exact accepts_iff_filterFits hlast _
  exact ⟨hrules, hsame ▸ hrules⟩

theorem topicMatchesFilter_agrees_parent : NoOuterSpace "a/+/#" ∧
    topicMatchesFilter "a/b" "a/+/#" = (TopicFilter.new "a/+/#").matches "a/b" ∧
      (HashLast "a/+/#" →
        (topicMatchesFilter "a/b" "a/+/#" = true ↔ FilterFits (splitSlash "a/+/#") (splitSlash "a/b")) ∧
        ((TopicFilter.new "a/+/#").matches "a/b" = true ↔ FilterFits (splitSlash "a/+/#") (splitSlash "a/b"))) := by
  have hspace : NoOuterSpace "a/+/#" := by
    constructor
    · intro c hc
      cases hc
      decide
    · intro c hc
      cases hc
      decide
  exact ⟨hspace, topicMatchesFilter_agrees "a/b" hspace⟩

theorem accepts_self (segs : List String) : (segmentPattern segs).accepts segs = true := by
  induction segs with
  | nil => rfl
  | cons seg segs ih =>
    cases hash : seg == "#" with
    | true =>
      rw [beq_iff_eq.mp hash]
      exact accepts_hash segs _
    | false => rw [accepts_cons segs _ _ hash, ih, beq_self_eq_true, Bool.or_true, Bool.true_and]

theorem segmentPattern_wild {seg : String} {segs : List String} (h : some seg ∈ (segmentPattern segs).levels) :
    seg ≠ "+" ∧ seg ≠ "#" := by
  induction segs with
  | nil => cases h
  | cons s segs ih =>
    rw [segmentPattern] at h
    split_ifs at h with hash plus
    · cases h
    · exact ih (by simpa using h)
    · rcases List.mem_cons.mp h with heq | h
      · obtain rfl := Option.some.inj heq
        exact ⟨by simpa using plus, by simpa using hash⟩
      · exact ih h

def TopicSegment (seg : String) : Prop := IsSegment seg ∧ seg ≠ "+" ∧ seg ≠ "#"

theorem exists_fresh_topicSegment (segs : List String) : ∃ seg, TopicSegment seg ∧ seg ∉ segs := by
  obtain ⟨seg, hseg, hfresh⟩ := exists_fresh_segment ("+" :: "#" :: segs)
  simp only [List.mem_cons, not_or] at hfresh
  obtain ⟨hplus, hhash, hfresh⟩ := hfresh
  exact ⟨seg, ⟨hseg, hplus, hhash⟩, hfresh⟩

/-- A rule that matches every topic of the requested filter grants it: the comparison that takes the filter for a
    topic has an answer for the wildcards too, since a topic that has a new segment in their places is matched. -/
theorem authorizeSubscribe_complete {acl : AclChecker} (henabled : acl.enabled = true) {username topicFilter : String}
    (hfilter : HashLast topicFilter) {entry : AclEntry} (hentry : entry ∈ acl.entries)
    (hlets : entry.LetsSubscribe username) (hlast : HashLast entry.filter)
    (hwithin : ∀ topic, topic ≠ [] → (∀ seg ∈ topic, TopicSegment seg) →
      FilterFits (splitSlash topicFilter) topic → FilterFits (splitSlash entry.filter) topic) :
    acl.authorizeSubscribe username topicFilter = true := by
  refine (authorizeSubscribe_iff henabled username topicFilter).mpr ⟨entry, hentry, hlets, ?_⟩
  have hliterals : ∀ seg, some seg ∈ (filterPattern topicFilter).levels → TopicSegment seg := fun seg hseg =>
    ⟨splitSlash_isSegment (segmentPattern_literal hseg), segmentPattern_wild hseg⟩
  have hincluded : ∀ topic, topic ≠ [] → (∀ seg ∈ topic, TopicSegment seg) →
      (filterPattern topicFilter).accepts topic = true → (filterPattern entry.filter).accepts topic = true := by
    intro topic hne hsegs hmatch
    have hrules := (accepts_iff_filterFits hfilter topic).mp hmatch
    exact (accepts_iff_filterFits hlast topic).mpr (hwithin topic hne hsegs hrules)
  rw [topicMatchesFilter_eq]
  exact accepts_of_included exists_fresh_topicSegment hliterals hincluded (splitSlash_ne_nil topicFilter)
    (accepts_self _)

theorem authorizeSubscribe_complete_everything :
    let acl : AclChecker :=
      { entries := [{ username := "app", filter := "+/#", access := .Subscribe }], enabled := true }
    acl.authorizeSubscribe "app" "#" = true := by
  refine authorizeSubscribe_complete rfl (by decide) List.mem_cons_self (by decide) (by decide) ?_
  intro topic hne _ _
  obtain ⟨part, rest, rfl⟩ := List.exists_cons_of_ne_nil hne
  have hsplit : splitSlash "+/#" = ["+", "#"] := by decide
  refine ⟨[part], rest, rfl, ?_⟩
  have hlast : ["+", "#"].getLast? = some "#" := rfl
  rw [hsplit, if_pos hlast]
  exact .cons (.inl rfl) .nil

end AtomMqtt
