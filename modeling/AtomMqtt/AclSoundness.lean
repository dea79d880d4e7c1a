import AtomMqtt.Auth
import AtomMqtt.Topics

set_option autoImplicit false

/-! What an authorised SUBSCRIBE lets a client receive. The checker reads the requested filter as if it were a
topic. The filters it grants are compared here with the topics that they match. -/
namespace AtomMqtt
open Wildcard

theorem topicMatchesLoop_eq (filterSegments : List String) : ∀ topicSegments : List String,
    topicMatchesLoop filterSegments topicSegments = (segmentPattern filterSegments).accepts topicSegments := by
  induction filterSegments with
  | nil => intro ts; rfl
  | cons seg segs ih =>
    intro ts
    rw [topicMatchesLoop.eq_def]
    cases hash : seg == "#" with
    | true =>
      rw [beq_iff_eq.mp hash, accepts_hash]
      rfl
    | false =>
      cases ts with
      | nil => simp [accepts_cons_nil segs hash, hash]
      | cons t ts =>
        rw [accepts_cons segs t ts hash]
        simp only [hash, Bool.false_eq_true, if_false, ih ts, bne]
        cases seg == "+" <;> cases seg == t <;> simp

theorem topicMatchesFilter_eq (topic filter : String) :
    topicMatchesFilter topic filter = (filterPattern filter).accepts (splitSlash topic) := by
  by_cases hash : filter = "#"
  · have hsplit : splitSlash "#" = ["#"] := by decide
    simp [topicMatchesFilter, hash, filterPattern, hsplit, accepts_hash]
  · simp [topicMatchesFilter, hash, topicMatchesLoop_eq, filterPattern]

def AclEntry.LetsSubscribe (entry : AclEntry) (username : String) : Prop :=
  entry.username = username ∧ (entry.access = .Subscribe ∨ entry.access = .ReadWrite)

instance (entry : AclEntry) (username : String) : Decidable (entry.LetsSubscribe username) :=
  inferInstanceAs (Decidable (_ ∧ _))

theorem AclAccess.grantsSubscribe_iff (access : AclAccess) :
    access.grantsSubscribe = true ↔ access = .Subscribe ∨ access = .ReadWrite := by
  cases access <;> simp [AclAccess.grantsSubscribe]

theorem authorizeSubscribe_iff {acl : AclChecker} (henabled : acl.enabled = true) (username topicFilter : String) :
    acl.authorizeSubscribe username topicFilter = true ↔
      ∃ entry ∈ acl.entries, entry.LetsSubscribe username ∧ topicMatchesFilter topicFilter entry.filter = true := by
  simp only [AclChecker.authorizeSubscribe, henabled, Bool.not_true, Bool.false_eq_true, if_false, List.any_eq_true,
    Bool.and_eq_true, beq_iff_eq, AclEntry.LetsSubscribe, AclAccess.grantsSubscribe_iff, and_assoc]

/-- Every topic that the requested filter matches is matched by a rule of the user. -/
def WithinRules (acl : AclChecker) (username topicFilter : String) : Prop :=
  ∀ topic, (TopicFilter.new topicFilter).matches topic = true →
    ∃ entry ∈ acl.entries, entry.LetsSubscribe username ∧ topicMatchesFilter topic entry.filter = true

def AclChecker.subscribePatterns (acl : AclChecker) (username : String) : List (Pattern String) :=
  (acl.entries.filter fun entry => entry.LetsSubscribe username).map fun entry => filterPattern entry.filter

/-- Level by level, each expansion of the requested filter lies below a single rule of the user: a `+`
    below a `+` or a `#` of the rule, a literal below itself, a `+` or a `#`. The expansions stand for
    a final `#` as no, one, two and so on further `+`, up to one more than the longest rule has. -/
def CoveredByRules (acl : AclChecker) (username topicFilter : String) : Prop :=
  ∀ n ≤ bound (acl.subscribePatterns username), (filterPattern (trim topicFilter)).reaches n →
    (filterPattern (trim topicFilter)).expand n ≠ [] →
    ∃ p ∈ acl.subscribePatterns username, p.covers ((filterPattern (trim topicFilter)).expand n) = true

theorem exists_subscribePattern (acl : AclChecker) (username topic : String) :
    (∃ entry ∈ acl.entries, entry.LetsSubscribe username ∧ topicMatchesFilter topic entry.filter = true) ↔
      ∃ p ∈ acl.subscribePatterns username, p.accepts (splitSlash topic) = true := by
  constructor
  · rintro ⟨entry, hentry, hlets, hmatch⟩
    refine ⟨filterPattern entry.filter, ?_, by rwa [topicMatchesFilter_eq] at hmatch⟩
    exact List.mem_map.mpr ⟨entry, List.mem_filter.mpr ⟨hentry, by simpa using hlets⟩, rfl⟩
  · rintro ⟨p, hp, hacc⟩
    obtain ⟨entry, hentry, rfl⟩ := List.mem_map.mp hp
    obtain ⟨hmem, hlets⟩ := List.mem_filter.mp hentry
    exact ⟨entry, hmem, by simpa using hlets, by rwa [topicMatchesFilter_eq]⟩

theorem withinRules_iff_covered (acl : AclChecker) (username topicFilter : String) :
    WithinRules acl username topicFilter ↔ CoveredByRules acl username topicFilter := by
  have hlits : ∀ seg, some seg ∈ (filterPattern (trim topicFilter)).levels → IsSegment seg := by
    intro seg h
    exact splitSlash_isSegment (segmentPattern_literal h)
  rw [CoveredByRules, ← included_iff exists_fresh_segment hlits]
  constructor
  · intro h word hne hsegs hword
    have htopic := splitSlash_joinSlash hne hsegs
    have hm : (TopicFilter.new topicFilter).matches (joinSlash word) = true := by
      rw [TopicFilter.matches_eq, htopic]
      exact hword
    have hrule := (exists_subscribePattern acl username (joinSlash word)).mp (h (joinSlash word) hm)
    rwa [htopic] at hrule
  · intro h topic hm
    rw [TopicFilter.matches_eq] at hm
    refine (exists_subscribePattern acl username topic).mpr ?_
    exact h (splitSlash topic) (splitSlash_ne_nil topic) (fun seg hseg => splitSlash_isSegment hseg) hm

/-- For an enabled checker with any rules: a granted subscription stays within the rules exactly when
    the requested filter, if a rule of the user matches it read as a topic, is covered by the rules. -/
theorem authorizeSubscribe_sound_iff (entries : List AclEntry) (username topicFilter : String) :
    let acl : AclChecker := { entries, enabled := true }
    (acl.authorizeSubscribe username topicFilter = true → WithinRules acl username topicFilter) ↔
      ((∃ entry ∈ acl.entries, entry.LetsSubscribe username ∧ topicMatchesFilter topicFilter entry.filter = true) →
        CoveredByRules acl username topicFilter) := by
  intro acl
  rw [authorizeSubscribe_iff rfl, withinRules_iff_covered]

def plusRule : AclEntry := { username := "app", filter := "a/+", access := .Subscribe }

/-- The rule grants `a/#`, and with it topics of one and of three segments. -/
theorem authorizeSubscribe_widens :
    let acl : AclChecker := { entries := [plusRule], enabled := true }
    (∀ entry ∈ acl.entries, "#" ∉ (splitSlash entry.filter).dropLast) ∧
      acl.authorizeSubscribe "app" "a/#" = true ∧ ¬ WithinRules acl "app" "a/#" := by
  refine ⟨by decide, by decide, fun h => ?_⟩
  obtain ⟨entry, hentry, -, hmatch⟩ := h "a/b/c" (by decide)
  obtain rfl : entry = plusRule := by simpa using hentry
  revert hmatch
  decide

end AtomMqtt
