import AtomMqtt.AclSoundness

set_option autoImplicit false

/-! What an access file grants. A line that is no rule is skipped, and a file that is left without any rule
switches the checker off. -/
namespace AtomMqtt

inductive AclQuestion where
  | publish
  | subscribe
  deriving DecidableEq, Repr

def AclAccess.grants (access : AclAccess) : AclQuestion → Bool
  | .publish => access.grantsPublish
  | .subscribe => access.grantsSubscribe

def AclChecker.authorize (acl : AclChecker) (username t : String) : AclQuestion → Bool
  | .publish => acl.authorizePublish username t
  | .subscribe => acl.authorizeSubscribe username t

/-- Some line of the file is a rule for this user that grants what is asked and whose filter matches. -/
def GrantedByLine (content username t : String) (question : AclQuestion) : Prop :=
  ∃ line ∈ lines content, ∃ entry, parseAclLine line = some entry ∧ entry.username = username ∧
    entry.access.grants question = true ∧ topicMatchesFilter t entry.filter = true

def HasRule (content : String) : Prop := ∃ line ∈ lines content, (parseAclLine line).isSome = true

/-- Some lines of a file are deleted, others replaced by lines that are no rules. -/
inductive Weakened : List String → List String → Prop
  | nil : Weakened [] []
  | keep (line : String) {before after : List String} (h : Weakened before after) :
      Weakened (line :: before) (line :: after)
  | delete (line : String) {before after : List String} (h : Weakened before after) : Weakened (line :: before) after
  | spoil (line : String) {malformed : String} {before after : List String} (hnone : parseAclLine malformed = none)
      (h : Weakened before after) : Weakened (line :: before) (malformed :: after)

section
variable {content content' path path' username t : String} {readToString readToString' : String → Option String}
  {question : AclQuestion}

theorem authorize_eq (acl : AclChecker) : acl.authorize username t question =
    (!acl.enabled || acl.entries.any fun entry =>
      entry.username == username && (entry.access.grants question && topicMatchesFilter t entry.filter)) := by
  cases question <;> cases henabled : acl.enabled <;>
    simp [AclChecker.authorize, AclChecker.authorizePublish, AclChecker.authorizeSubscribe, AclAccess.grants, henabled]

theorem AclChecker.new_eq (hpath : path ≠ "") (hread : readToString path = some content) :
    AclChecker.new readToString path =
      { entries := (lines content).filterMap parseAclLine,
        enabled := !((lines content).filterMap parseAclLine).isEmpty } := by
  have hnonempty : path.isEmpty = false := by simpa using hpath
  simp [AclChecker.new, hnonempty, hread]

theorem not_hasRule : ¬ HasRule content ↔ (lines content).filterMap parseAclLine = [] := by
  simp [HasRule, List.filterMap_eq_nil_iff]

theorem grantedByLine_iff : GrantedByLine content username t question ↔
    ((lines content).filterMap parseAclLine).any (fun entry =>
      entry.username == username && (entry.access.grants question && topicMatchesFilter t entry.filter)) = true := by
  simp only [GrantedByLine, List.any_eq_true, List.mem_filterMap, Bool.and_eq_true, beq_iff_eq]
  constructor
  · rintro ⟨line, hline, entry, hparse, hgrants⟩
    exact ⟨entry, ⟨line, hline, hparse⟩, hgrants⟩
  · rintro ⟨entry, ⟨line, hline, hparse⟩, hgrants⟩
    exact ⟨line, hline, entry, hparse, hgrants⟩

theorem authorize_iff (hpath : path ≠ "") (hread : readToString path = some content) :
    (AclChecker.new readToString path).authorize username t question = true ↔
      ¬ HasRule content ∨ GrantedByLine content username t question := by
  rw [authorize_eq, AclChecker.new_eq hpath hread, not_hasRule, grantedByLine_iff, Bool.or_eq_true, Bool.not_not,
    List.isEmpty_iff]

theorem Weakened.rules {before after : List String} (h : Weakened before after) :
    (after.filterMap parseAclLine).Sublist (before.filterMap parseAclLine) := by
  induction h with
  | nil => exact List.Sublist.refl _
  | keep line _ ih =>
    rw [List.filterMap_cons, List.filterMap_cons]
    cases parseAclLine line with
    | none => exact ih
    | some entry => exact ih.cons_cons entry
  | delete line _ ih =>
    rw [List.filterMap_cons]
    cases parseAclLine line with
    | none => exact ih
    | some entry => exact ih.cons entry
  | spoil line hnone _ ih =>
    rw [List.filterMap_cons, List.filterMap_cons, hnone]
    cases parseAclLine line with
    | none => exact ih
    | some entry => exact ih.cons entry

theorem Weakened.grants (h : Weakened (lines content) (lines content')) (hgrants : GrantedByLine content' username t question) :
    GrantedByLine content username t question := by
  rw [grantedByLine_iff, List.any_eq_true] at hgrants ⊢
  obtain ⟨entry, hentry, hmatch⟩ := hgrants
  exact ⟨entry, h.rules.subset hentry, hmatch⟩

end

/-- The checker of a readable file grants a request only if the file has no rule at all or a line of it
    grants the request. While a rule is left, deleting or spoiling lines grants nothing new. -/
theorem accessFile_grants {readToString : String → Option String} {path content : String} (hpath : path ≠ "")
    (hread : readToString path = some content) (username t : String) (question : AclQuestion) :
    ((AclChecker.new readToString path).authorize username t question = true ↔
      ¬ HasRule content ∨ GrantedByLine content username t question) ∧
    ∀ (readToString' : String → Option String) (content' : String), readToString' path = some content' →
      Weakened (lines content) (lines content') → HasRule content' →
      (AclChecker.new readToString' path).authorize username t question = true →
      (AclChecker.new readToString path).authorize username t question = true := by
  refine ⟨authorize_iff hpath hread, ?_⟩
  intro readToString' content' hread' hweak hrule hgrants
  rw [authorize_iff hpath hread'] at hgrants
  rw [authorize_iff hpath hread]
  cases hgrants with
  | inl hnone => exact absurd hrule hnone
  | inr hline => exact .inr (hweak.grants hline)

def everyFile (content : String) : String → Option String := fun _ => some content

def sensorFile : String := "user admin topic readwrite #\nuser s topic publish a/#\n"

theorem accessFile_grants_sensor :
    ((AclChecker.new (everyFile sensorFile) "acl.conf").authorize "s" "a/b" .publish = true ↔
      ¬ HasRule sensorFile ∨ GrantedByLine sensorFile "s" "a/b" .publish) ∧
    ∀ (readToString' : String → Option String) (content' : String), readToString' "acl.conf" = some content' →
      Weakened (lines sensorFile) (lines content') → HasRule content' →
      (AclChecker.new readToString' "acl.conf").authorize "s" "a/b" .publish = true →
      (AclChecker.new (everyFile sensorFile) "acl.conf").authorize "s" "a/b" .publish = true := by
  have hread : everyFile sensorFile "acl.conf" = some sensorFile := rfl
  exact accessFile_grants (by decide) hread "s" "a/b" .publish

/-- The only rule denies `eve` the topic; the file with the rule deleted, or with its access word
    misspelt, grants it although no line of it is a rule. -/
theorem accessFile_withoutRules :
    (AclChecker.new (everyFile "user admin topic readwrite #\n") "acl.conf").authorize "eve" "t" .publish = false ∧
    ∀ content ∈ ["", "user admin topic readonly #\n"],
      Weakened (lines "user admin topic readwrite #\n") (lines content) ∧ ¬ HasRule content ∧
        ∀ question, (AclChecker.new (everyFile content) "acl.conf").authorize "eve" "t" question = true := by
  have hlines : lines "user admin topic readwrite #\n" = ["user admin topic readwrite #"] := by decide
  refine ⟨by decide, ?_⟩
  rw [hlines]
  intro content hcontent
  rcases List.mem_cons.mp hcontent with rfl | hcontent
  · have hempty : lines "" = [] := by decide
    refine ⟨?_, ?_, ?_⟩
    · rw [hempty]
      exact .delete _ .nil
    · rw [not_hasRule, hempty]
      rfl
    · intro question
      cases question <;> decide
  · obtain rfl := List.mem_singleton.mp hcontent
    have hspoilt : lines "user admin topic readonly #\n" = ["user admin topic readonly #"] := by decide
    refine ⟨?_, ?_, ?_⟩
    · rw [hspoilt]
      exact .spoil _ (by decide) .nil
    · rw [not_hasRule, hspoilt]
      decide
    · intro question
      cases question <;> decide

end AtomMqtt
