import AtomMqtt.Common
import AtomMqtt.Library.Wildcard

set_option autoImplicit false

/-! Topics as words of segments, filters as wildcard patterns. -/
namespace AtomMqtt
open Wildcard

/-- The segments of a topic: strings without a separator. -/
def IsSegment (seg : String) : Prop := '/' ∉ seg.toList

def joinSlash (segs : List String) : String := String.ofList (['/'].intercalate (segs.map String.toList))

theorem splitSlash_ne_nil (s : String) : splitSlash s ≠ [] := by
  simp [splitSlash]

theorem notMem_of_mem_splitOn {α : Type} [BEq α] [LawfulBEq α] {sep : α} {xs piece : List α}
    (h : piece ∈ xs.splitOn sep) : sep ∉ piece := by
  induction xs generalizing piece with
  | nil =>
    have hp : piece = [] := by simpa using h
    simp [hp]
  | cons x xs ih =>
    rw [List.splitOn_cons_eq_if_modifyHead] at h
    by_cases hx : x = sep
    · simp only [hx, beq_self_eq_true, if_true, List.mem_cons] at h
      rcases h with rfl | h
      · simp
      · exact ih h
    · simp only [beq_iff_eq, hx, if_false] at h
      cases hs : xs.splitOn sep with
      | nil => simp at hs
      | cons first rest =>
        simp only [hs, List.modifyHead_cons, List.mem_cons] at h
        rcases h with rfl | h
        · simp only [List.mem_cons, not_or]
          exact ⟨fun e => hx e.symm, ih (by simp [hs])⟩
        · exact ih (by simp [hs, h])

theorem splitSlash_isSegment {s seg : String} (h : seg ∈ splitSlash s) : IsSegment seg := by
  obtain ⟨piece, hpiece, rfl⟩ := List.mem_map.mp h
  simpa [IsSegment] using notMem_of_mem_splitOn hpiece

theorem splitSlash_joinSlash {segs : List String} (hne : segs ≠ []) (hsegs : ∀ seg ∈ segs, IsSegment seg) :
    splitSlash (joinSlash segs) = segs := by
  have hmem : ∀ l ∈ segs.map String.toList, '/' ∉ l := by
    intro l hl
    obtain ⟨seg, hseg, rfl⟩ := List.mem_map.mp hl
    exact hsegs seg hseg
  rw [splitSlash, joinSlash, String.toList_ofList, List.splitOn_intercalate _ hmem (by simpa using hne),
    List.map_map]
  simp [Function.comp_def]

theorem joinSlash_splitSlash (s : String) : joinSlash (splitSlash s) = s := by
  rw [joinSlash, splitSlash, List.map_map]
  simp [Function.comp_def]

theorem splitSlash_injective {s t : String} (h : splitSlash s = splitSlash t) : s = t := by
  rw [← joinSlash_splitSlash s, h, joinSlash_splitSlash]

theorem exists_fresh_segment (segs : List String) : ∃ seg, IsSegment seg ∧ seg ∉ segs := by
  have hbound : ∃ n, ∀ seg ∈ segs, seg.toList.length < n := by
    induction segs with
    | nil => exact ⟨0, by simp⟩
    | cons s segs ih =>
      obtain ⟨n, hn⟩ := ih
      refine ⟨n + s.toList.length + 1, fun seg hseg => ?_⟩
      rcases List.mem_cons.mp hseg with rfl | h
      · omega
      · have := hn seg h
        omega
  obtain ⟨n, hn⟩ := hbound
  refine ⟨String.ofList (List.replicate n 'x'), ?_, fun hmem => ?_⟩
  · simp [IsSegment, List.mem_replicate]
  · have := hn _ hmem
    simp at this

/-- What follows a `#` plays no role. -/
def segmentPattern : List String → Pattern String
  | [] => { levels := [], isOpen := false }
  | seg :: segs =>
    if seg == "#" then { levels := [], isOpen := true }
    else { levels := (if seg == "+" then none else some seg) :: (segmentPattern segs).levels,
           isOpen := (segmentPattern segs).isOpen }

def filterPattern (filter : String) : Pattern String := segmentPattern (splitSlash filter)

theorem segmentPattern_literal {seg : String} {segs : List String} (h : some seg ∈ (segmentPattern segs).levels) :
    seg ∈ segs := by
  induction segs with
  | nil => simp [segmentPattern] at h
  | cons s segs ih =>
    simp only [segmentPattern] at h
    split_ifs at h with hash plus
    · simp at h
    · simp only [List.mem_cons, reduceCtorEq, false_or] at h
      exact List.mem_cons_of_mem s (ih h)
    · simp only [List.mem_cons, Option.some.injEq] at h
      rcases h with rfl | h
      · exact List.mem_cons_self
      · exact List.mem_cons_of_mem s (ih h)

theorem accepts_cons {seg : String} (segs : List String) (t : String) (ts : List String) (hash : (seg == "#") = false) :
    (segmentPattern (seg :: segs)).accepts (t :: ts) =
      ((seg == "+" || seg == t) && (segmentPattern segs).accepts ts) := by
  cases plus : seg == "+" <;>
    simp [segmentPattern, hash, plus, Pattern.accepts, matchLevels, levelMatches]

theorem accepts_hash (segs ts : List String) : (segmentPattern ("#" :: segs)).accepts ts = true := by
  simp [segmentPattern, Pattern.accepts, matchLevels]

theorem accepts_cons_nil {seg : String} (segs : List String) (hash : (seg == "#") = false) :
    (segmentPattern (seg :: segs)).accepts [] = false := by
  simp [segmentPattern, hash, Pattern.accepts, matchLevels]

theorem TopicFilter.matchLoop_eq (segs : List String) : ∀ topicSegs : List String,
    TopicFilter.matchLoop segs topicSegs = (segmentPattern segs).accepts topicSegs := by
  induction segs with
  | nil => intro ts; rfl
  | cons seg segs ih =>
    intro ts
    rw [TopicFilter.matchLoop.eq_def]
    cases hash : seg == "#" with
    | true =>
      rw [beq_iff_eq.mp hash, accepts_hash]
      rfl
    | false =>
      cases ts with
      | nil => simp [accepts_cons_nil segs hash, hash]
      | cons t ts =>
        rw [accepts_cons segs t ts hash]
        simp only [hash, Bool.false_eq_true, if_false, ih ts, bne]
        cases seg == "+" <;> cases seg == t <;> simp

theorem TopicFilter.matches_eq (filter topic : String) :
    (TopicFilter.new filter).matches topic = (filterPattern (trim filter)).accepts (splitSlash topic) := by
  rw [TopicFilter.matches, TopicFilter.matchLoop_eq, TopicFilter.new, filterPattern]

end AtomMqtt
