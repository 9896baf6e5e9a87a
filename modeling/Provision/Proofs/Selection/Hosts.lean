import Provision.Host

/-!
# The rule for hosts

A host is permitted if no exclusion matches it, and an inclusion does unless there is none. The rule
speaks of the patterns that there are, not of their order, and a reading of the patterns one by one
that ends at the first exclusion that matches comes to the same answer.
-/

namespace Provision.Host

open Text

/-! ## Patterns -/

/-- When a pattern matches a host, which is in lower case. -/
inductive Matches (host : List Char) : List Char → Prop
  | ending {ending : List Char} (h : ending <:+ host) : Matches host ('*' :: '.' :: ending)
  | part {pattern : List Char} (h : pattern <:+: host) : Matches host pattern
  | domain {pattern rest : List Char} (h : host = pattern ++ '.' :: rest) : Matches host pattern

def IsInclusion (pattern : List Char) : Prop := pattern.head? ≠ some '!'

/-- A host that begins with the pattern and a stop holds the pattern, so two tests are enough. -/
theorem patternMatches_iff {pattern host : List Char} :
    patternMatches pattern host = true ↔ Matches host pattern := by
  unfold patternMatches
  rw [Bool.or_eq_true, holds_iff_isInfix]
  constructor
  · rintro (hending | hpart)
    · split at hending
      · exact .ending (List.isSuffixOf_iff_suffix.mp hending)
      · cases hending
    · exact .part hpart
  · rintro (hending | hpart | hdomain)
    · exact .inl (List.isSuffixOf_iff_suffix.mpr hending)
    · exact .inr hpart
    · rw [hdomain]
      exact .inr (List.prefix_append _ _).isInfix

theorem excluded?_eq_some_iff {pattern excluded : List Char} :
    excluded? pattern = some excluded ↔ pattern = '!' :: excluded := by
  unfold excluded?
  split <;> simp_all

theorem excluded?_eq_none_iff {pattern : List Char} :
    excluded? pattern = none ↔ IsInclusion pattern := by
  unfold excluded? IsInclusion
  cases pattern with
  | nil => simp
  | cons c rest => split <;> simp_all

theorem not_isInclusion_exclusion (pattern : List Char) : ¬ IsInclusion ('!' :: pattern) :=
  fun h => h rfl

/-! ## The rule -/

/-- The patterns permit the host, whatever their order is. -/
structure Permits (patterns : List (List Char)) (host : List Char) : Prop where
  exclusion : ∀ pattern, '!' :: pattern ∈ patterns → ¬ Matches host pattern
  inclusion : (∀ pattern ∈ patterns, ¬ IsInclusion pattern) ∨
    ∃ pattern ∈ patterns, IsInclusion pattern ∧ Matches host pattern

theorem accepts_iff_permits {patterns : List (List Char)} {hostname : List Char} :
    accepts patterns hostname = true ↔ Permits patterns (lower hostname) := by
  have hexclusion : (!(patterns.filterMap excluded?).any (patternMatches · (lower hostname))) = true ↔
      ∀ pattern, '!' :: pattern ∈ patterns → ¬ Matches (lower hostname) pattern := by
    simp only [Bool.not_eq_true', List.any_eq_false, List.mem_filterMap, excluded?_eq_some_iff,
      exists_eq_right, patternMatches_iff]
  have hnone : (patterns.filter fun pattern => (excluded? pattern).isNone).isEmpty = true ↔
      ∀ pattern ∈ patterns, ¬ IsInclusion pattern := by
    simp only [List.isEmpty_iff, List.filter_eq_nil_iff, Option.isNone_iff_eq_none,
      excluded?_eq_none_iff]
  have hinclusion : (patterns.filter fun pattern => (excluded? pattern).isNone).any
        (patternMatches · (lower hostname)) = true ↔
      ∃ pattern ∈ patterns, IsInclusion pattern ∧ Matches (lower hostname) pattern := by
    simp only [List.any_filter, List.any_eq_true, Bool.and_eq_true, Option.isNone_iff_eq_none,
      excluded?_eq_none_iff, patternMatches_iff]
  unfold accepts
  simp only [Bool.and_eq_true, Bool.or_eq_true, hexclusion, hnone, hinclusion]
  exact ⟨fun ⟨hnot, hin⟩ => ⟨hnot, hin⟩, fun ⟨hnot, hin⟩ => ⟨hnot, hin⟩⟩

/-- The mark alone excludes every host, and a second mark is part of the pattern. -/
example : accepts ["a".toList, "!".toList] "a".toList = false ∧
    accepts ["!!a".toList] "a".toList = true := by
  decide +kernel

namespace Permits

variable {patterns others front back : List (List Char)} {pattern host : List Char}

theorem congr (h : ∀ pattern, pattern ∈ patterns ↔ pattern ∈ others) :
    Permits patterns host ↔ Permits others host := by
  constructor
  · rintro ⟨hexclusion, hinclusion⟩
    refine ⟨fun pattern hmem => hexclusion pattern ((h _).mpr hmem), ?_⟩
    simpa only [h] using hinclusion
  · rintro ⟨hexclusion, hinclusion⟩
    refine ⟨fun pattern hmem => hexclusion pattern ((h _).mp hmem), ?_⟩
    simpa only [h] using hinclusion

theorem mem_insert_iff {other : List Char} :
    other ∈ front ++ pattern :: back ↔ other = pattern ∨ other ∈ front ++ back := by
  simp only [List.mem_append, List.mem_cons, or_left_comm]

theorem of_exclusion (h : Permits (front ++ ('!' :: pattern) :: back) host) :
    Permits (front ++ back) host := by
  constructor
  · intro excluded hmem
    exact h.exclusion excluded (mem_insert_iff.mpr (.inr hmem))
  · rcases h.inclusion with hnone | ⟨included, hmem, hin, hmatches⟩
    · exact .inl fun other hmem => hnone other (mem_insert_iff.mpr (.inr hmem))
    · rcases mem_insert_iff.mp hmem with rfl | hmem
      · exact absurd hin (not_isInclusion_exclusion pattern)
      · exact .inr ⟨included, hmem, hin, hmatches⟩

theorem insert_exclusion (h : Permits (front ++ back) host) (hpattern : ¬ Matches host pattern) :
    Permits (front ++ ('!' :: pattern) :: back) host := by
  constructor
  · intro excluded hmem
    rcases mem_insert_iff.mp hmem with heq | hmem
    · rwa [(List.cons.inj heq).2]
    · exact h.exclusion excluded hmem
  · rcases h.inclusion with hnone | ⟨included, hmem, hin⟩
    · refine .inl fun other hmem => ?_
      rcases mem_insert_iff.mp hmem with rfl | hmem
      · exact not_isInclusion_exclusion pattern
      · exact hnone other hmem
    · exact .inr ⟨included, mem_insert_iff.mpr (.inr hmem), hin⟩

theorem insert_inclusion (h : Permits (front ++ back) host) (hpattern : IsInclusion pattern)
    (hother : ∃ other ∈ front ++ back, IsInclusion other) :
    Permits (front ++ pattern :: back) host := by
  constructor
  · intro excluded hmem
    rcases mem_insert_iff.mp hmem with rfl | hmem
    · exact absurd hpattern (not_isInclusion_exclusion excluded)
    · exact h.exclusion excluded hmem
  · obtain ⟨other, hother, hin⟩ := hother
    rcases h.inclusion with hnone | ⟨included, hmem, hin, hmatches⟩
    · exact absurd hin (hnone other hother)
    · exact .inr ⟨included, mem_insert_iff.mpr (.inr hmem), hin, hmatches⟩

end Permits

/-! ## One by one -/

/-- Reads the patterns one by one, after some inclusions. An exclusion that matches ends the
reading. -/
def acceptsFrom (host : List Char) (included : List (List Char)) : List (List Char) → Bool
  | [] => included.isEmpty || included.any (patternMatches · host)
  | pattern :: rest =>
    match excluded? pattern with
    | some excluded => if patternMatches excluded host then false else acceptsFrom host included rest
    | none => acceptsFrom host (included ++ [pattern]) rest

theorem acceptsFrom_iff_permits {host : List Char} {included patterns : List (List Char)}
    (h : ∀ pattern ∈ included, IsInclusion pattern) :
    acceptsFrom host included patterns = true ↔ Permits (included ++ patterns) host := by
  induction patterns generalizing included with
  | nil =>
    rw [acceptsFrom, List.append_nil, Bool.or_eq_true]
    simp only [List.isEmpty_iff, List.any_eq_true, patternMatches_iff]
    constructor
    · rintro (rfl | ⟨pattern, hmem, hmatches⟩)
      · exact ⟨by simp, .inl (by simp)⟩
      · refine ⟨?_, .inr ⟨pattern, hmem, h pattern hmem, hmatches⟩⟩
        intro excluded hexcluded
        exact absurd (h _ hexcluded) (not_isInclusion_exclusion excluded)
    · rintro ⟨-, hnone | ⟨pattern, hmem, -, hmatches⟩⟩
      · refine .inl (List.eq_nil_iff_forall_not_mem.mpr ?_)
        intro pattern hmem
        exact hnone pattern hmem (h pattern hmem)
      · exact .inr ⟨pattern, hmem, hmatches⟩
  | cons pattern rest ih =>
    rw [acceptsFrom]
    split
    · next excluded hexcluded =>
      obtain rfl := excluded?_eq_some_iff.mp hexcluded
      split
      · next hmatches =>
        refine ⟨fun hfalse => (by cases hfalse), fun hpermits => ?_⟩
        exact absurd (patternMatches_iff.mp hmatches) (hpermits.exclusion excluded (by simp))
      · next hmatches =>
        rw [patternMatches_iff] at hmatches
        rw [ih h]
        exact ⟨fun hpermits => hpermits.insert_exclusion hmatches, Permits.of_exclusion⟩
    · next hincluded =>
      have hlonger : ∀ other ∈ included ++ [pattern], IsInclusion other := by
        intro other hmem
        rcases List.mem_append.mp hmem with hmem | hmem
        · exact h other hmem
        · rw [List.mem_singleton.mp hmem]
          exact excluded?_eq_none_iff.mp hincluded
      rw [ih hlonger, List.append_assoc, List.singleton_append]

/-! ## The answer -/

/-- What the answer for a host depends on, and what it does not. -/
structure Rule (hostname : List Char) : Prop where
  permits : ∀ patterns, accepts patterns hostname = true ↔ Permits patterns (lower hostname)
  one_by_one : ∀ patterns, accepts patterns hostname = acceptsFrom (lower hostname) [] patterns
  /-- Neither order nor repetition counts. -/
  order : ∀ patterns others, (∀ pattern, pattern ∈ patterns ↔ pattern ∈ others) →
    accepts patterns hostname = accepts others hostname
  exclusion : ∀ front pattern back, accepts (front ++ ('!' :: pattern) :: back) hostname = true →
    accepts (front ++ back) hostname = true
  inclusion : ∀ front pattern back, IsInclusion pattern →
    (∃ other ∈ front ++ back, IsInclusion other) → accepts (front ++ back) hostname = true →
    accepts (front ++ pattern :: back) hostname = true

theorem rule_of_hostname (hostname : List Char) : Rule hostname where
  permits _ := accepts_iff_permits
  one_by_one patterns := by
    rw [Bool.eq_iff_iff, accepts_iff_permits, acceptsFrom_iff_permits (by simp), List.nil_append]
  order patterns others h := by
    rw [Bool.eq_iff_iff, accepts_iff_permits, accepts_iff_permits]
    exact Permits.congr h
  exclusion front pattern back h := by
    rw [accepts_iff_permits] at h ⊢
    exact h.of_exclusion
  inclusion front pattern back hpattern hother h := by
    rw [accepts_iff_permits] at h ⊢
    exact h.insert_inclusion hpattern hother

end Provision.Host
