import Mathlib.Data.List.DropRight
import Provision.Proofs.Document.Section
import Provision.Proofs.Text.Lower

/-!
# The grammar of documents

What a document must be to be accepted, as a condition on its lines that does not speak of reading
them. `parse` accepts a document if and only if its lines satisfy it.
-/

namespace Provision.Document

open Text

/-! ## Directives -/

/-- A line that is a key, a colon and a value, both without the blanks around them. -/
def IsDirective (line : Line) (key : Key) (value : List Char) : Prop :=
  ∃ before after, line.text = before ++ ':' :: after ∧ ':' ∉ before ∧
    lower (trim before) = key.token.toList ∧ trim after = value ∧ value ≠ []

theorem ofText?_lower_eq_some_iff {s : List Char} {key : Key} :
    Key.ofText? (lower s) = some key ↔ lower s = key.token.toList := by
  unfold Key.ofText?
  rw [map_toLower_lower]
  constructor
  · intro h
    simpa [eq_comm] using List.find?_some h
  · intro h
    rw [h, ← Key.ofText?_token key]
    unfold Key.ofText?
    have hplain : key.token.toList.map Char.toLower = key.token.toList := by
      rw [← h, map_toLower_lower]
    rw [hplain]

theorem cut?_trimStart {p : Char → Bool} (hp : ∀ c, p c = true → isBlank c = false)
    (s : List Char) :
    cut? p (trimStart s) = (cut? p s).map fun (before, after) => (trimStart before, after) := by
  induction s with
  | nil => rfl
  | cons c rest ih =>
    by_cases hblank : isBlank c
    · have hc : p c = false := by
        by_contra h
        simp [hp c (by simpa using h)] at hblank
      have hskip : ∀ t, trimStart (c :: t) = trimStart t := by simp [trimStart, hblank]
      rw [hskip, ih, cut?, if_neg (by simp [hc]), Option.map_map]
      congr 1
      funext pair
      simp [hskip]
    · have hkeep : ∀ t, trimStart (c :: t) = c :: t := by simp [trimStart, hblank]
      rw [hkeep, cut?]
      split
      · simp [trimStart]
      · rw [Option.map_map]
        congr 1
        funext pair
        simp [hkeep]

theorem cut?_of_not_mem {mark : Char} {before : List Char} (h : mark ∉ before)
    (after : List Char) : cut? (· = mark) (before ++ mark :: after) = some (before, after) := by
  refine cut?_append_cons ?_ (by simp)
  intro c hc
  refine decide_eq_false ?_
  rintro rfl
  exact h hc

theorem trim_trimStart (s : List Char) : trim (trimStart s) = trim s := by
  unfold trim trimStart
  rw [List.dropWhile_idempotent]

theorem directive?_eq_some_iff {line : Line} {key : Key} {value : List Char} :
    Reading.directive? line = some (key, value) ↔ IsDirective line key value := by
  unfold Reading.directive? IsDirective
  rw [cut?_trimStart (by simp; decide)]
  constructor
  · intro h
    cases hcut : cut? (· = ':') line.text with
    | none => simp [hcut] at h
    | some pair =>
      obtain ⟨before, after⟩ := pair
      obtain ⟨c, hc, hsplit, hfree⟩ := cut?_eq_some hcut
      simp only [decide_eq_true_eq] at hc
      subst hc
      simp only [hcut, Option.map_some, trim_trimStart] at h
      split at h
      · cases h
      · next hvalue =>
        obtain ⟨known, hknown, hpair⟩ := Option.map_eq_some_iff.mp h
        obtain ⟨rfl, rfl⟩ := Prod.mk.inj hpair
        refine ⟨before, after, hsplit, ?_, ofText?_lower_eq_some_iff.mp hknown, rfl, ?_⟩
        · intro hmem
          simpa using hfree _ hmem
        · simpa using hvalue
  · rintro ⟨before, after, hsplit, hfree, hkey, rfl, hvalue⟩
    have hcut : cut? (· = ':') line.text = some (before, after) := by
      rw [hsplit, cut?_of_not_mem hfree]
    simp [hcut, trim_trimStart, hvalue, ofText?_lower_eq_some_iff.mpr hkey]

/-! ## Documents -/

/-- Whether a line at the margin ends in a colon, so that directives must follow. -/
def Opens (head : Line) : Prop := head.text.getLast? = some ':'

/-- The name a line at the margin gives: what is left of it without a colon at its end. -/
def nameOf (head : Line) : List Char := (Reading.declared head.text).1

/-- The line at the margin that is the nearest above. -/
def headOf? (above : List Line) : Option Line := above.reverse.find? fun line => !line.isIndented

/-- The grammar of the lines of a document that are not blank. -/
structure Grammatical (lines : List Line) : Prop where
  directive : ∀ line ∈ lines, line.isIndented = true → ∃ key value, IsDirective line key value
  name : ∀ line ∈ lines, line.isIndented = false → IsUnitName (nameOf line)
  inside : ∀ above line below, lines = above ++ line :: below → line.isIndented = true →
    ∃ head, headOf? above = some head ∧ Opens head
  filled : ∀ above head below, lines = above ++ head :: below → head.isIndented = false →
    Opens head → below.takeWhile Line.isIndented ≠ []
  distinct : ((lines.filter fun line => !line.isIndented).map nameOf).Nodup
  consistent : ∀ above head below, lines = above ++ head :: below → head.isIndented = false →
    Consistent ((below.takeWhile Line.isIndented).filterMap Reading.directive?)

theorem opens_iff {part : Section} : part.opens = true ↔ Opens part.head := by
  unfold Section.opens Reading.declared Opens
  split <;> simp_all

theorem isIndented_of_takeWhile_ne_nil {line : Line} {rest : List Line}
    (h : (line :: rest).takeWhile Line.isIndented ≠ []) : line.isIndented = true := by
  by_contra hnot
  simp [hnot] at h

theorem headOf?_snoc {above : List Line} {head : Line} (h : head.isIndented = false) :
    headOf? (above ++ [head]) = some head := by
  simp [headOf?, h]

theorem good_of_grammatical {lines : List Line} (h : Grammatical lines) {part : Section}
    (hmem : part ∈ sections lines) : part.Good := by
  obtain ⟨above, below, hsplit, hhead, hblock⟩ := mem_sections_iff.mp hmem
  have hin : part.head ∈ lines := by simp [hsplit]
  refine ⟨h.name _ hin hhead, ?_, ⟨?_, ?_⟩, ?_⟩
  · intro line hline
    rw [hblock] at hline
    have hbelow : line ∈ lines := by
      rw [hsplit]
      exact List.mem_append_right _ (List.mem_cons_of_mem _ (List.takeWhile_subset _ hline))
    obtain ⟨key, value, hgiven⟩ := h.directive line hbelow (List.mem_takeWhile_imp hline)
    rw [directive?_eq_some_iff.mpr hgiven]
    rfl
  · intro hopens
    rw [hblock]
    exact h.filled above part.head below hsplit hhead (opens_iff.mp hopens)
  · intro hne
    rw [hblock] at hne
    cases below with
    | nil => simp at hne
    | cons line below =>
      have hline := isIndented_of_takeWhile_ne_nil hne
      have hsplit' : lines = (above ++ [part.head]) ++ line :: below := by simp [hsplit]
      obtain ⟨head, hnearest, hopens⟩ := h.inside _ line below hsplit' hline
      rw [headOf?_snoc hhead] at hnearest
      obtain rfl := Option.some.inj hnearest
      exact opens_iff.mpr hopens
  · unfold Section.directives
    rw [hblock]
    exact h.consistent above part.head below hsplit hhead

theorem exists_headOf? {above below : List Line} {line : Line}
    (h : (above ++ line :: below).takeWhile Line.isIndented = []) (hline : line.isIndented = true) :
    ∃ part ∈ sections (above ++ line :: below), headOf? above = some part.head ∧ part.block ≠ [] := by
  cases hnearest : headOf? above with
  | none =>
    -- Then the first line of all is indented, which `h` rules out.
    have hall : ∀ other ∈ above, other.isIndented = true := by
      simpa [headOf?] using hnearest
    rw [List.takeWhile_append_of_pos hall] at h
    simp [hline] at h
  | some head =>
    obtain ⟨hhead, low, high, hsplit, hlow⟩ := List.find?_eq_some_iff_append.mp hnearest
    have habove : above = high.reverse ++ head :: low.reverse := by
      rw [← List.reverse_reverse above, hsplit]
      simp
    have hindented : ∀ other ∈ low.reverse, other.isIndented = true := by
      simpa using hlow
    refine ⟨⟨head, (low.reverse ++ line :: below).takeWhile Line.isIndented⟩, ?_, rfl, ?_⟩
    · refine mem_sections_iff.mpr ⟨high.reverse, low.reverse ++ line :: below, ?_, ?_, rfl⟩
      · simp [habove]
      · simpa using hhead
    · rw [List.takeWhile_append_of_pos hindented]
      simp [hline]

theorem grammatical_of_good {lines : List Line} (hlead : lines.takeWhile Line.isIndented = [])
    (hgood : ∀ part ∈ sections lines, part.Good)
    (hdistinct : ((lines.filter fun line => !line.isIndented).map nameOf).Nodup) :
    Grammatical lines := by
  constructor
  case directive =>
    intro line hline hindented
    have hlines := takeWhile_append_sections lines
    rw [hlead, List.nil_append] at hlines
    rw [← hlines, List.mem_flatMap] at hline
    obtain ⟨part, hpart, hline⟩ := hline
    rcases List.mem_cons.mp hline with rfl | hline
    · obtain ⟨_, _, -, hhead, -⟩ := mem_sections_iff.mp hpart
      simp [hindented] at hhead
    · obtain ⟨⟨key, value⟩, hgiven⟩ := Option.isSome_iff_exists.mp ((hgood part hpart).given line hline)
      exact ⟨key, value, directive?_eq_some_iff.mp hgiven⟩
  case name =>
    intro line hline hmargin
    have hhead : line ∈ (sections lines).map Section.head := by
      rw [map_head_sections]
      simp [hline, hmargin]
    obtain ⟨part, hpart, rfl⟩ := List.mem_map.mp hhead
    exact (hgood part hpart).name
  case inside =>
    rintro above line below rfl hindented
    obtain ⟨part, hpart, hnearest, hne⟩ := exists_headOf? hlead hindented
    exact ⟨part.head, hnearest, opens_iff.mp ((hgood part hpart).filled.mpr hne)⟩
  case filled =>
    intro above head below hsplit hmargin hopens
    have hpart : ⟨head, below.takeWhile Line.isIndented⟩ ∈ sections lines :=
      mem_sections_iff.mpr ⟨above, below, hsplit, hmargin, rfl⟩
    exact (hgood _ hpart).filled.mp (opens_iff.mpr hopens)
  case distinct => exact hdistinct
  case consistent =>
    intro above head below hsplit hmargin
    have hpart : ⟨head, below.takeWhile Line.isIndented⟩ ∈ sections lines :=
      mem_sections_iff.mpr ⟨above, below, hsplit, hmargin, rfl⟩
    exact (hgood _ hpart).consistent

/-- A document is grammatical if no indented line stands before all sections, and the sections are
good and have different names. -/
theorem grammatical_iff {lines : List Line} :
    Grammatical lines ↔ lines.takeWhile Line.isIndented = [] ∧
      (∀ part ∈ sections lines, part.Good) ∧ ((sections lines).map Section.name).Nodup := by
  have hnames : (sections lines).map Section.name =
      (lines.filter fun line => !line.isIndented).map nameOf := by
    rw [← map_head_sections, List.map_map]
    rfl
  constructor
  · intro h
    refine ⟨?_, fun part => good_of_grammatical h, hnames ▸ h.distinct⟩
    cases lines with
    | nil => rfl
    | cons line rest =>
      by_contra hne
      have hline := isIndented_of_takeWhile_ne_nil hne
      obtain ⟨head, hnearest, -⟩ := h.inside [] line rest rfl hline
      cases hnearest
  · rintro ⟨hlead, hgood, hdistinct⟩
    exact grammatical_of_good hlead hgood (hnames ▸ hdistinct)

/-! ## Acceptance -/

section Accept

variable {sourcesDir : Path} {lines : List Line}

theorem exists_ofLines_iff :
    (∃ catalog, ofLines sourcesDir lines = .ok catalog) ↔ Reading.Accepts sourcesDir {} lines := by
  simp only [ofLines_eq_ok_iff]
  constructor
  · rintro ⟨_, reading, closed, hfold, hclose, rfl⟩
    exact ⟨reading, closed, hfold, hclose⟩
  · rintro ⟨reading, closed, hfold, hclose⟩
    exact ⟨closed.catalog, reading, closed, hfold, hclose, rfl⟩

theorem accepts_filter_iff :
    Reading.Accepts sourcesDir {} (lines.filter fun line => !line.isBlank) ↔
      Reading.Accepts sourcesDir {} lines := by
  unfold Reading.Accepts
  simp only [Reading.foldlM_feed_filter]

theorem takeWhile_eq_nil_of_accepts (hblank : ∀ line ∈ lines, line.isBlank = false)
    (h : Reading.Accepts sourcesDir {} lines) : lines.takeWhile Line.isIndented = [] := by
  cases lines with
  | nil => rfl
  | cons line rest =>
    by_contra hne
    have hline := isIndented_of_takeWhile_ne_nil hne
    obtain ⟨_, _, hfold, -⟩ := h
    obtain ⟨next, hnext, -⟩ := foldlM_cons_eq_ok_iff.mp hfold
    rw [Reading.feed_of_indented (hblank line List.mem_cons_self) hline] at hnext
    obtain ⟨_, _, _, _, -, hdraft, -⟩ := Reading.directiveLine_eq_ok_iff.mp hnext
    cases hdraft

theorem accepts_iff_grammatical (hblank : ∀ line ∈ lines, line.isBlank = false) :
    Reading.Accepts sourcesDir {} lines ↔ Grammatical lines := by
  rw [grammatical_iff]
  by_cases hlead : lines.takeWhile Line.isIndented = []
  · have hlines := takeWhile_append_sections lines
    rw [hlead, List.nil_append] at hlines
    have hsections : Reading.Accepts sourcesDir {} ((sections lines).flatMap Section.lines) ↔ _ :=
      Reading.accepts_iff (fun part hpart => shaped_of_mem_sections hblank hpart) rfl List.nodup_nil
    have hnames : (sections lines).map (fun part => String.ofList part.name) =
        ((sections lines).map Section.name).map String.ofList := by
      rw [List.map_map]
      rfl
    rw [hlines, hnames] at hsections
    rw [hsections, and_iff_right hlead]
    refine and_congr_right fun _ => ?_
    exact List.nodup_map_iff fun _ _ => String.ofList_inj.mp
  · refine iff_of_false ?_ fun h => hlead h.1
    exact fun h => hlead (takeWhile_eq_nil_of_accepts hblank h)

end Accept

/-- A text is accepted if and only if its lines that are not blank are grammatical. -/
theorem parse_accepts_iff (sourcesDir : Path) (text : List Char) :
    (∃ catalog, parse sourcesDir text = .ok catalog) ↔
      Grammatical ((logicalLines text).filter fun line => !line.isBlank) := by
  unfold parse
  rw [exists_ofLines_iff, ← accepts_filter_iff, accepts_iff_grammatical]
  simp

end Provision.Document
