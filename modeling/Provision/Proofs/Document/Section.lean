import Mathlib.Data.List.TakeWhile
import Provision.Proofs.Document.Consistent

/-!
# Sections of a document

A section is a unit line with the indented lines below it. A reader that puts a unit into the
catalog at the next unit line, or at the end, does the same as one that does so after each section.
-/

namespace Provision.Document

open Text

/-- A line that declares a unit. -/
def Line.IsHead (line : Line) : Prop := line.isBlank = false ∧ line.isIndented = false

instance : DecidablePred Line.IsHead := fun _ => inferInstanceAs (Decidable (_ ∧ _))

/-- A unit line and the indented lines below it. -/
structure Section where
  head : Line
  block : List Line

namespace Section

def lines (part : Section) : List Line := part.head :: part.block

def name (part : Section) : List Char := (Reading.declared part.head.text).1

def opens (part : Section) : Bool := (Reading.declared part.head.text).2

def directives (part : Section) : Directives := part.block.filterMap Reading.directive?

structure Shaped (part : Section) : Prop where
  head : part.head.IsHead
  block : ∀ line ∈ part.block, line.isBlank = false ∧ line.isIndented = true

end Section

/-- Every unit line with the indented lines below it. Indented lines before all of them are lost. -/
def sections : List Line → List Section
  | [] => []
  | line :: rest =>
    if line.isIndented then sections rest
    else ⟨line, rest.takeWhile Line.isIndented⟩ :: sections rest

theorem mem_sections_iff {part : Section} {lines : List Line} :
    part ∈ sections lines ↔ ∃ before after, lines = before ++ part.head :: after ∧
      part.head.isIndented = false ∧ part.block = after.takeWhile Line.isIndented := by
  induction lines with
  | nil => simp [sections]
  | cons line rest ih =>
    have hlater : (∃ before after, line :: rest = before ++ part.head :: after ∧
        part.head.isIndented = false ∧ part.block = after.takeWhile Line.isIndented) ↔
          (line = part.head ∧ part.head.isIndented = false ∧
            part.block = rest.takeWhile Line.isIndented) ∨ part ∈ sections rest := by
      rw [ih]
      constructor
      · rintro ⟨before, after, hsplit, hhead, hblock⟩
        cases before with
        | nil =>
          obtain ⟨rfl, rfl⟩ := List.cons.inj hsplit
          exact .inl ⟨rfl, hhead, hblock⟩
        | cons _ before =>
          obtain ⟨rfl, rfl⟩ := List.cons.inj hsplit
          exact .inr ⟨before, after, rfl, hhead, hblock⟩
      · rintro (⟨rfl, hhead, hblock⟩ | ⟨before, after, rfl, hhead, hblock⟩)
        · exact ⟨[], rest, rfl, hhead, hblock⟩
        · exact ⟨line :: before, after, rfl, hhead, hblock⟩
    rw [hlater, sections]
    split
    · next hindented =>
      refine ⟨.inr, ?_⟩
      rintro (⟨rfl, hhead, -⟩ | hmem)
      · simp [hindented] at hhead
      · exact hmem
    · next hindented =>
      rw [List.mem_cons]
      refine or_congr ⟨?_, ?_⟩ Iff.rfl
      · rintro rfl
        exact ⟨rfl, by simpa using hindented, rfl⟩
      · rintro ⟨rfl, -, hblock⟩
        cases part
        simp_all

theorem takeWhile_append_sections (lines : List Line) :
    lines.takeWhile Line.isIndented ++ (sections lines).flatMap Section.lines = lines := by
  induction lines with
  | nil => rfl
  | cons line rest ih =>
    rw [sections]
    by_cases hindented : line.isIndented
    · simp [hindented, ih]
    · simp [hindented, Section.lines, ih]

theorem map_head_sections (lines : List Line) :
    (sections lines).map Section.head = lines.filter fun line => !line.isIndented := by
  induction lines with
  | nil => rfl
  | cons line rest ih =>
    rw [sections]
    by_cases hindented : line.isIndented <;> simp [hindented, ih]

theorem shaped_of_mem_sections {lines : List Line} (h : ∀ line ∈ lines, line.isBlank = false)
    {part : Section} (hmem : part ∈ sections lines) : part.Shaped := by
  obtain ⟨before, after, rfl, hhead, hblock⟩ := mem_sections_iff.mp hmem
  refine ⟨⟨h _ (by simp), hhead⟩, fun line hline => ?_⟩
  rw [hblock] at hline
  refine ⟨h line ?_, List.mem_takeWhile_imp hline⟩
  exact List.mem_append_right _ (List.mem_cons_of_mem _ (List.takeWhile_subset _ hline))

/-! ## Reading a block -/

namespace Reading

section Steps

variable {sourcesDir : Path} {reading next final : Reading} {line : Line}

theorem feed_of_indented (hblank : line.isBlank = false) (hindented : line.isIndented = true) :
    reading.feed sourcesDir line = reading.directiveLine sourcesDir line := by
  simp [feed, hblank, hindented]

theorem feed_of_unit_line (hblank : line.isBlank = false) (hindented : line.isIndented = false) :
    reading.feed sourcesDir line = reading.unitLine line := by
  simp [feed, hblank, hindented]

theorem foldlM_feed_filter (lines : List Line) :
    (lines.filter fun line => !line.isBlank).foldlM (feed sourcesDir) reading =
      lines.foldlM (feed sourcesDir) reading := by
  induction lines generalizing reading with
  | nil => rfl
  | cons line rest ih =>
    by_cases hblank : line.isBlank
    · have hfeed : reading.feed sourcesDir line = .ok reading := by
        simp [feed, hblank]
      rw [List.filter_cons_of_neg (by simp [hblank]), ih, List.foldlM_cons, hfeed]
      rfl
    · rw [List.filter_cons_of_pos (by simp [hblank]), List.foldlM_cons, List.foldlM_cons]
      simp only [ih]

theorem foldlM_block_eq_ok_iff {block : List Line} (draft : Draft)
    (hblock : ∀ line ∈ block, line.isBlank = false ∧ line.isIndented = true)
    (hdraft : reading.draft? = some draft) :
    block.foldlM (feed sourcesDir) reading = .ok final ↔
      (∀ line ∈ block, (directive? line).isSome) ∧ (block ≠ [] → draft.block = true) ∧
        ∃ unit, applyAll sourcesDir draft.unit (block.filterMap directive?) = .ok unit ∧
          final = { reading with
            draft? := some { draft with unit, directives := draft.directives + block.length } } := by
  induction block generalizing reading draft with
  | nil =>
    constructor
    · intro h
      obtain rfl := Except.ok.inj h
      exact ⟨by simp, by simp, draft.unit, rfl, by simp [← hdraft]⟩
    · rintro ⟨-, -, unit, hunit, rfl⟩
      obtain rfl := Except.ok.inj hunit
      simp [← hdraft, pure, Except.pure]
  | cons line rest ih =>
    rw [List.forall_mem_cons] at hblock
    rw [foldlM_cons_eq_ok_iff]
    simp only [feed_of_indented hblock.1.1 hblock.1.2, directiveLine_eq_ok_iff]
    constructor
    · rintro ⟨_, ⟨key, value, other, mid, hline, hother, hopen, hmid, rfl⟩, hrest⟩
      obtain rfl : draft = other := by simpa [hdraft] using hother
      obtain ⟨hgiven, -, unit, hunit, rfl⟩ := (ih _ hblock.2 rfl).mp hrest
      refine ⟨List.forall_mem_cons.mpr ⟨by simp [hline], hgiven⟩, fun _ => hopen, unit, ?_, ?_⟩
      · rw [List.filterMap_cons_some hline]
        exact foldlM_cons_eq_ok_iff.mpr ⟨mid, hmid, hunit⟩
      · simp [Nat.add_assoc, Nat.add_comm 1]
    · rintro ⟨hgiven, hopen, unit, hunit, rfl⟩
      rw [List.forall_mem_cons] at hgiven
      obtain ⟨⟨key, value⟩, hline⟩ := Option.isSome_iff_exists.mp hgiven.1
      rw [List.filterMap_cons_some hline] at hunit
      obtain ⟨mid, hmid, hunit⟩ := foldlM_cons_eq_ok_iff.mp hunit
      have hopen := hopen (by simp)
      refine ⟨_, ⟨key, value, draft, mid, hline, hdraft, hopen, hmid, rfl⟩, ?_⟩
      refine (ih { draft with unit := mid, directives := draft.directives + 1 } hblock.2 rfl).mpr
        ⟨hgiven.2, fun _ => hopen, unit, hunit, ?_⟩
      simp [Nat.add_assoc, Nat.add_comm 1]

/-! ## Closing the unit above -/

theorem draft?_of_close (h : reading.close = .ok next) : next.draft? = none := by
  rcases close_eq_ok_iff.mp h with ⟨hnone, rfl⟩ | ⟨_, -, -, -, rfl⟩
  · exact hnone
  · rfl

theorem close_of_draft? (h : reading.draft? = none) : reading.close = .ok reading :=
  close_eq_ok_iff.mpr (.inl ⟨h, rfl⟩)

theorem unitLine_iff_of_close (h : reading.close = .ok next) :
    reading.unitLine line = .ok final ↔ next.unitLine line = .ok final := by
  simp [unitLine_eq_ok_iff, h, close_of_draft? (draft?_of_close h)]

/-- From here on the lines are read, and the last unit is closed, without a fault. -/
def Accepts (sourcesDir : Path) (reading : Reading) (lines : List Line) : Prop :=
  ∃ final closed, lines.foldlM (feed sourcesDir) reading = .ok final ∧ final.close = .ok closed

theorem accepts_append_iff {front back : List Line} :
    Accepts sourcesDir reading (front ++ back) ↔
      ∃ mid, front.foldlM (feed sourcesDir) reading = .ok mid ∧ Accepts sourcesDir mid back := by
  unfold Accepts
  simp only [foldlM_append_eq_ok_iff]
  constructor
  · rintro ⟨final, closed, ⟨mid, hfront, hback⟩, hclose⟩
    exact ⟨mid, hfront, final, closed, hback, hclose⟩
  · rintro ⟨mid, hfront, final, closed, hback, hclose⟩
    exact ⟨final, closed, ⟨mid, hfront, hback⟩, hclose⟩

/-- The unit above a list of sections can be closed before they are read. -/
theorem accepts_sections_iff {parts : List Section} (hparts : ∀ part ∈ parts, part.Shaped) :
    Accepts sourcesDir reading (parts.flatMap Section.lines) ↔
      ∃ closed, reading.close = .ok closed ∧
        Accepts sourcesDir closed (parts.flatMap Section.lines) := by
  cases parts with
  | nil =>
    constructor
    · rintro ⟨final, closed, hfold, hclose⟩
      obtain rfl := Except.ok.inj hfold
      exact ⟨closed, hclose, closed, closed, rfl, close_of_draft? (draft?_of_close hclose)⟩
    · rintro ⟨closed, hclose, -⟩
      exact ⟨reading, closed, rfl, hclose⟩
  | cons part others =>
    -- The unit above is closed at the first line, which is a unit line.
    obtain ⟨hblank, hhead⟩ := (hparts part List.mem_cons_self).head
    rw [List.flatMap_cons, Section.lines, List.cons_append]
    simp only [Accepts, foldlM_cons_eq_ok_iff, feed_of_unit_line hblank hhead]
    constructor
    · rintro ⟨final, last, ⟨next, hnext, hrest⟩, hlast⟩
      obtain ⟨-, closed, hclose, -⟩ := unitLine_eq_ok_iff.mp hnext
      have hnext := (unitLine_iff_of_close hclose).mp hnext
      exact ⟨closed, hclose, final, last, ⟨next, hnext, hrest⟩, hlast⟩
    · rintro ⟨closed, hclose, final, last, ⟨next, hnext, hrest⟩, hlast⟩
      have hnext := (unitLine_iff_of_close hclose).mpr hnext
      exact ⟨final, last, ⟨next, hnext, hrest⟩, hlast⟩

end Steps

end Reading

/-! ## Reading a section -/

theorem name_applyDirective {sourcesDir : Path} {unit next : Installable} {key : Key}
    {value : List Char} (h : applyDirective sourcesDir unit key value = .ok next) :
    next.name = unit.name := by
  cases key with
  | hosts => rw [applyDirective_hosts h]
  | flags => rw [(applyDirective_flags h).1]
  | deb | pre | post | package => rw [(setOnce_eq_ok h).2]
  | repo => obtain ⟨-, ⟨-, rfl⟩ | rfl⟩ := applyDirective_repo h <;> rfl
  | source =>
    obtain ⟨-, entry, -, rfl⟩ := applyDirective_source h
    rfl

theorem name_applyAll {sourcesDir : Path} {unit next : Installable} {directives : Directives}
    (h : applyAll sourcesDir unit directives = .ok next) : next.name = unit.name := by
  refine foldlM_preserves (P := fun mid => mid.name = unit.name) ?_ rfl h
  intro mid pair after hmid hstep
  rw [name_applyDirective hstep, hmid]

/-- What must hold of a section alone. -/
structure Section.Good (part : Section) : Prop where
  name : IsUnitName part.name
  given : ∀ line ∈ part.block, (Reading.directive? line).isSome
  filled : part.opens = true ↔ part.block ≠ []
  consistent : Consistent part.directives

theorem trimEnd_of_directives {part : Section} {pair : Key × List Char}
    (h : pair ∈ part.directives) : trimEnd pair.2 = pair.2 := by
  obtain ⟨line, -, hline⟩ := List.mem_filterMap.mp h
  unfold Reading.directive? at hline
  split at hline
  · cases hline
  · split at hline
    · cases hline
    · obtain ⟨key, -, rfl⟩ := Option.map_eq_some_iff.mp hline
      exact trimEnd_idem _

namespace Reading

variable {sourcesDir : Path} {reading closed : Reading}

theorem close_section_iff {part : Section} (hpart : part.Shaped) (hdraft : reading.draft? = none) :
    (∃ final, part.lines.foldlM (feed sourcesDir) reading = .ok final ∧ final.close = .ok closed) ↔
      IsUnitName part.name ∧ String.ofList part.name ∉ reading.catalog.names ∧
        (∀ line ∈ part.block, (directive? line).isSome) ∧ (part.opens = true ↔ part.block ≠ []) ∧
        ∃ unit, applyAll sourcesDir { name := String.ofList part.name } part.directives = .ok unit ∧
          closed = ⟨⟨reading.catalog.entries ++ [⟨part.head.number, unit⟩]⟩, none⟩ := by
  rw [Section.lines]
  simp only [foldlM_cons_eq_ok_iff, feed_of_unit_line hpart.head.1 hpart.head.2,
    unitLine_eq_ok_iff, close_of_draft? hdraft, Except.ok.injEq, exists_eq_left',
    Catalog.entry?_eq_none_iff]
  constructor
  · rintro ⟨final, ⟨_, ⟨hunitName, hnew, rfl⟩, hblock⟩, hclose⟩
    obtain ⟨hgiven, hopens, unit, hunit, rfl⟩ := (foldlM_block_eq_ok_iff _ hpart.block rfl).mp hblock
    rcases close_eq_ok_iff.mp hclose with ⟨hnone, -⟩ | ⟨_, ⟨rfl⟩, hfilled, -, rfl⟩
    · cases hnone
    · refine ⟨hunitName, hnew, hgiven, ⟨?_, hopens⟩, unit, hunit, rfl⟩
      intro hopen
      simpa using hfilled hopen
  · rintro ⟨hunitName, hnew, hgiven, hopens, unit, hunit, rfl⟩
    refine ⟨_, ⟨_, ⟨hunitName, hnew, rfl⟩,
      (foldlM_block_eq_ok_iff _ hpart.block rfl).mpr ⟨hgiven, hopens.mpr, unit, hunit, rfl⟩⟩, ?_⟩
    refine close_eq_ok_iff.mpr (.inr ⟨_, rfl, ?_, ?_, rfl⟩)
    · intro hopen
      simpa using hopens.mp hopen
    · rw [Catalog.entry?_eq_none_iff, name_applyAll hunit]
      exact hnew

theorem accepts_cons_iff {part : Section} {others : List Section}
    (hothers : ∀ part ∈ others, part.Shaped) :
    Accepts sourcesDir reading ((part :: others).flatMap Section.lines) ↔
      ∃ closed, (∃ final, part.lines.foldlM (feed sourcesDir) reading = .ok final ∧
        final.close = .ok closed) ∧ Accepts sourcesDir closed (others.flatMap Section.lines) := by
  rw [List.flatMap_cons, accepts_append_iff]
  constructor
  · rintro ⟨final, hfold, hrest⟩
    obtain ⟨closed, hclose, hrest⟩ := (accepts_sections_iff hothers).mp hrest
    exact ⟨closed, ⟨final, hfold, hclose⟩, hrest⟩
  · rintro ⟨closed, ⟨final, hfold, hclose⟩, hrest⟩
    exact ⟨final, hfold, (accepts_sections_iff hothers).mpr ⟨closed, hclose, hrest⟩⟩

theorem accepts_iff {parts : List Section} (hparts : ∀ part ∈ parts, part.Shaped)
    (hdraft : reading.draft? = none) (hnodup : reading.catalog.names.Nodup) :
    Accepts sourcesDir reading (parts.flatMap Section.lines) ↔
      (∀ part ∈ parts, part.Good) ∧
        (reading.catalog.names ++ parts.map fun part => String.ofList part.name).Nodup := by
  induction parts generalizing reading with
  | nil =>
    simp only [List.flatMap_nil, Accepts, List.foldlM_nil, pure, Except.pure, Except.ok.injEq]
    simpa [hnodup] using ⟨reading, close_of_draft? hdraft⟩
  | cons part others ih =>
    rw [List.forall_mem_cons] at hparts
    rw [accepts_cons_iff hparts.2]
    have hgrown : (reading.catalog.names ++ [String.ofList part.name]).Nodup ↔
        String.ofList part.name ∉ reading.catalog.names := by
      rw [List.nodup_append_comm, List.singleton_append, List.nodup_cons]
      exact and_iff_left hnodup
    have hlonger : ∀ unit,
        applyAll sourcesDir { name := String.ofList part.name } part.directives = .ok unit →
          Catalog.names ⟨reading.catalog.entries ++ [⟨part.head.number, unit⟩]⟩ =
            reading.catalog.names ++ [String.ofList part.name] := by
      intro unit hunit
      rw [Catalog.names_snoc, name_applyAll hunit]
    constructor
    · rintro ⟨closed, hclosed, hrest⟩
      obtain ⟨hname, hnew, hgiven, hfilled, unit, hunit, rfl⟩ :=
        (close_section_iff hparts.1 hdraft).mp hclosed
      have hnames := hgrown.mpr hnew
      rw [← hlonger unit hunit] at hnames
      obtain ⟨hgood, hdistinct⟩ := (ih hparts.2 rfl hnames).mp hrest
      rw [hlonger unit hunit] at hdistinct
      have hconsistent := (consistent_of_applyAll hunit).1
      refine ⟨List.forall_mem_cons.mpr ⟨⟨hname, hgiven, hfilled, hconsistent⟩, hgood⟩, ?_⟩
      rw [List.map_cons, List.append_cons]
      exact hdistinct
    · rintro ⟨hgood, hdistinct⟩
      rw [List.forall_mem_cons] at hgood
      obtain ⟨⟨hname, hgiven, hfilled, hconsistent⟩, hgood⟩ := hgood
      obtain ⟨unit, hunit⟩ := exists_applyAll sourcesDir (String.ofList part.name)
        (fun _ => trimEnd_of_directives) hconsistent
      rw [List.map_cons, List.append_cons] at hdistinct
      have hnames := hdistinct.of_append_left
      have hnew := hgrown.mp hnames
      refine ⟨_, (close_section_iff hparts.1 hdraft).mpr
        ⟨hname, hnew, hgiven, hfilled, unit, hunit, rfl⟩, ?_⟩
      rw [← hlonger unit hunit] at hnames hdistinct
      exact (ih hparts.2 rfl hnames).mpr ⟨hgood, hdistinct⟩

end Reading
end Provision.Document
