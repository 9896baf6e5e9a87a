import Mathlib.Data.List.Forall2
import Provision.Proofs.Document.Grammar
import Provision.Proofs.Document.Partition

/-!
# The entries of a document

An accepted document has one entry for each of its sections, in their order. The entry stands under
the number of the section's first line, and its unit is what the directives of the section make of
a fresh one.
-/

namespace Provision.Document

open Text

/-! ## Line numbers -/

theorem numbers_increase (text : List Char) :
    ((logicalLines text).map Line.number).Pairwise (· < ·) := by
  have hnext : (logicalLines text).IsChain fun line next => line.number < next.number := by
    refine List.isChain_iff_forall_rel_of_append_cons_cons.mpr fun line next above below h => ?_
    have hnumber := number_of_next_line h
    omega
  exact ((List.isChain_map Line.number).mpr hnext).pairwise

/-! ## One entry for each section -/

/-- The entry that a section makes. -/
structure Section.Makes (sourcesDir : Path) (part : Section) (entry : Entry) : Prop where
  line : entry.line = part.head.number
  good : part.Good
  unit : applyAll sourcesDir { name := String.ofList part.name } part.directives = .ok entry.unit

theorem Section.Makes.name_eq {sourcesDir : Path} {part : Section} {entry : Entry}
    (h : part.Makes sourcesDir entry) : entry.unit.name = String.ofList part.name :=
  name_applyAll h.unit

namespace Reading

variable {sourcesDir : Path} {reading final closed : Reading}

/-- The unit above a list of sections can be closed before they are read, with the same result. -/
theorem exists_close_before_sections {parts : List Section} (hparts : ∀ part ∈ parts, part.Shaped)
    (hfold : (parts.flatMap Section.lines).foldlM (feed sourcesDir) reading = .ok final)
    (hclose : final.close = .ok closed) :
    ∃ between last, reading.close = .ok between ∧
      (parts.flatMap Section.lines).foldlM (feed sourcesDir) between = .ok last ∧
        last.close = .ok closed := by
  cases parts with
  | nil =>
    obtain rfl := Except.ok.inj hfold
    exact ⟨closed, closed, hclose, rfl, close_of_draft? (draft?_of_close hclose)⟩
  | cons part others =>
    obtain ⟨hblank, hhead⟩ := (hparts part List.mem_cons_self).head
    rw [List.flatMap_cons, Section.lines, List.cons_append, foldlM_cons_eq_ok_iff,
      feed_of_unit_line hblank hhead] at hfold
    obtain ⟨next, hnext, hrest⟩ := hfold
    obtain ⟨-, between, hbetween, -⟩ := unitLine_eq_ok_iff.mp hnext
    refine ⟨between, final, hbetween, ?_, hclose⟩
    rw [List.flatMap_cons, Section.lines, List.cons_append, foldlM_cons_eq_ok_iff,
      feed_of_unit_line hblank hhead]
    exact ⟨next, (unitLine_iff_of_close hbetween).mp hnext, hrest⟩

theorem entries_of_sections {parts : List Section} (hparts : ∀ part ∈ parts, part.Shaped)
    (hdraft : reading.draft? = none)
    (hfold : (parts.flatMap Section.lines).foldlM (feed sourcesDir) reading = .ok final)
    (hclose : final.close = .ok closed) :
    ∃ made, closed.catalog.entries = reading.catalog.entries ++ made ∧
      List.Forall₂ (Section.Makes sourcesDir) parts made := by
  induction parts generalizing reading final with
  | nil =>
    obtain rfl := Except.ok.inj hfold
    obtain rfl : reading = closed := by simpa [close_of_draft? hdraft] using hclose
    exact ⟨[], by simp, .nil⟩
  | cons part others ih =>
    rw [List.forall_mem_cons] at hparts
    rw [List.flatMap_cons, foldlM_append_eq_ok_iff] at hfold
    obtain ⟨read, hread, hrest⟩ := hfold
    obtain ⟨between, last, hbetween, hothers, hlast⟩ :=
      exists_close_before_sections hparts.2 hrest hclose
    obtain ⟨hname, -, hgiven, hfilled, unit, hunit, rfl⟩ :=
      (close_section_iff hparts.1 hdraft).mp ⟨read, hread, hbetween⟩
    obtain ⟨made, hmade, hall⟩ := ih hparts.2 rfl hothers hlast
    have hgood : part.Good := ⟨hname, hgiven, hfilled, (consistent_of_applyAll hunit).1⟩
    exact ⟨⟨part.head.number, unit⟩ :: made, by simp [hmade], .cons ⟨rfl, hgood, hunit⟩ hall⟩

end Reading

/-! ## Whole documents -/

section Lines

variable {sourcesDir : Path} {lines : List Line} {catalog : Catalog}

theorem isBlank_of_mem_filter {line : Line} (h : line ∈ lines.filter fun line => !line.isBlank) :
    line.isBlank = false := by
  simpa using (List.mem_filter.mp h).2

theorem sections_of_ofLines (h : ofLines sourcesDir lines = .ok catalog) :
    (sections (lines.filter fun line => !line.isBlank)).flatMap Section.lines =
      lines.filter fun line => !line.isBlank := by
  have haccepts := accepts_filter_iff.mpr (exists_ofLines_iff.mp ⟨catalog, h⟩)
  have hlead := takeWhile_eq_nil_of_accepts (fun _ => isBlank_of_mem_filter) haccepts
  simpa [hlead] using takeWhile_append_sections (lines.filter fun line => !line.isBlank)

theorem entries_of_ofLines (h : ofLines sourcesDir lines = .ok catalog) :
    List.Forall₂ (Section.Makes sourcesDir) (sections (lines.filter fun line => !line.isBlank))
      catalog.entries := by
  obtain ⟨final, closed, hfold, hclose, rfl⟩ := ofLines_eq_ok_iff.mp h
  rw [← Reading.foldlM_feed_filter, ← sections_of_ofLines h] at hfold
  have hshaped : ∀ part ∈ sections (lines.filter fun line => !line.isBlank), part.Shaped :=
    fun part => shaped_of_mem_sections fun _ => isBlank_of_mem_filter
  obtain ⟨made, hmade, hall⟩ := Reading.entries_of_sections hshaped rfl hfold hclose
  rw [hmade]
  exact hall

end Lines

/-- The lines of a text that are read: those that are not blank. -/
def filledLines (text : List Char) : List Line :=
  (logicalLines text).filter fun line => !line.isBlank

section Parse

variable {sourcesDir : Path} {text : List Char} {catalog : Catalog}

theorem isBlank_of_mem_filledLines {line : Line} (h : line ∈ filledLines text) :
    line.isBlank = false :=
  isBlank_of_mem_filter h

theorem sections_of_parse (h : parse sourcesDir text = .ok catalog) :
    (sections (filledLines text)).flatMap Section.lines = filledLines text :=
  sections_of_ofLines h

theorem entries_of_parse (h : parse sourcesDir text = .ok catalog) :
    List.Forall₂ (Section.Makes sourcesDir) (sections (filledLines text)) catalog.entries :=
  entries_of_ofLines h

theorem exists_section_of_mem {parts : List Section} {entries : List Entry} {entry : Entry}
    (h : List.Forall₂ (Section.Makes sourcesDir) parts entries) (hentry : entry ∈ entries) :
    ∃ part ∈ parts, part.Makes sourcesDir entry := by
  induction h with
  | nil => cases hentry
  | cons hmakes _ ih =>
    rcases List.mem_cons.mp hentry with rfl | hentry
    · exact ⟨_, List.mem_cons_self, hmakes⟩
    · obtain ⟨part, hpart, hmakes⟩ := ih hentry
      exact ⟨part, List.mem_cons_of_mem _ hpart, hmakes⟩

theorem lines_of_parse (h : parse sourcesDir text = .ok catalog) :
    catalog.entries.map Entry.line =
      ((filledLines text).filter fun line => !line.isIndented).map Line.number := by
  have hall : List.Forall₂ Eq (catalog.entries.map Entry.line)
      ((sections (filledLines text)).map fun part => part.head.number) := by
    rw [List.forall₂_map_left_iff, List.forall₂_map_right_iff]
    exact (entries_of_parse h).flip.imp fun _ _ hmakes => hmakes.line
  rw [List.forall₂_eq_eq_eq] at hall
  rw [hall, ← map_head_sections, List.map_map]
  rfl

theorem lines_increase (h : parse sourcesDir text = .ok catalog) :
    (catalog.entries.map Entry.line).Pairwise (· < ·) := by
  rw [lines_of_parse h]
  have hsub := (List.filter_sublist (p := fun line => !line.isIndented)).trans
    (List.filter_sublist (l := logicalLines text) (p := fun line => !line.isBlank))
  exact List.Pairwise.sublist (hsub.map Line.number) (numbers_increase text)

end Parse

end Provision.Document
