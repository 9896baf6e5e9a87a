import Mathlib.Data.List.Perm.Basic
import Mathlib.Data.String.Basic
import Provision.Proofs.Document.Content

/-!
# The order of directives

The directives of a unit may be written in any order. A document is accepted in one order if and
only if it is accepted in every other. Its entries are the same then, but for the order in which a
unit lists its repositories or its source files.
-/

namespace Provision

/-! ## Sets are filled in any order -/

namespace Sorted

section Order

variable {α : Type} [LT α] [DecidableLT α] [DecidableEq α] [IsStrictTotalOrder α (· < ·)]

theorem insert_insert_of_lt {a b : α} (hlt : a < b) (set : List α) :
    insert a (insert b set) = insert b (insert a set) := by
  have hne : ∀ {x y : α}, x < y → x ≠ y := by
    rintro x y hxy rfl
    exact irrefl x hxy
  have hba : ¬ b < a := asymm hlt
  induction set with
  | nil => simp [insert, hlt, hba, hne hlt, (hne hlt).symm]
  | cons c rest ih =>
    -- The smaller of the two goes at or before the place of the other.
    rcases trichotomous_of (· < ·) b c with hbc | rfl | hcb
    · have hac : a < c := trans_of (· < ·) hlt hbc
      simp [insert, hlt, hba, hbc, hac, hne hlt, (hne hlt).symm, hne hbc, hne hac]
    · simp [insert, hlt, hba, hne hlt, (hne hlt).symm]
    · have hbc : ¬ b < c := asymm hcb
      by_cases hca : a = c
      · subst hca
        simp [insert, hba, (hne hlt).symm]
      · by_cases hac : a < c <;>
          simp [insert, hba, hac, hca, hbc, ih, (hne hlt).symm, (hne hcb).symm]

theorem insert_comm (a b : α) (set : List α) :
    insert a (insert b set) = insert b (insert a set) := by
  rcases trichotomous_of (· < ·) a b with hlt | rfl | hlt
  · exact insert_insert_of_lt hlt set
  · rfl
  · exact (insert_insert_of_lt hlt set).symm

theorem ofList_perm {items others : List α} (h : items.Perm others) :
    ofList items = ofList others :=
  h.foldl_eq' (fun a _ b _ set => insert_comm b a set) []

end Order

end Sorted

instance : IsStrictTotalOrder Flag (· < ·) where
  irrefl a := Nat.lt_irrefl a.rank
  trans _ _ _ := Nat.lt_trans
  trichotomous a b := by cases a <;> cases b <;> decide

/-! ## Units that differ in the order of two lists -/

/-- The units are equal, but for the order of their repositories and of their source files. -/
structure Installable.SameUpToOrder (unit other : Installable) : Prop where
  repositories : unit.repositories.Perm other.repositories
  sources : unit.sources.Perm other.sources
  rest : other = { unit with repositories := other.repositories, sources := other.sources }

structure Entry.SameUpToOrder (entry other : Entry) : Prop where
  line : entry.line = other.line
  unit : entry.unit.SameUpToOrder other.unit

namespace Document

open Text

theorem valuesOf_perm {directives others : Directives} (h : directives.Perm others) (key : Key) :
    (valuesOf key directives).Perm (valuesOf key others) :=
  (h.filter _).map _

theorem textsOf_perm {directives others : Directives} (h : directives.Perm others) (key : Key) :
    (textsOf key directives).Perm (textsOf key others) :=
  (valuesOf_perm h key).map _

theorem isSourceFile_rightUnique (sourcesDir : Path) :
    Relator.RightUnique (IsSourceFile sourcesDir) := by
  rintro value entry other ⟨word, c, rest, file, hsplit, hword, hc, hfile, rfl⟩
    ⟨word', c', rest', file', hsplit', hword', hc', hfile', rfl⟩
  have hcut : cut? Text.isBlank (word ++ c :: rest) = some (word, rest) :=
    cut?_append_cons hword hc
  rw [← hsplit, hsplit', cut?_append_cons hword' hc'] at hcut
  obtain ⟨rfl, rfl⟩ := Prod.mk.inj (Option.some.inj hcut)
  obtain rfl : file' = file := Option.some.inj (hfile'.symm.trans hfile)
  rfl

theorem nodup_eraseDups {α : Type} [DecidableEq α] (items : List α) : items.eraseDups.Nodup := by
  induction items using List.reverseRecOn with
  | nil => simp
  | append_singleton front a ih =>
    rw [eraseDups_snoc]
    split
    · simpa using ih
    · next hnew => exact ih.append (List.nodup_singleton a) (by simpa using hnew)

theorem eraseDups_perm {α : Type} [DecidableEq α] {items others : List α}
    (h : items.Perm others) : items.eraseDups.Perm others.eraseDups := by
  refine (List.perm_ext_iff_of_nodup (nodup_eraseDups items) (nodup_eraseDups others)).mpr ?_
  intro a
  rw [List.mem_eraseDups, List.mem_eraseDups, h.mem_iff]

theorem eq_of_toList_perm {α : Type} {field other : Option α}
    (h : field.toList.Perm other.toList) : field = other := by
  cases field with
  | none => cases other with
    | none => rfl
    | some b => simp at h
  | some a => cases other with
    | none => simp at h
    | some b => simpa using h

/-- Directives in another order make the same unit, but for the order of two lists. -/
theorem Combines.sameUpToOrder {sourcesDir : Path} {directives others : Directives}
    {unit other : Installable} (hunit : Combines sourcesDir directives unit)
    (hother : Combines sourcesDir others other) (hname : unit.name = other.name)
    (h : directives.Perm others) : unit.SameUpToOrder other := by
  have hitems := itemsOf_perm h
  have hfield : ∀ {key : Key} {field field' : Option String},
      field.toList = textsOf key directives → field'.toList = textsOf key others →
        field' = field := by
    intro key field field' hfield hfield'
    refine eq_of_toList_perm ?_
    rw [hfield, hfield']
    exact (textsOf_perm h key).symm
  have hdelivery : valuesOf .deb directives = [] ↔ valuesOf .deb others = [] := by
    have hperm := valuesOf_perm h .deb
    exact ⟨fun hnil => (hnil ▸ hperm).nil_eq.symm, fun hnil => (hnil ▸ hperm).eq_nil⟩
  constructor
  case repositories =>
    rw [hunit.repositories, hother.repositories]
    exact eraseDups_perm (textsOf_perm h .repo)
  case sources =>
    obtain ⟨files, hfiles, hperm⟩ := List.perm_comp_forall₂ (valuesOf_perm h .source) hother.sources
    obtain rfl : files = unit.sources :=
      List.right_unique_forall₂' (isSourceFile_rightUnique sourcesDir) hfiles hunit.sources
    exact hperm
  case rest =>
    have hflags : other.flags = unit.flags := by
      rw [hunit.flags, hother.flags]
      exact Sorted.ofList_perm ((hitems .flags).filterMap _).symm
    have hhosts : other.hosts = unit.hosts := by
      rw [hunit.hosts, hother.hosts]
      exact Sorted.ofList_perm ((hitems .hosts).map _).symm
    have hurl := hfield hunit.url hother.url
    have hpre := hfield hunit.preScript hother.preScript
    have hpost := hfield hunit.postScript hother.postScript
    have hpackage := hfield hunit.package hother.package
    have hway : other.delivery = unit.delivery := by
      rw [hunit.delivery, hother.delivery]
      simp only [hdelivery]
    have harchive : other.archive? = unit.archive? := by rw [hunit.archive, hother.archive]
    have hrefresh : other.refreshDue = unit.refreshDue := by rw [hunit.refresh, hother.refresh]
    cases unit
    cases other
    simp_all

/-! ## Lines in another order -/

/-- A line that says something about the unit above it. -/
def Line.IsInner (line : Line) : Prop := line.isBlank = false ∧ line.isIndented = true

instance : DecidablePred Line.IsInner := fun _ => inferInstanceAs (Decidable (_ ∧ _))

/-- The lines of a stretch without a unit line, of which those that are not blank are put in any
order. The blank ones keep their places. -/
structure Shuffled (stretch other : List Line) : Prop where
  headless : ∀ line ∈ stretch, ¬ line.IsHead
  perm : stretch.Perm other
  fixed : List.Forall₂ (fun line next => line = next ∨ line.IsInner ∧ next.IsInner) stretch other

/-- The same lines, of which none has moved past a unit line. -/
inductive Rearranged : List Line → List Line → Prop
  | last {stretch other : List Line} (h : Shuffled stretch other) : Rearranged stretch other
  | unit {stretch other lines others : List Line} {head : Line} (h : Shuffled stretch other)
      (hhead : head.IsHead) (hrest : Rearranged lines others) :
      Rearranged (stretch ++ head :: lines) (other ++ head :: others)

theorem Shuffled.symm {stretch other : List Line} (h : Shuffled stretch other) :
    Shuffled other stretch where
  headless line hline := h.headless line (h.perm.mem_iff.mpr hline)
  perm := h.perm.symm
  fixed := h.fixed.flip.imp fun _ _ hstays => hstays.imp Eq.symm And.symm

theorem Rearranged.symm {lines others : List Line} (h : Rearranged lines others) :
    Rearranged others lines := by
  induction h with
  | last h => exact .last h.symm
  | unit h hhead _ ih => exact .unit h.symm hhead ih

/-- The sections have the same first line, and the lines below it in some order. -/
structure Section.SameUpToOrder (part other : Section) : Prop where
  head : part.head = other.head
  block : part.block.Perm other.block

theorem isIndented_of_headless {stretch : List Line} (h : ∀ line ∈ stretch, ¬ line.IsHead) :
    ∀ line ∈ stretch.filter (fun line => !line.isBlank), line.isIndented = true := by
  intro line hline
  obtain ⟨hmem, hblank⟩ := List.mem_filter.mp hline
  by_contra hmargin
  exact h line hmem ⟨by simpa using hblank, by simpa using hmargin⟩

theorem sections_append_of_indented {block : List Line}
    (h : ∀ line ∈ block, line.isIndented = true) (rest : List Line) :
    sections (block ++ rest) = sections rest := by
  induction block with
  | nil => rfl
  | cons line block ih =>
    rw [List.forall_mem_cons] at h
    rw [List.cons_append, sections, if_pos h.1, ih h.2]

theorem sections_of_indented {stretch : List Line} (h : ∀ line ∈ stretch, line.isIndented = true) :
    sections stretch = [] := by
  simpa [sections] using sections_append_of_indented h []

theorem sections_append_head {stretch rest : List Line} {head : Line}
    (h : ∀ line ∈ stretch, line.isIndented = true) (hhead : head.isIndented = false) :
    sections (stretch ++ head :: rest) =
      ⟨head, rest.takeWhile Line.isIndented⟩ :: sections rest := by
  rw [sections_append_of_indented h, sections, if_neg (by simp [hhead])]

theorem takeWhile_append_head {stretch rest : List Line} {head : Line}
    (h : ∀ line ∈ stretch, line.isIndented = true) (hhead : head.isIndented = false) :
    (stretch ++ head :: rest).takeWhile Line.isIndented = stretch := by
  rw [List.takeWhile_append_of_pos h]
  simp [hhead]

/-- Each section keeps its first line and its other lines. So do the lines above all sections. -/
theorem Rearranged.sections {lines others : List Line} (h : Rearranged lines others) :
    ((lines.filter fun line => !line.isBlank).takeWhile Line.isIndented).Perm
        ((others.filter fun line => !line.isBlank).takeWhile Line.isIndented) ∧
      List.Forall₂ Section.SameUpToOrder
        (Document.sections (lines.filter fun line => !line.isBlank))
        (Document.sections (others.filter fun line => !line.isBlank)) := by
  induction h with
  | last h =>
    have hstretch := isIndented_of_headless h.headless
    have hother := isIndented_of_headless h.symm.headless
    rw [sections_of_indented hstretch, sections_of_indented hother,
      List.takeWhile_eq_self_iff.mpr hstretch, List.takeWhile_eq_self_iff.mpr hother]
    exact ⟨h.perm.filter _, .nil⟩
  | unit h hhead _ ih =>
    have hstretch := isIndented_of_headless h.headless
    have hother := isIndented_of_headless h.symm.headless
    rw [List.filter_append, List.filter_append, List.filter_cons_of_pos (by simp [hhead.1]),
      List.filter_cons_of_pos (by simp [hhead.1]), sections_append_head hstretch hhead.2,
      sections_append_head hother hhead.2, takeWhile_append_head hstretch hhead.2,
      takeWhile_append_head hother hhead.2]
    exact ⟨h.perm.filter _, .cons ⟨rfl, ih.1⟩ ih.2⟩

/-! ## Documents in another order -/

namespace Section.SameUpToOrder

variable {part other : Section} (h : part.SameUpToOrder other)
include h

theorem directives : part.directives.Perm other.directives := h.block.filterMap _

theorem name : part.name = other.name := by
  unfold Section.name
  rw [h.head]

theorem good (hpart : part.Good) : other.Good where
  name := h.name ▸ hpart.name
  given line hline := hpart.given line (h.block.mem_iff.mpr hline)
  filled := by
    have hblock : part.block = [] ↔ other.block = [] :=
      ⟨fun hnil => (hnil ▸ h.block).nil_eq.symm, fun hnil => (hnil ▸ h.block).eq_nil⟩
    unfold Section.opens
    rw [← h.head, ne_eq, ← hblock]
    exact hpart.filled
  consistent := hpart.consistent.perm h.directives

theorem entry {sourcesDir : Path} {entry next : Entry} (hentry : part.Makes sourcesDir entry)
    (hnext : other.Makes sourcesDir next) : entry.SameUpToOrder next where
  line := by rw [hentry.line, hnext.line, h.head]
  unit :=
    (combines_of_applyAll hentry.unit).sameUpToOrder (combines_of_applyAll hnext.unit)
      (by rw [hentry.name_eq, hnext.name_eq, h.name]) h.directives

end Section.SameUpToOrder

theorem forall_good {parts others : List Section}
    (h : List.Forall₂ Section.SameUpToOrder parts others) (hgood : ∀ part ∈ parts, part.Good) :
    ∀ other ∈ others, other.Good := by
  induction h with
  | nil => simp
  | cons hsame _ ih =>
    rw [List.forall_mem_cons] at hgood ⊢
    exact ⟨hsame.good hgood.1, ih hgood.2⟩

theorem map_name_eq {parts others : List Section}
    (h : List.Forall₂ Section.SameUpToOrder parts others) :
    parts.map Section.name = others.map Section.name := by
  rw [← List.forall₂_eq_eq_eq, List.forall₂_map_left_iff, List.forall₂_map_right_iff]
  exact h.imp fun _ _ hsame => hsame.name

theorem forall₂_entry {sourcesDir : Path} {parts others : List Section} {entries next : List Entry}
    (h : List.Forall₂ Section.SameUpToOrder parts others)
    (hentries : List.Forall₂ (Section.Makes sourcesDir) parts entries)
    (hnext : List.Forall₂ (Section.Makes sourcesDir) others next) :
    List.Forall₂ Entry.SameUpToOrder entries next := by
  induction h generalizing entries next with
  | nil =>
    cases hentries
    cases hnext
    exact .nil
  | cons hsame _ ih =>
    cases hentries with
    | cons hentry hentries =>
      cases hnext with
      | cons hother hothers => exact .cons (hsame.entry hentry hother) (ih hentries hothers)

theorem exists_ofLines_of_rearranged {sourcesDir : Path} {lines others : List Line}
    (h : Rearranged lines others) (hlines : ∃ catalog, ofLines sourcesDir lines = .ok catalog) :
    ∃ catalog, ofLines sourcesDir others = .ok catalog := by
  rw [exists_ofLines_iff, ← accepts_filter_iff,
    accepts_iff_grammatical fun _ => isBlank_of_mem_filter, grammatical_iff] at hlines ⊢
  obtain ⟨hlead, hgood, hnames⟩ := hlines
  obtain ⟨habove, hparts⟩ := h.sections
  rw [hlead] at habove
  exact ⟨habove.nil_eq.symm, forall_good hparts hgood, map_name_eq hparts ▸ hnames⟩

/-- Lines that move only between two unit lines, or below the last one, change neither whether the
document is accepted nor, but for the order of repositories and source files, its entries. -/
theorem ofLines_of_rearranged {sourcesDir : Path} {lines others : List Line}
    (h : Rearranged lines others) :
    ((∃ catalog, ofLines sourcesDir lines = .ok catalog) ↔
      ∃ catalog, ofLines sourcesDir others = .ok catalog) ∧
    ∀ catalog other, ofLines sourcesDir lines = .ok catalog →
      ofLines sourcesDir others = .ok other →
        List.Forall₂ Entry.SameUpToOrder catalog.entries other.entries := by
  refine ⟨⟨exists_ofLines_of_rearranged h, exists_ofLines_of_rearranged h.symm⟩, ?_⟩
  intro catalog other hcatalog hother
  exact forall₂_entry h.sections.2 (entries_of_ofLines hcatalog) (entries_of_ofLines hother)

def lineOf (number : Nat) (text : String) : Line := ⟨number, text.toList⟩

def twoUnits : List Line :=
  [] ++ lineOf 1 "a:" ::
    ([lineOf 2 "  repo: r", lineOf 3 "", lineOf 4 "  flags: lead", lineOf 5 "  repo: s"] ++
      lineOf 6 "b:" :: [lineOf 7 "  source: x.list u", lineOf 8 "  source: y.list v"])

def twoUnitsRearranged : List Line :=
  [] ++ lineOf 1 "a:" ::
    ([lineOf 5 "  repo: s", lineOf 3 "", lineOf 2 "  repo: r", lineOf 4 "  flags: lead"] ++
      lineOf 6 "b:" :: [lineOf 8 "  source: y.list v", lineOf 7 "  source: x.list u"])

theorem rearranged_twoUnits : Rearranged twoUnits twoUnitsRearranged :=
  .unit ⟨by simp, .refl [], .nil⟩ (by decide +kernel)
    (.unit ⟨by decide +kernel, by decide +kernel, by decide +kernel⟩ (by decide +kernel)
      (.last ⟨by decide +kernel, by decide +kernel, by decide +kernel⟩))

def catalogOf (repositories : List String) (sources : List SourceFile) : Catalog :=
  ⟨[⟨1, { name := "a", repositories, flags := [.lead] }⟩, ⟨6, { name := "b", sources }⟩]⟩

theorem ofLines_of_twoUnits_rearranged :
    Rearranged twoUnits twoUnitsRearranged ∧
      ofLines ⟨"s"⟩ twoUnits =
        .ok (catalogOf ["r", "s"] [⟨⟨"s/x.list"⟩, "u"⟩, ⟨⟨"s/y.list"⟩, "v"⟩]) ∧
      ofLines ⟨"s"⟩ twoUnitsRearranged =
        .ok (catalogOf ["s", "r"] [⟨⟨"s/y.list"⟩, "v"⟩, ⟨⟨"s/x.list"⟩, "u"⟩]) ∧
      List.Forall₂ Entry.SameUpToOrder
        (catalogOf ["r", "s"] [⟨⟨"s/x.list"⟩, "u"⟩, ⟨⟨"s/y.list"⟩, "v"⟩]).entries
        (catalogOf ["s", "r"] [⟨⟨"s/y.list"⟩, "v"⟩, ⟨⟨"s/x.list"⟩, "u"⟩]).entries := by
  have hfirst : ofLines ⟨"s"⟩ twoUnits =
      .ok (catalogOf ["r", "s"] [⟨⟨"s/x.list"⟩, "u"⟩, ⟨⟨"s/y.list"⟩, "v"⟩]) := by decide +kernel
  have hsecond : ofLines ⟨"s"⟩ twoUnitsRearranged =
      .ok (catalogOf ["s", "r"] [⟨⟨"s/y.list"⟩, "v"⟩, ⟨⟨"s/x.list"⟩, "u"⟩]) := by decide +kernel
  exact ⟨rearranged_twoUnits, hfirst, hsecond,
    (ofLines_of_rearranged rearranged_twoUnits).2 _ _ hfirst hsecond⟩

end Document

end Provision
