import Provision.Proofs.Document.Fault
import Provision.Proofs.Document.Redundant

/-!
# A document without one of its directives

If a line with a directive is taken out of an accepted document and its unit has another directive,
the rest is accepted too. All units stay as they are but the one that has lost the directive, and
this one is another unit then, unless the directive is redundant.
-/

namespace Provision

def Catalog.units (catalog : Catalog) : List Installable := catalog.entries.map Entry.unit

theorem Catalog.units_renumber (f : Nat → Nat) (catalog : Catalog) :
    Catalog.units (catalog.renumber f) = Catalog.units catalog := by
  simp [Catalog.units, Catalog.renumber, Entry.renumber]

namespace Document

open Text

/-! ## Sections around a line -/

theorem sections_append_unit (top : List Line) {head : Line} (hhead : head.isIndented = false)
    (tail : List Line) : sections (top ++ head :: tail) = sections top ++ sections (head :: tail) := by
  induction top with
  | nil => rfl
  | cons line rest ih =>
    have hblock : (rest ++ head :: tail).takeWhile Line.isIndented =
        rest.takeWhile Line.isIndented := by
      by_cases hall : ∀ line ∈ rest, line.isIndented = true
      · rw [takeWhile_append_head hall hhead, List.takeWhile_eq_self_iff.mpr hall]
      · rw [List.takeWhile_append]
        have hshort : (rest.takeWhile Line.isIndented).length ≠ rest.length := by
          intro hlength
          have hsame := (List.takeWhile_prefix Line.isIndented).eq_of_length hlength
          exact hall (List.takeWhile_eq_self_iff.mp hsame)
        rw [if_neg hshort]
    rw [List.cons_append, sections, sections, hblock, ih]
    split <;> rfl

theorem sections_around (top : List Line) {head : Line} {block rest : List Line}
    (hhead : head.isIndented = false) (hblock : ∀ line ∈ block, line.isIndented = true)
    (hrest : rest.takeWhile Line.isIndented = []) :
    sections (top ++ head :: (block ++ rest)) = sections top ++ ⟨head, block⟩ :: sections rest := by
  rw [sections_append_unit top hhead, sections, if_neg (by simp [hhead]),
    List.takeWhile_append_of_pos hblock, hrest, List.append_nil, sections_append_of_indented hblock]

theorem takeWhile_dropWhile_nil {α : Type} (p : α → Bool) (l : List α) :
    (l.dropWhile p).takeWhile p = [] := by
  cases hrest : l.dropWhile p with
  | nil => rfl
  | cons a rest =>
    have hhead := List.head_dropWhile_not p (l := l) (by simp [hrest])
    simp only [hrest, List.head_cons] at hhead
    simp [hhead]

theorem exists_unit_line_above {front back : List Line} {line : Line}
    (hlead : (front ++ line :: back).takeWhile Line.isIndented = [])
    (hline : line.isIndented = true) : ∃ top head,
      front = top ++ head :: front.rtakeWhile Line.isIndented ∧ head.isIndented = false := by
  have hsplit := List.rdropWhile_append_rtakeWhile (p := Line.isIndented) (l := front)
  by_cases hnone : front.rdropWhile Line.isIndented = []
  · -- Then the first line of all is indented.
    rw [hnone, List.nil_append] at hsplit
    have hall : ∀ other ∈ front, other.isIndented = true := List.rtakeWhile_eq_self_iff.mp hsplit
    rw [List.takeWhile_append_of_pos hall] at hlead
    simp [hline] at hlead
  · have hhead := List.rdropWhile_last_not Line.isIndented front hnone
    refine ⟨(front.rdropWhile Line.isIndented).dropLast, (front.rdropWhile Line.isIndented).getLast
      hnone, ?_, by simpa using hhead⟩
    rw [List.append_cons, List.dropLast_append_getLast, hsplit]

theorem takeWhile_eq_nil_of_front {front back other : List Line} (hne : front ≠ [])
    (h : (front ++ back).takeWhile Line.isIndented = []) :
    (front ++ other).takeWhile Line.isIndented = [] := by
  cases front with
  | nil => exact absurd rfl hne
  | cons line rest =>
    by_cases hline : line.isIndented = true
    · simp [hline] at h
    · simp [hline]

/-! ## A section without a directive -/

section Part

variable {sourcesDir : Path} {head line : Line} {above below : List Line} {key : Key}
  {value : List Char}

theorem Section.directives_insert (hline : Reading.directive? line = some (key, value)) :
    Section.directives ⟨head, above ++ line :: below⟩ =
      above.filterMap Reading.directive? ++ (key, value) :: below.filterMap Reading.directive? := by
  rw [Section.directives, List.filterMap_append, List.filterMap_cons_some hline]

theorem Section.directives_append : Section.directives ⟨head, above ++ below⟩ =
    above.filterMap Reading.directive? ++ below.filterMap Reading.directive? :=
  List.filterMap_append

theorem Section.Good.of_insert (h : Section.Good ⟨head, above ++ line :: below⟩)
    (hline : Reading.directive? line = some (key, value)) (hne : above ++ below ≠ []) :
    Section.Good ⟨head, above ++ below⟩ where
  name := h.name
  given := by
    intro other hother
    refine h.given other ?_
    rw [List.mem_append] at hother ⊢
    exact hother.imp_right (List.mem_cons_of_mem _)
  filled := iff_of_true (h.filled.mpr (by simp)) hne
  consistent := by
    have hall := h.consistent
    rw [Section.directives_insert hline] at hall
    rw [Section.directives_append]
    exact hall.of_insert

/-- What a unit has lost with a directive. It is the same unit only if the directive is redundant,
and the patterns of `hosts` and the flags of `flags` are gone. -/
structure Lacks (above below : Directives) (key : Key) (value : List Char)
    (unit less : Installable) : Prop where
  name : less.name = unit.name
  same : less = unit ↔ IsRedundant above below value key
  hosts : key = .hosts → ∀ item ∈ items value,
    String.ofList (lower item) ∈ unit.hosts ∧ String.ofList (lower item) ∉ less.hosts
  flags : key = .flags → ∀ item ∈ items value,
    ∃ flag, Flag.ofToken? item = some flag ∧ unit.has flag = true ∧ less.has flag = false

theorem lacks_of_makes {entry less : Entry}
    (hentry : Section.Makes sourcesDir ⟨head, above ++ line :: below⟩ entry)
    (hless : Section.Makes sourcesDir ⟨head, above ++ below⟩ less)
    (hline : Reading.directive? line = some (key, value)) :
    Lacks (above.filterMap Reading.directive?) (below.filterMap Reading.directive?) key value
      entry.unit less.unit := by
  have hconsistent := hentry.good.consistent
  have hunit := combines_of_applyAll hentry.unit
  have hrest := combines_of_applyAll hless.unit
  rw [Section.directives_insert hline] at hconsistent hunit
  rw [Section.directives_append] at hrest
  have hname : less.unit.name = entry.unit.name := by
    rw [hless.name_eq, hentry.name_eq]
    rfl
  constructor
  case name => exact hname
  case same => exact ⟨isRedundant_of_eq hunit hrest hconsistent, eq_of_isRedundant hunit hrest hname⟩
  case hosts =>
    rintro rfl item hitem
    exact hosts_of_insert hunit hrest hconsistent hitem
  case flags =>
    rintro rfl item hitem
    exact flags_of_insert hunit hrest hconsistent hitem

theorem makes_rightUnique (sourcesDir : Path) : Relator.RightUnique (Section.Makes sourcesDir) := by
  rintro part ⟨number, unit⟩ ⟨number', unit'⟩ hentry hother
  obtain rfl : number = number' := hentry.line.trans hother.line.symm
  obtain rfl : unit = unit' := Except.ok.inj (hentry.unit.symm.trans hother.unit)
  rfl

theorem exists_split_of_forall₂ {α β : Type} {R : α → β → Prop} {front back : List α} {a : α}
    {others : List β} (h : List.Forall₂ R (front ++ a :: back) others) :
    ∃ before b after, others = before ++ b :: after ∧ List.Forall₂ R front before ∧ R a b ∧
      List.Forall₂ R back after := by
  induction front generalizing others with
  | nil =>
    cases h with
    | cons hfirst hrest => exact ⟨[], _, _, rfl, .nil, hfirst, hrest⟩
  | cons x rest ih =>
    cases h with
    | @cons _ y _ more hfirst hrest =>
      obtain ⟨before, b, after, rfl, hbefore, hb, hafter⟩ := ih hrest
      exact ⟨y :: before, b, after, rfl, .cons hfirst hbefore, hb, hafter⟩

/-- The units are the same but for one, which lacks a directive. -/
structure OneLacks (above below : Directives) (key : Key) (value : List Char)
    (units others : List Installable) : Prop where
  one : ∃ front unit less back, units = front ++ unit :: back ∧ others = front ++ less :: back ∧
    Lacks above below key value unit less
  same : others = units ↔ IsRedundant above below value key

theorem oneLacks_of_forall₂ {top rest : List Section} {entries others : List Entry}
    (hentries : List.Forall₂ (Section.Makes sourcesDir)
      (top ++ ⟨head, above ++ line :: below⟩ :: rest) entries)
    (hothers : List.Forall₂ (Section.Makes sourcesDir) (top ++ ⟨head, above ++ below⟩ :: rest) others)
    (hline : Reading.directive? line = some (key, value)) :
    OneLacks (above.filterMap Reading.directive?) (below.filterMap Reading.directive?) key value
      (entries.map Entry.unit) (others.map Entry.unit) := by
  obtain ⟨front, entry, back, rfl, hfront, hentry, hback⟩ := exists_split_of_forall₂ hentries
  obtain ⟨front', less, back', rfl, hfront', hless, hback'⟩ := exists_split_of_forall₂ hothers
  obtain rfl := List.right_unique_forall₂' (makes_rightUnique sourcesDir) hfront hfront'
  obtain rfl := List.right_unique_forall₂' (makes_rightUnique sourcesDir) hback hback'
  have hlacks := lacks_of_makes hentry hless hline
  rw [List.map_append, List.map_append, List.map_cons, List.map_cons]
  refine ⟨⟨_, _, _, _, rfl, rfl, hlacks⟩, ?_⟩
  rw [← hlacks.same]
  simp

end Part

/-! ## Lines without one of them -/

/-- The directives that stand right below some lines, and belong to the unit above them. -/
def firstDirectives (lines : List Line) : Directives :=
  (lines.takeWhile Line.isIndented).filterMap Reading.directive?

/-- The directives at the end of some lines, which belong to the last unit of these. -/
def lastDirectives (lines : List Line) : Directives :=
  (lines.rtakeWhile Line.isIndented).filterMap Reading.directive?

section Lines

variable {sourcesDir : Path} {lines front back : List Line} {line : Line} {catalog : Catalog}

theorem ofLines_filter : ofLines sourcesDir (lines.filter fun line => !line.isBlank) =
    ofLines sourcesDir lines := by
  unfold ofLines
  rw [Reading.foldlM_feed_filter]

theorem exists_ofLines_iff_good (hblank : ∀ line ∈ lines, line.isBlank = false) :
    (∃ catalog, ofLines sourcesDir lines = .ok catalog) ↔
      lines.takeWhile Line.isIndented = [] ∧ (∀ part ∈ sections lines, part.Good) ∧
        ((sections lines).map Section.name).Nodup := by
  rw [exists_ofLines_iff, accepts_iff_grammatical hblank, grammatical_iff]

theorem entries_of_filled (hblank : ∀ line ∈ lines, line.isBlank = false)
    (h : ofLines sourcesDir lines = .ok catalog) :
    List.Forall₂ (Section.Makes sourcesDir) (sections lines) catalog.entries := by
  have hentries := entries_of_ofLines h
  rwa [List.filter_eq_self.mpr fun line hline => by simp [hblank line hline]] at hentries

theorem exists_oneLacks (hblank : ∀ other ∈ front ++ line :: back, other.isBlank = false)
    (hline : line.isIndented = true)
    (hothers : lastDirectives front ++ firstDirectives back ≠ [])
    (h : ofLines sourcesDir (front ++ line :: back) = .ok catalog) :
    ∃ key value shorter, IsDirective line key value ∧
      ofLines sourcesDir (front ++ back) = .ok shorter ∧
        OneLacks (lastDirectives front) (firstDirectives back) key value (Catalog.units catalog)
          (Catalog.units shorter) := by
  obtain ⟨hlead, hgood, hnames⟩ := (exists_ofLines_iff_good hblank).mp ⟨catalog, h⟩
  obtain ⟨top, head, hfront, hhead⟩ := exists_unit_line_above hlead hline
  set above := front.rtakeWhile Line.isIndented with habove_def
  set below := back.takeWhile Line.isIndented with hbelow
  have habove : ∀ other ∈ above, other.isIndented = true := fun _ => List.mem_rtakeWhile_imp
  have hunder : ∀ other ∈ below, other.isIndented = true := fun _ => List.mem_takeWhile_imp
  have hback : back = below ++ back.dropWhile Line.isIndented :=
    List.takeWhile_append_dropWhile.symm
  have hrest := takeWhile_dropWhile_nil Line.isIndented back
  have hlonger : sections (front ++ line :: back) = sections top ++
      ⟨head, above ++ line :: below⟩ :: sections (back.dropWhile Line.isIndented) := by
    have hall : ∀ other ∈ above ++ line :: below, other.isIndented = true := by
      simpa [or_imp, forall_and, hline] using ⟨habove, hunder⟩
    rw [← sections_around top hhead hall hrest, hfront]
    conv_lhs => rw [hback]
    simp
  have hshorter : sections (front ++ back) = sections top ++
      ⟨head, above ++ below⟩ :: sections (back.dropWhile Line.isIndented) := by
    have hall : ∀ other ∈ above ++ below, other.isIndented = true := by
      simpa [or_imp, forall_and] using ⟨habove, hunder⟩
    rw [← sections_around top hhead hall hrest, hfront]
    conv_lhs => rw [hback]
    simp
  have hne : above ++ below ≠ [] := by
    rw [lastDirectives, firstDirectives, ← List.filterMap_append] at hothers
    exact fun hnil => hothers (by rw [← habove_def, ← hbelow, hnil, List.filterMap_nil])
  rw [hlonger] at hgood hnames
  obtain ⟨⟨key, value⟩, hpair⟩ := Option.isSome_iff_exists.mp
    ((hgood ⟨head, above ++ line :: below⟩ (by simp)).given line (by simp))
  have hfilled : ∀ other ∈ front ++ back, other.isBlank = false := by
    intro other hother
    refine hblank other ?_
    rw [List.mem_append] at hother ⊢
    exact hother.imp_right (List.mem_cons_of_mem _)
  obtain ⟨shorter, hshort⟩ : ∃ shorter, ofLines sourcesDir (front ++ back) = .ok shorter := by
    refine (exists_ofLines_iff_good hfilled).mpr ⟨?_, ?_, ?_⟩
    · exact takeWhile_eq_nil_of_front (by rw [hfront]; simp) hlead
    · rw [hshorter]
      simp only [List.mem_append, List.mem_cons] at hgood ⊢
      rintro part (htop | rfl | hunder)
      · exact hgood part (.inl htop)
      · exact (hgood _ (.inr (.inl rfl))).of_insert hpair hne
      · exact hgood part (.inr (.inr hunder))
    · rw [hshorter]
      simpa [Section.name] using hnames
  refine ⟨key, value, shorter, directive?_eq_some_iff.mp hpair, hshort, ?_⟩
  have hentries := entries_of_filled hblank h
  have hrest := entries_of_filled hfilled hshort
  rw [hlonger] at hentries
  rw [hshorter] at hrest
  exact oneLacks_of_forall₂ hentries hrest hpair

end Lines

/-! ## Texts without a line -/

/-- A text is cut before and after one of its logical lines, which has its own number in its part. -/
structure CutAround (before part after : List Char) (line : Line) : Prop where
  above : Complete before
  closed : Complete part ∨ after = []
  single : logicalLines part = [line]

theorem exists_logicalLines_append {front back : List Char} (h : Complete front ∨ back = []) :
    ∃ f, logicalLines (front ++ back) = logicalLines front ++
      (logicalLines back).map (Line.renumber f) := by
  rcases h with hcomplete | rfl
  · exact ⟨_, logicalLines_append hcomplete back⟩
  · exact ⟨id, by simp [show logicalLines [] = [] from rfl]⟩

theorem exists_cutAround {text : List Char} {above below : List Line} {line : Line}
    (h : logicalLines text = above ++ line :: below) : ∃ before part after number f,
      text = before ++ (part ++ after) ∧ CutAround before part after ⟨number, line.text⟩ ∧
        logicalLines before = above ∧ below = (logicalLines after).map (Line.renumber f) := by
  obtain ⟨front, ⟨after, rfl, hfront⟩, hlines⟩ := exists_cutAfter h
  obtain ⟨f, hafter⟩ := exists_logicalLines_append hfront
  have hbelow : below = (logicalLines after).map (Line.renumber f) := by
    rw [h, hlines, List.append_assoc, List.singleton_append] at hafter
    exact (List.cons.inj (List.append_cancel_left hafter)).2
  rcases List.eq_nil_or_concat' above with rfl | ⟨init, last, rfl⟩
  · exact ⟨[], front, after, line.number, f, rfl, ⟨complete_nil, hfront, hlines⟩, rfl, hbelow⟩
  · rw [List.append_assoc, List.singleton_append] at hlines
    obtain ⟨before, ⟨part, rfl, hpart⟩, hbefore⟩ := exists_cutAfter hlines
    have hne : part ≠ [] := by
      rintro rfl
      rw [List.append_nil, hbefore] at hlines
      simp at hlines
    have hcomplete := hpart.resolve_right hne
    have hsplit : init ++ last :: [line] = (init ++ [last]) ++ [line] := by simp
    rw [logicalLines_append hcomplete, hbefore, hsplit] at hlines
    obtain ⟨⟨number, text⟩, hone, rfl⟩ := List.map_eq_singleton_iff.mp
      (List.append_cancel_left hlines)
    refine ⟨before, part, after, number, f, List.append_assoc _ _ _, ⟨hcomplete, ?_, hone⟩, hbefore,
      hbelow⟩
    exact hfront.imp_left fun hall => hall.of_append hcomplete.ended hne

/-! ## Numbers do not count -/

theorem firstDirectives_renumber (f : Nat → Nat) (lines : List Line) :
    firstDirectives (lines.map (Line.renumber f)) = firstDirectives lines := by
  rw [firstDirectives, List.takeWhile_map, List.filterMap_map]
  rfl

theorem lastDirectives_renumber (f : Nat → Nat) (lines : List Line) :
    lastDirectives (lines.map (Line.renumber f)) = lastDirectives lines := by
  rw [lastDirectives, List.rtakeWhile, ← List.map_reverse, List.takeWhile_map, ← List.map_reverse,
    List.filterMap_map]
  rfl

/-- The lines of a text that are not blank, all under the same number. -/
def unnumberedLines (text : List Char) : List Line :=
  (filledLines text).map (Line.renumber fun _ => 0)

theorem unnumberedLines_append {front back : List Char} (h : Complete front ∨ back = []) :
    unnumberedLines (front ++ back) = unnumberedLines front ++ unnumberedLines back := by
  obtain ⟨f, happend⟩ := exists_logicalLines_append h
  rw [unnumberedLines, filledLines, happend, List.filter_append, List.map_append, List.filter_map,
    List.map_map]
  rfl

theorem unnumberedLines_of_single {part : List Char} {line : Line} (h : logicalLines part = [line])
    (hblank : line.isBlank = false) : unnumberedLines part = [line.renumber fun _ => 0] := by
  simp [unnumberedLines, filledLines, h, hblank]

theorem ofLines_unnumbered (sourcesDir : Path) (text : List Char) :
    ofLines sourcesDir (unnumberedLines text) =
      renumbered (fun _ => 0) (parse sourcesDir text) := by
  rw [unnumberedLines, ofLines_renumber, filledLines, ofLines_filter, parse]

theorem exists_parse_of_unnumbered {sourcesDir : Path} {text : List Char} {catalog : Catalog}
    (h : ofLines sourcesDir (unnumberedLines text) = .ok catalog) :
    ∃ other, parse sourcesDir text = .ok other ∧ Catalog.units other = Catalog.units catalog := by
  rw [ofLines_unnumbered] at h
  cases hparse : parse sourcesDir text with
  | error fault => simp [hparse, mapBoth] at h
  | ok other =>
    rw [hparse] at h
    obtain rfl := Except.ok.inj h
    exact ⟨other, rfl, (Catalog.units_renumber _ other).symm⟩

/-! ## Whole documents -/

theorem parse_cutAround {before part after : List Char} {line : Line} {sourcesDir : Path}
    {catalog : Catalog} (hcut : CutAround before part after line) (hblank : line.isBlank = false)
    (hindented : line.isIndented = true)
    (hothers : lastDirectives (filledLines before) ++ firstDirectives (filledLines after) ≠ [])
    (h : parse sourcesDir (before ++ (part ++ after)) = .ok catalog) :
    ∃ key value shorter, IsDirective line key value ∧
      parse sourcesDir (before ++ after) = .ok shorter ∧
        OneLacks (lastDirectives (filledLines before)) (firstDirectives (filledLines after)) key value
          (Catalog.units catalog) (Catalog.units shorter) := by
  have hlonger : unnumberedLines (before ++ (part ++ after)) =
      unnumberedLines before ++ (line.renumber fun _ => 0) :: unnumberedLines after := by
    rw [unnumberedLines_append (.inl hcut.above), unnumberedLines_append hcut.closed,
      unnumberedLines_of_single hcut.single hblank, List.singleton_append]
  have hfilled : ∀ other ∈ unnumberedLines (before ++ (part ++ after)), other.isBlank = false := by
    intro other hother
    obtain ⟨original, horiginal, rfl⟩ := List.mem_map.mp hother
    exact (isBlank_of_mem_filledLines horiginal : original.isBlank = false)
  have hall := ofLines_unnumbered sourcesDir (before ++ (part ++ after))
  rw [h, hlonger] at hall
  rw [hlonger] at hfilled
  rw [← lastDirectives_renumber fun _ => 0, ← firstDirectives_renumber fun _ => 0] at hothers ⊢
  obtain ⟨key, value, rest, hdirective, hrest, hlacks⟩ := exists_oneLacks hfilled hindented hothers hall
  rw [← unnumberedLines_append (.inl hcut.above)] at hrest
  obtain ⟨shorter, hshorter, hunits⟩ := exists_parse_of_unnumbered hrest
  refine ⟨key, value, shorter, hdirective, hshorter, ?_⟩
  rw [hunits, ← Catalog.units_renumber fun _ => 0]
  exact hlacks

/-- Every line of every text can be taken out. If it is a directive of an accepted text and not the
only one of its unit, the text without it is accepted, and makes the same units but for one, which
is another one unless the directive is redundant. -/
theorem removal_of_directive (sourcesDir : Path) :
    (∀ text above line below, logicalLines text = above ++ line :: below →
      ∃ before part after number f, text = before ++ (part ++ after) ∧
        CutAround before part after ⟨number, line.text⟩ ∧ logicalLines before = above ∧
          below = (logicalLines after).map (Line.renumber f)) ∧
    ∀ before part after line catalog, CutAround before part after line → line.isBlank = false →
      line.isIndented = true →
      lastDirectives (filledLines before) ++ firstDirectives (filledLines after) ≠ [] →
      parse sourcesDir (before ++ (part ++ after)) = .ok catalog →
      ∃ key value shorter, IsDirective line key value ∧
        parse sourcesDir (before ++ after) = .ok shorter ∧
          OneLacks (lastDirectives (filledLines before)) (firstDirectives (filledLines after)) key
            value (Catalog.units catalog) (Catalog.units shorter) :=
  ⟨fun _ _ _ _ h => exists_cutAround h,
    fun _ _ _ _ _ hcut hblank hindented hothers h =>
      parse_cutAround hcut hblank hindented hothers h⟩

/-- A `hosts` directive of two physical lines between other directives. -/
theorem cutAround_hosts : CutAround "a:\n  repo: r\n".toList "  hosts: x, \\\n Y,\n".toList
    "  flags: lead\nb\n".toList ⟨1, "  hosts: x, \n Y,".toList⟩ where
  above := complete_of_getLast? "  repo: r".toList (by decide) (by decide) (by decide)
  closed := .inl (complete_of_getLast? " Y,".toList (by decide) (by decide) (by decide))
  single := by decide +kernel

def hostsCatalog : Catalog :=
  ⟨[⟨1, { name := "a", repositories := ["r"], hosts := ["x", "y"], flags := [.lead] }⟩,
    ⟨6, { name := "b" }⟩]⟩

theorem removal_of_hosts :
    CutAround "a:\n  repo: r\n".toList "  hosts: x, \\\n Y,\n".toList "  flags: lead\nb\n".toList
      ⟨1, "  hosts: x, \n Y,".toList⟩ ∧
    parse ⟨"s"⟩ ("a:\n  repo: r\n".toList ++
      ("  hosts: x, \\\n Y,\n".toList ++ "  flags: lead\nb\n".toList)) = .ok hostsCatalog ∧
    ∃ key value shorter, IsDirective ⟨1, "  hosts: x, \n Y,".toList⟩ key value ∧
      parse ⟨"s"⟩ ("a:\n  repo: r\n".toList ++ "  flags: lead\nb\n".toList) = .ok shorter ∧
        OneLacks (lastDirectives (filledLines "a:\n  repo: r\n".toList))
          (firstDirectives (filledLines "  flags: lead\nb\n".toList)) key value
          (Catalog.units hostsCatalog) (Catalog.units shorter) := by
  have h : parse ⟨"s"⟩ ("a:\n  repo: r\n".toList ++
      ("  hosts: x, \\\n Y,\n".toList ++ "  flags: lead\nb\n".toList)) = .ok hostsCatalog := by
    decide +kernel
  exact ⟨cutAround_hosts, h, (removal_of_directive ⟨"s"⟩).2 _ _ _ _ _ cutAround_hosts (by decide)
    (by decide) (by decide +kernel) h⟩

/-- Lists without items are accepted among other directives and leave nothing behind. -/
theorem empty_lists_are_ignored :
    CutAround "x:\n".toList "  hosts: ,\n".toList "  flags: lead\n".toList ⟨1, "  hosts: ,".toList⟩ ∧
    IsDirective ⟨1, "  hosts: ,".toList⟩ .hosts [','] ∧
    firstDirectives (filledLines "  flags: lead\n".toList) = [(.flags, "lead".toList)] ∧
    parse ⟨"s"⟩ "x:\n  hosts: ,\n  flags: lead\n".toList =
      .ok ⟨[⟨1, { name := "x", flags := [.lead] }⟩]⟩ ∧
    parse ⟨"s"⟩ "x:\n  flags: lead\n".toList = .ok ⟨[⟨1, { name := "x", flags := [.lead] }⟩]⟩ ∧
    parse ⟨"s"⟩ "x:\n  pre: y\n  flags: , ,\n".toList =
      .ok ⟨[⟨1, { name := "x", preScript? := some "y" }⟩]⟩ ∧
    parse ⟨"s"⟩ "x:\n  pre: y\n".toList = .ok ⟨[⟨1, { name := "x", preScript? := some "y" }⟩]⟩ := by
  refine ⟨⟨?_, .inl ?_, by decide +kernel⟩, directive?_eq_some_iff.mp (by decide +kernel),
    by decide +kernel, by decide +kernel, by decide +kernel, by decide +kernel, by decide +kernel⟩
  · exact complete_of_getLast? "x:".toList (by decide) (by decide) (by decide)
  · exact complete_of_getLast? "  hosts: ,".toList (by decide) (by decide) (by decide)

end Document

end Provision
