import Provision.Proofs.Document.Renumber
import Provision.Proofs.Document.Section

/-!
# Documents one after the other

Two documents that are accepted make a document together if no name is declared in both, and its
entries are theirs. If a name is declared in both, the whole is refused at the first line of the
second document that declares such a name.
-/

namespace Provision

def Catalog.followedBy (first second : Catalog) : Catalog := ⟨first.entries ++ second.entries⟩

theorem Catalog.entry?_followedBy (first second : Catalog) (name : String) :
    Catalog.entry? (first.followedBy second) name =
      ( first.entry? name).or ( second.entry? name) :=
  List.find?_append

namespace Document

open Text

/-! ## Names that are taken -/

def headsOf (entries : List Entry) : List (Nat × String) :=
  entries.map fun entry => (entry.line, entry.unit.name)

/-- What a reader is told at the first of some lines whose name a catalog has. -/
def clash? (catalog : Catalog) (heads : List (Nat × String)) : Option Diagnostic :=
  heads.findSome? fun (line, name) =>
    ( catalog.entry? name).map fun earlier => ⟨line, .duplicateUnit name earlier.line⟩

theorem clash?_append (catalog : Catalog) (front back : List (Nat × String)) :
    clash? catalog (front ++ back) = (clash? catalog front).or (clash? catalog back) :=
  List.findSome?_append

theorem clash?_singleton (catalog : Catalog) (line : Nat) (name : String) :
    clash? catalog [(line, name)] =
      ( catalog.entry? name).map fun earlier => ⟨line, .duplicateUnit name earlier.line⟩ := by
  rw [clash?, List.findSome?_singleton]

theorem clash?_eq_none_iff {catalog : Catalog} {heads : List (Nat × String)} :
    clash? catalog heads = none ↔ ∀ head ∈ heads, catalog.entry? head.2 = none := by
  simp [clash?]

namespace Reading

/-- The lines read so far that declare units; the open unit's is the last. -/
def heads (reading : Reading) : List (Nat × String) :=
  headsOf reading.catalog.entries ++
    (reading.draft?.map fun draft => (draft.line, draft.unit.name)).toList

/-- What a line adds to the heads. -/
def declaration? (line : Line) : Option (Nat × String) :=
  if line.IsHead then some (line.number, String.ofList (declared line.text).1) else none

/-- The same reading with a catalog before it. -/
def after (first : Catalog) (reading : Reading) : Reading :=
  { reading with catalog := first.followedBy reading.catalog }

section Steps

variable {first : Catalog} {sourcesDir : Path} {reading next closed final : Reading} {line : Line}

theorem heads_of_close (h : reading.close = .ok closed) : closed.heads = reading.heads := by
  rcases close_eq_ok_iff.mp h with ⟨-, rfl⟩ | ⟨draft, hdraft, -, -, rfl⟩
  · rfl
  · simp [heads, headsOf, hdraft]

theorem heads_of_directiveLine (h : reading.directiveLine sourcesDir line = .ok next) :
    next.heads = reading.heads := by
  obtain ⟨_, _, draft, _, -, hdraft, -, happly, rfl⟩ := directiveLine_eq_ok_iff.mp h
  simp [heads, hdraft, name_applyDirective happly]

theorem heads_of_unitLine (h : reading.unitLine line = .ok next) : next.heads =
    reading.heads ++ [(line.number, String.ofList (declared line.text).1)] := by
  obtain ⟨-, closed, hclose, -, rfl⟩ := unitLine_eq_ok_iff.mp h
  rw [← heads_of_close hclose]
  simp [heads, draft?_of_close hclose]

theorem heads_of_feed (h : reading.feed sourcesDir line = .ok next) :
    next.heads = reading.heads ++ (declaration? line).toList := by
  rcases feed_eq_ok h with ⟨hblank, rfl⟩ | ⟨-, hindented, h⟩ | ⟨hblank, hindented, h⟩
  · simp [declaration?, Line.IsHead, hblank]
  · simp [declaration?, Line.IsHead, hindented, heads_of_directiveLine h]
  · simp [declaration?, Line.IsHead, hblank, hindented, heads_of_unitLine h]

theorem heads_of_foldlM {lines : List Line}
    (h : lines.foldlM (feed sourcesDir) reading = .ok final) :
    final.heads = reading.heads ++ lines.filterMap declaration? := by
  induction lines generalizing reading with
  | nil =>
    obtain rfl := Except.ok.inj h
    simp
  | cons line rest ih =>
    obtain ⟨next, hnext, hrest⟩ := foldlM_cons_eq_ok_iff.mp h
    rw [ih hrest, heads_of_feed hnext]
    cases hhead : declaration? line with
    | none => simp [hhead]
    | some head => simp [hhead]

/-! ## Reading after another catalog -/

theorem close_after (h : reading.close = .ok closed) (hfree : clash? first reading.heads = none) :
    (reading.after first).close = .ok (closed.after first) := by
  rcases close_eq_ok_iff.mp h with ⟨hnone, rfl⟩ | ⟨draft, hdraft, hfilled, hnew, rfl⟩
  · exact close_of_draft? hnone
  · have hother : first.entry? draft.unit.name = none := by
      refine clash?_eq_none_iff.mp hfree (draft.line, draft.unit.name) ?_
      simp [heads, hdraft]
    refine close_eq_ok_iff.mpr (.inr ⟨draft, hdraft, hfilled, ?_, ?_⟩)
    · rw [after, Catalog.entry?_followedBy, hother, hnew, Option.or_none]
    · simp [after, Catalog.followedBy]

/-- A line that is read is read after the other catalog as well, unless it declares a name that is
taken there. -/
theorem feed_after (h : reading.feed sourcesDir line = .ok next)
    (hfree : clash? first reading.heads = none) :
    (reading.after first).feed sourcesDir line = match clash? first next.heads with
      | none => .ok (next.after first)
      | some fault => .error fault := by
  rcases feed_eq_ok h with ⟨hblank, rfl⟩ | ⟨hblank, hindented, h⟩ | ⟨hblank, hindented, h⟩
  · rw [hfree, feed, if_pos hblank]
  · rw [heads_of_directiveLine h, hfree, feed_of_indented hblank hindented]
    obtain ⟨key, value, draft, unit, hline, hdraft, hopen, happly, rfl⟩ :=
      directiveLine_eq_ok_iff.mp h
    exact directiveLine_eq_ok_iff.mpr
      ⟨key, value, draft, unit, hline, hdraft, hopen, happly, rfl⟩
  · rw [heads_of_unitLine h, clash?_append, hfree, Option.none_or, clash?_singleton,
      feed_of_unit_line hblank hindented]
    obtain ⟨hname, closed, hclose, hnew, rfl⟩ := unitLine_eq_ok_iff.mp h
    have hentry :
        Catalog.entry? (closed.after first).catalog (String.ofList (declared line.text).1) =
          first.entry? (String.ofList (declared line.text).1) := by
      rw [after, Catalog.entry?_followedBy, hnew, Option.or_none]
    unfold unitLine
    simp only [nameFault?_eq_none_iff.mpr hname, close_after hclose hfree, hentry]
    cases first.entry? (String.ofList (declared line.text).1) with
    | none => rfl
    | some earlier => rfl

theorem foldlM_feed_after {lines : List Line}
    (h : lines.foldlM (feed sourcesDir) reading = .ok final)
    (hfree : clash? first reading.heads = none) :
    lines.foldlM (feed sourcesDir) (reading.after first) = match clash? first final.heads with
      | none => .ok (final.after first)
      | some fault => .error fault := by
  induction lines generalizing reading with
  | nil =>
    obtain rfl := Except.ok.inj h
    rw [hfree]
    rfl
  | cons line rest ih =>
    obtain ⟨next, hnext, hrest⟩ := foldlM_cons_eq_ok_iff.mp h
    rw [List.foldlM_cons, feed_after hnext hfree]
    cases hclash : clash? first next.heads with
    | none => exact ih hrest hclash
    | some fault =>
      -- Lines after this one declare further names only, so it stays the first that is taken.
      rw [heads_of_foldlM hrest, clash?_append, hclash]
      rfl

end Steps

/-! ## The seam -/

/-- The end of a document: all lines are read and the last unit is closed. -/
def finish (sourcesDir : Path) (reading : Reading) (lines : List Line) :
    Except Diagnostic Catalog := do
  let final ← lines.foldlM (feed sourcesDir) reading
  return (← final.close).catalog

section Seam

variable {sourcesDir : Path} {reading closed fresh final : Reading} {lines : List Line}

/-- The unit above lines that could begin a document may be closed before they are read. -/
theorem finish_of_close (hclose : reading.close = .ok closed) (hfresh : fresh.draft? = none)
    (h : lines.foldlM (feed sourcesDir) fresh = .ok final) :
    finish sourcesDir reading lines = finish sourcesDir closed lines := by
  induction lines with
  | nil =>
    have hagain := close_of_draft? (draft?_of_close hclose)
    simp [finish, hclose, hagain, bind, Except.bind, pure, Except.pure]
  | cons line rest ih =>
    obtain ⟨next, hnext, hrest⟩ := foldlM_cons_eq_ok_iff.mp h
    rcases feed_eq_ok hnext with ⟨hblank, rfl⟩ | ⟨-, -, hline⟩ | ⟨hblank, hindented, -⟩
    · have hskip : ∀ any : Reading, finish sourcesDir any (line :: rest) =
          finish sourcesDir any rest := by
        intro any
        simp [finish, feed, hblank, bind, Except.bind]
      rw [hskip, hskip, ih hrest]
    · -- An indented line does not come first.
      obtain ⟨_, _, draft, _, -, hdraft, -⟩ := directiveLine_eq_ok_iff.mp hline
      rw [hfresh] at hdraft
      cases hdraft
    · have hagain := close_of_draft? (draft?_of_close hclose)
      have hsame : reading.unitLine line = closed.unitLine line := by
        unfold unitLine
        rw [hclose, hagain]
      unfold finish
      rw [List.foldlM_cons, List.foldlM_cons, feed_of_unit_line hblank hindented,
        feed_of_unit_line hblank hindented, hsame]

end Seam

end Reading

theorem ofLines_append_eq {sourcesDir : Path} {front back : List Line} {reading : Reading}
    (h : front.foldlM (Reading.feed sourcesDir) {} = .ok reading) :
    ofLines sourcesDir (front ++ back) = reading.finish sourcesDir back := by
  unfold ofLines Reading.finish
  rw [List.foldlM_append, h]
  rfl

/-- Lines that are accepted after others that are: what they declare is put after what those
declare, up to the first name that is taken. -/
theorem ofLines_append {sourcesDir : Path} {front back : List Line} {first second : Catalog}
    (hfront : ofLines sourcesDir front = .ok first) (hback : ofLines sourcesDir back = .ok second) :
    ofLines sourcesDir (front ++ back) = match clash? first (headsOf second.entries) with
      | none => .ok (first.followedBy second)
      | some fault => .error fault := by
  obtain ⟨above, closed, hfold, hclose, rfl⟩ := ofLines_eq_ok_iff.mp hfront
  obtain ⟨final, last, hrest, hlast, rfl⟩ := ofLines_eq_ok_iff.mp hback
  have hseam : closed = Reading.after closed.catalog {} := by
    simp [Reading.after, Catalog.followedBy, ← Reading.draft?_of_close hclose]
  have hheads : headsOf last.catalog.entries = final.heads := by
    rw [← Reading.heads_of_close hlast]
    simp [Reading.heads, Reading.draft?_of_close hlast]
  rw [ofLines_append_eq hfold, Reading.finish_of_close hclose rfl hrest, hheads]
  unfold Reading.finish
  rw [hseam, Reading.foldlM_feed_after hrest rfl, ← hseam]
  cases hclash : clash? closed.catalog final.heads with
  | some fault => rfl
  | none =>
    simp only [bind, Except.bind, Reading.close_after hlast hclash]
    rfl

/-! ## Whole documents -/

/-- `later` is the first entry of `second` whose name is taken in `first`: `earlier` has it. -/
structure FirstTaken (first second : Catalog) (earlier later : Entry) : Prop where
  mem : earlier ∈ first.entries
  same : earlier.unit.name = later.unit.name
  split : ∃ before behind, second.entries = before ++ later :: behind ∧
    ∀ entry ∈ before, entry.unit.name ∉ first.names

theorem clash?_of_apart {first : Catalog} {entries : List Entry} (f : Nat → Nat)
    (h : ∀ entry ∈ entries, entry.unit.name ∉ first.names) :
    clash? first (headsOf (entries.map (Entry.renumber f))) = none := by
  rw [clash?_eq_none_iff, headsOf, List.map_map]
  intro head hhead
  obtain ⟨entry, hentry, rfl⟩ := List.mem_map.mp hhead
  exact Catalog.entry?_eq_none_iff.mpr (h entry hentry)

theorem exists_firstTaken {first second : Catalog} (f : Nat → Nat)
    (h : ∃ name ∈ second.names, name ∈ first.names) :
    ∃ earlier later, FirstTaken first second earlier later ∧
      clash? first (headsOf (second.renumber f).entries) =
        some ⟨f later.line, .duplicateUnit later.unit.name earlier.line⟩ := by
  obtain ⟨name, hname, htaken⟩ := h
  obtain ⟨entry, hentry, rfl⟩ := List.mem_map.mp hname
  have hfound : (second.entries.find? fun entry => entry.unit.name ∈ first.names).isSome :=
    List.find?_isSome.mpr ⟨entry, hentry, decide_eq_true htaken⟩
  obtain ⟨later, hlater⟩ := Option.isSome_iff_exists.mp hfound
  obtain ⟨hshared, before, behind, hsplit, hbefore⟩ := List.find?_eq_some_iff_append.mp hlater
  have hfree : ∀ entry ∈ before, entry.unit.name ∉ first.names := by simpa using hbefore
  have hsome : first.entry? later.unit.name ≠ none :=
    fun hnone => Catalog.entry?_eq_none_iff.mp hnone (of_decide_eq_true hshared)
  obtain ⟨earlier, hearlier⟩ := Option.ne_none_iff_exists'.mp hsome
  obtain ⟨hmem, hsame⟩ := Catalog.entry?_eq_some hearlier
  refine ⟨earlier, later, ⟨hmem, hsame, before, behind, hsplit, hfree⟩, ?_⟩
  have hnone : clash? first (headsOf (before.map (Entry.renumber f))) = none :=
    clash?_of_apart f hfree
  have hheads : headsOf (second.renumber f).entries = headsOf (before.map (Entry.renumber f)) ++
      ([(f later.line, later.unit.name)] ++ headsOf (behind.map (Entry.renumber f))) := by
    simp [Catalog.renumber, hsplit, headsOf, Entry.renumber]
  rw [hheads, clash?_append, hnone, Option.none_or, clash?_append, clash?_singleton, hearlier]
  rfl

/-- Two accepted documents, the first of them complete, are accepted one after the other if their
names are apart; otherwise the first name of the second that is taken is at fault. -/
theorem parse_of_two {sourcesDir : Path} {front back : List Char} {first second : Catalog}
    (hcomplete : Complete front) (hfront : parse sourcesDir front = .ok first)
    (hback : parse sourcesDir back = .ok second) :
    ((∀ name ∈ second.names, name ∉ first.names) →
      parse sourcesDir (front ++ back) =
        .ok (first.followedBy (second.renumber (· + (physicalLines front).length)))) ∧
    ((∃ name ∈ second.names, name ∈ first.names) →
      ∃ earlier later, FirstTaken first second earlier later ∧
        parse sourcesDir (front ++ back) = .error
          ⟨later.line + (physicalLines front).length,
            .duplicateUnit later.unit.name earlier.line⟩) := by
  have hlater := ofLines_renumber (· + (physicalLines front).length) sourcesDir (logicalLines back)
  rw [show ofLines sourcesDir (logicalLines back) = .ok second from hback] at hlater
  have hparse := ofLines_append hfront hlater
  rw [← logicalLines_append hcomplete back] at hparse
  constructor
  · intro hapart
    have hnone : clash? first
        (headsOf (second.renumber (· + (physicalLines front).length)).entries) = none :=
      clash?_of_apart _ fun entry hentry => hapart _ (List.mem_map_of_mem hentry)
    rw [hnone] at hparse
    exact hparse
  · intro hshared
    obtain ⟨earlier, later, htaken, hclash⟩ :=
      exists_firstTaken (· + (physicalLines front).length) hshared
    rw [hclash] at hparse
    exact ⟨earlier, later, htaken, hparse⟩

/-- Two units, the first with a script of two lines. -/
def scriptText : List Char := "a:\n  pre: x \\\n   y\nb\n".toList

def scriptCatalog : Catalog :=
  ⟨[⟨1, { name := "a", preScript? := some "x \n   y" }⟩, ⟨4, { name := "b" }⟩]⟩

theorem complete_scriptText : Complete scriptText :=
  complete_of_getLast? ['b'] (by decide) (by decide) (by decide)

/-- A document that declares `b` too, and one that does not. -/
theorem parse_of_two_after_script :
    Complete scriptText ∧ parse ⟨"s"⟩ scriptText = .ok scriptCatalog ∧
      (∃ back second, parse ⟨"s"⟩ back = .ok second ∧
        (∀ name ∈ second.names, name ∉ scriptCatalog.names) ∧
        parse ⟨"s"⟩ (scriptText ++ back) =
          .ok (scriptCatalog.followedBy (second.renumber (· + 4)))) ∧
      ∃ back second, parse ⟨"s"⟩ back = .ok second ∧
        (∃ name ∈ second.names, name ∈ scriptCatalog.names) ∧
        ∃ earlier later, FirstTaken scriptCatalog second earlier later ∧
          parse ⟨"s"⟩ (scriptText ++ back) =
            .error ⟨later.line + 4, .duplicateUnit later.unit.name earlier.line⟩ := by
  have hscript : parse ⟨"s"⟩ scriptText = .ok scriptCatalog := by decide +kernel
  have hapart : parse ⟨"s"⟩ "\nc".toList = .ok ⟨[⟨2, { name := "c" }⟩]⟩ := by decide +kernel
  have hshared : parse ⟨"s"⟩ "c\n\n# b\nb:\n  flags: lead\na".toList =
      .ok ⟨[⟨1, { name := "c" }⟩, ⟨4, { name := "b", flags := [.lead] }⟩,
        ⟨6, { name := "a" }⟩]⟩ := by
    decide +kernel
  have hfree : ∀ name ∈ Catalog.names ⟨[⟨2, { name := "c" }⟩]⟩, name ∉ scriptCatalog.names := by
    decide
  have htaken : ∃ name ∈ Catalog.names ⟨[⟨1, { name := "c" }⟩,
      ⟨4, { name := "b", flags := [.lead] }⟩, ⟨6, { name := "a" }⟩]⟩,
      name ∈ scriptCatalog.names := by
    decide
  exact ⟨complete_scriptText, hscript,
    ⟨_, _, hapart, hfree, (parse_of_two complete_scriptText hscript hapart).1 hfree⟩,
    ⟨_, _, hshared, htaken, (parse_of_two complete_scriptText hscript hshared).2 htaken⟩⟩

end Document

end Provision
