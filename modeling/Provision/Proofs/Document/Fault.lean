import Provision.Proofs.Document.Concatenation
import Provision.Proofs.Document.Grammar

/-!
# Where a fault is found

A diagnostic points at a line that is not blank, and what stands below this line has no part in it:
a text that ends with the line is refused for the same reason. Most faults are found at the line
they are about. That a block is empty is found later, but the line that opens it already tells.
-/

namespace Provision.Document

open Text

/-! ## The step that fails -/

theorem exists_step_of_foldlM_eq_error {α β ε : Type} {f : β → α → Except ε β} {xs : List α}
    {b : β} {fault : ε} (h : xs.foldlM f b = .error fault) :
    ∃ above a below mid, xs = above ++ a :: below ∧ above.foldlM f b = .ok mid ∧
      f mid a = .error fault := by
  induction xs generalizing b with
  | nil => cases h
  | cons a rest ih =>
    cases hnext : f b a with
    | error other =>
      rw [List.foldlM_cons, hnext] at h
      obtain rfl := Except.error.inj h
      exact ⟨[], a, rest, b, rfl, rfl, hnext⟩
    | ok next =>
      rw [List.foldlM_cons, hnext] at h
      obtain ⟨above, other, below, mid, rfl, habove, hfault⟩ := ih h
      exact ⟨a :: above, other, below, mid, rfl, foldlM_cons_eq_ok_iff.mpr ⟨next, hnext, habove⟩,
        hfault⟩

theorem Cause.IsOwn.ne_duplicateUnit {cause : Cause} (h : cause.IsOwn) (name : String)
    (first : Nat) : cause ≠ .duplicateUnit name first := by
  rintro rfl
  have hmoved := h (· + 1)
  simp [Cause.renumber] at hmoved

namespace Reading

section Steps

variable {sourcesDir : Path} {reading final : Reading} {line : Line} {lines : List Line}
  {fault : Diagnostic}

theorem directiveLine_eq_error (h : reading.directiveLine sourcesDir line = .error fault) :
    fault.line = line.number ∧ fault.cause.IsOwn := by
  unfold directiveLine at h
  split at h
  · obtain rfl := Except.error.inj h
    exact ⟨rfl, fun _ => rfl⟩
  · simp only at h
    split at h
    · obtain rfl := Except.error.inj h
      exact ⟨rfl, fun _ => rfl⟩
    · split at h
      · obtain rfl := Except.error.inj h
        exact ⟨rfl, fun _ => rfl⟩
      · split at h
        · obtain rfl := Except.error.inj h
          exact ⟨rfl, fun _ => rfl⟩
        · split at h
          · obtain rfl := Except.error.inj h
            exact ⟨rfl, fun _ => rfl⟩
          · split at h
            · next happly =>
              obtain rfl := Except.error.inj h
              exact ⟨rfl, isOwn_of_applyDirective happly⟩
            · cases h

theorem unitLine_eq_error (h : reading.unitLine line = .error fault) :
    (fault.line = line.number ∧ fault.cause.IsOwn) ∨ reading.close = .error fault ∨
      ∃ closed first, reading.close = .ok closed ∧
        closed.catalog.entry? (String.ofList (nameOf line)) = some first ∧
          fault = ⟨line.number, .duplicateUnit (String.ofList (nameOf line)) first.line⟩ := by
  unfold unitLine at h
  simp only at h
  split at h
  · next hname =>
    obtain rfl := Except.error.inj h
    exact .inl ⟨rfl, isOwn_of_nameFault? hname⟩
  · split at h
    · next hclose =>
      obtain rfl := Except.error.inj h
      exact .inr (.inl hclose)
    · next closed hclose =>
      split at h
      · next first hfirst =>
        obtain rfl := Except.error.inj h
        exact .inr (.inr ⟨closed, first, hclose, hfirst, rfl⟩)
      · cases h

theorem feed_eq_error (h : reading.feed sourcesDir line = .error fault) :
    line.isBlank = false ∧ ((line.isIndented = true ∧
      reading.directiveLine sourcesDir line = .error fault) ∨
        (line.isIndented = false ∧ reading.unitLine line = .error fault)) := by
  unfold feed at h
  split at h
  · cases h
  · next hblank =>
    refine ⟨by simpa using hblank, ?_⟩
    split at h
    · next hindented => exact .inl ⟨hindented, h⟩
    · next hindented => exact .inr ⟨by simpa using hindented, h⟩

theorem close_eq_error (h : reading.close = .error fault) : ∃ draft, reading.draft? = some draft ∧
    ((draft.block = true ∧ draft.directives = 0 ∧
        fault = ⟨draft.line, .missingBlock draft.unit.name⟩) ∨
      reading.catalog.entry? draft.unit.name ≠ none) := by
  unfold close at h
  split at h
  · cases h
  · next draft hdraft =>
    refine ⟨draft, hdraft, ?_⟩
    split at h
    · next hmissing =>
      obtain rfl := Except.error.inj h
      exact .inl (by simpa using hmissing)
    · unfold Catalog.append at h
      split at h
      · next hfirst => exact .inr (by simp [hfirst])
      · cases h

/-! ## The line of the open unit -/

/-- The open unit comes from a line above, and right below that line nothing but the unit's
directives was missing. -/
theorem exists_opening {draft : Draft} (h : lines.foldlM (feed sourcesDir) {} = .ok final)
    (hdraft : final.draft? = some draft) :
    ∃ above head below, lines = above ++ head :: below ∧ head.IsHead ∧
      draft.line = head.number ∧ final.catalog.entry? draft.unit.name = none ∧
        (above ++ [head]).foldlM (feed sourcesDir) {} = .ok { final with draft? := some {
          line := draft.line, unit := { name := draft.unit.name }, block := draft.block } } := by
  induction lines using List.reverseRecOn generalizing final draft with
  | nil =>
    obtain rfl := Except.ok.inj h
    cases hdraft
  | append_singleton earlier line ih =>
    obtain ⟨mid, hmid, hlast⟩ := foldlM_append_eq_ok_iff.mp h
    obtain ⟨next, hnext, hnil⟩ := foldlM_cons_eq_ok_iff.mp hlast
    obtain rfl := Except.ok.inj hnil
    rcases feed_eq_ok hnext with ⟨-, rfl⟩ | ⟨-, -, hline⟩ | ⟨hblank, hindented, hline⟩
    · obtain ⟨above, head, below, rfl, hrest⟩ := ih hmid hdraft
      exact ⟨above, head, below ++ [line], by simp, hrest⟩
    · obtain ⟨_, _, opened, unit, -, hopen, -, happly, rfl⟩ := directiveLine_eq_ok_iff.mp hline
      obtain rfl := Option.some.inj hdraft
      obtain ⟨above, head, below, rfl, hrest⟩ := ih hmid hopen
      refine ⟨above, head, below ++ [line], by simp, ?_⟩
      simpa [name_applyDirective happly] using hrest
    · obtain ⟨-, closed, -, hnew, rfl⟩ := unitLine_eq_ok_iff.mp hline
      obtain rfl := Option.some.inj hdraft
      exact ⟨earlier, line, [], rfl, ⟨hblank, hindented⟩, rfl, hnew, h⟩

end Steps

end Reading

/-! ## Lines that are refused -/

section Lines

variable {sourcesDir : Path} {lines : List Line} {fault : Diagnostic}

theorem ofLines_eq_error_iff : ofLines sourcesDir lines = .error fault ↔
    lines.foldlM (Reading.feed sourcesDir) {} = .error fault ∨
      ∃ final, lines.foldlM (Reading.feed sourcesDir) {} = .ok final ∧
        final.close = .error fault := by
  unfold ofLines
  cases hfold : lines.foldlM (Reading.feed sourcesDir) {} with
  | error other => simp [bind, Except.bind]
  | ok final =>
    cases hclose : final.close with
    | error other => simp [bind, Except.bind, hclose]
    | ok closed => simp [bind, Except.bind, pure, Except.pure, hclose]

/-- The fault is told of this line. That a name is taken is told of a line that declares it, with
the number of a line above that declares it too. -/
structure Blames (fault : Diagnostic) (above : List Line) (line : Line) : Prop where
  number : line.number = fault.line
  filled : line.isBlank = false
  taken : ∀ name first, fault.cause = .duplicateUnit name first →
    line.IsHead ∧ String.ofList (nameOf line) = name ∧
      ∃ earlier ∈ above, earlier.IsHead ∧ earlier.number = first ∧
        String.ofList (nameOf earlier) = name

theorem blames_of_isOwn {above : List Line} {line : Line} (hnumber : fault.line = line.number)
    (hblank : line.isBlank = false) (hown : fault.cause.IsOwn) : Blames fault above line where
  number := hnumber.symm
  filled := hblank
  taken name first hcause := absurd hcause (hown.ne_duplicateUnit name first)

/-- A unit that cannot be closed has no directives, which is seen at its first line as well. -/
theorem exists_blamed_of_close {final : Reading}
    (h : lines.foldlM (Reading.feed sourcesDir) {} = .ok final)
    (hclose : final.close = .error fault) :
    ∃ above line below, lines = above ++ line :: below ∧ Blames fault above line ∧
      ofLines sourcesDir (above ++ [line]) = .error fault := by
  obtain ⟨draft, hdraft, hcause⟩ := Reading.close_eq_error hclose
  obtain ⟨above, head, below, rfl, hhead, hline, hnew, hopened⟩ := Reading.exists_opening h hdraft
  rcases hcause with ⟨hblock, -, rfl⟩ | htaken
  · refine ⟨above, head, below, rfl, blames_of_isOwn hline hhead.1 fun _ => rfl, ?_⟩
    refine ofLines_eq_error_iff.mpr (.inr ⟨_, hopened, ?_⟩)
    simp [Reading.close, hblock]
  · exact absurd hnew htaken

theorem exists_declaring_line {reading closed : Reading} {name : String} {first : Entry}
    (h : lines.foldlM (Reading.feed sourcesDir) {} = .ok reading)
    (hclose : reading.close = .ok closed) (hfirst : closed.catalog.entry? name = some first) :
    ∃ earlier ∈ lines, earlier.IsHead ∧ earlier.number = first.line ∧
      String.ofList (nameOf earlier) = name := by
  obtain ⟨hmem, rfl⟩ := Catalog.entry?_eq_some hfirst
  have hheads : (first.line, first.unit.name) ∈ reading.heads := by
    rw [← Reading.heads_of_close hclose]
    exact List.mem_append_left _ (List.mem_map.mpr ⟨first, hmem, rfl⟩)
  rw [Reading.heads_of_foldlM h] at hheads
  obtain ⟨earlier, hearlier, hsome⟩ := List.mem_filterMap.mp hheads
  unfold Reading.declaration? at hsome
  split at hsome
  · next hhead =>
    obtain ⟨hnumber, hname⟩ := Prod.mk.inj (Option.some.inj hsome)
    exact ⟨earlier, hearlier, hhead, hnumber, hname⟩
  · cases hsome

theorem exists_blamed (h : ofLines sourcesDir lines = .error fault) :
    ∃ above line below, lines = above ++ line :: below ∧ Blames fault above line ∧
      ofLines sourcesDir (above ++ [line]) = .error fault := by
  rcases ofLines_eq_error_iff.mp h with hfold | ⟨final, hfold, hclose⟩
  case inr => exact exists_blamed_of_close hfold hclose
  obtain ⟨above, line, below, mid, rfl, habove, hfeed⟩ := exists_step_of_foldlM_eq_error hfold
  have hcut : ofLines sourcesDir (above ++ [line]) = .error fault := by
    refine ofLines_eq_error_iff.mpr (.inl ?_)
    rw [List.foldlM_append, habove]
    simp [bind, Except.bind, hfeed]
  obtain ⟨hblank, ⟨-, hline⟩ | ⟨hindented, hline⟩⟩ := Reading.feed_eq_error hfeed
  · obtain ⟨hnumber, hown⟩ := Reading.directiveLine_eq_error hline
    exact ⟨above, line, below, rfl, blames_of_isOwn hnumber hblank hown, hcut⟩
  · rcases Reading.unitLine_eq_error hline with ⟨hnumber, hown⟩ | hclose |
      ⟨closed, first, hclose, hfirst, rfl⟩
    · exact ⟨above, line, below, rfl, blames_of_isOwn hnumber hblank hown, hcut⟩
    · -- The unit above is at fault; its line is one of those above.
      obtain ⟨front, head, back, rfl, hblames, hopened⟩ := exists_blamed_of_close habove hclose
      exact ⟨front, head, back ++ line :: below, by simp, hblames, hopened⟩
    · refine ⟨above, line, below, rfl, ⟨rfl, hblank, ?_⟩, hcut⟩
      intro name number hcause
      obtain ⟨rfl, rfl⟩ := Cause.duplicateUnit.inj hcause
      exact ⟨⟨hblank, hindented⟩, rfl, exists_declaring_line habove hclose hfirst⟩

end Lines

/-! ## Cutting a text -/

/-- The text is cut after a logical line: what is left ends in it, and its last physical line is
there in full. -/
structure CutAfter (text front : List Char) (above : List Line) (line : Line) : Prop where
  part : ∃ back, text = front ++ back ∧ (Complete front ∨ back = [])
  lines : logicalLines front = above ++ [line]

theorem exists_take_lines (text : List Char) (count : Nat) :
    ∃ front back, text = front ++ back ∧ (Ended front ∨ back = []) ∧
      physicalLines front = (physicalLines text).take count := by
  induction count generalizing text with
  | zero => exact ⟨[], text, rfl, .inl (.inl rfl), rfl⟩
  | succ count ih =>
    by_cases hnewline : '\n' ∈ text
    · obtain ⟨line, rest, rfl, hline⟩ := List.eq_append_cons_of_mem hnewline
      obtain ⟨front, back, rfl, hended, hfront⟩ := ih rest
      refine ⟨line ++ '\n' :: front, back, by simp, hended.imp_left ?_, ?_⟩
      · rintro (rfl | hlast)
        · exact .inr (by simp)
        · exact .inr (by simp [List.getLast?_append, List.getLast?_cons, hlast])
      · rw [physicalLines_line_append hline, physicalLines_line_append hline, hfront,
          List.take_succ_cons]
    · refine ⟨text, [], by simp, .inr rfl, ?_⟩
      cases text with
      | nil => rfl
      | cons c rest =>
        rw [physicalLines_of_not_mem hnewline (by simp), List.take_succ_cons, List.take_nil]

theorem joinLines_split {pending : Option Line} {physical : List (List Char × Nat)}
    {above below : List Line} {line : Line}
    (h : joinLines pending physical = above ++ line :: below) :
    ∃ front back, physical = front ++ back ∧ joinLines pending front = above ++ [line] ∧
      (back = [] ∨ ∃ last, front.getLast? = some last ∧ ¬ Continues last.1) := by
  induction physical generalizing pending above with
  | nil =>
    have hshort : (above ++ line :: below).length ≤ 1 := by
      rw [← h, joinLines]
      cases pending <;> simp
    obtain ⟨rfl, rfl⟩ : above = [] ∧ below = [] := by
      constructor <;> apply List.eq_nil_of_length_eq_zero <;> simp at hshort <;> omega
    exact ⟨[], [], rfl, h, .inl rfl⟩
  | cons first rest ih =>
    obtain ⟨raw, number⟩ := first
    -- What ends the rest ends the whole.
    have hlonger : ∀ {front back : List (List Char × Nat)},
        (back = [] ∨ ∃ last, front.getLast? = some last ∧ ¬ Continues last.1) →
          back = [] ∨
            ∃ last, ((raw, number) :: front).getLast? = some last ∧ ¬ Continues last.1 := by
      rintro front back (hback | ⟨last, hlast, hclosed⟩)
      · exact .inl hback
      · exact .inr ⟨last, by rw [List.getLast?_cons, hlast, Option.getD_some], hclosed⟩
    rw [joinLines] at h
    cases hraw : continued? (clean raw) with
    | some part =>
      rw [hraw] at h
      obtain ⟨front, back, rfl, hfront, hend⟩ := ih h
      exact ⟨(raw, number) :: front, back, rfl, by rw [joinLines, hraw]; exact hfront, hlonger hend⟩
    | none =>
      rw [hraw] at h
      cases above with
      | nil =>
        obtain ⟨rfl, rfl⟩ := List.cons.inj h
        refine ⟨[(raw, number)], rest, rfl, ?_, .inr ⟨(raw, number), rfl, ?_⟩⟩
        · rw [joinLines, hraw]
          rfl
        · simp [Continues, hraw]
      | cons earlier above =>
        obtain ⟨rfl, hrest⟩ := List.cons.inj h
        obtain ⟨front, back, rfl, hfront, hend⟩ := ih hrest
        refine ⟨(raw, number) :: front, back, rfl, ?_, hlonger hend⟩
        rw [joinLines, hraw]
        exact congrArg _ hfront

theorem exists_cutAfter {text : List Char} {above below : List Line} {line : Line}
    (h : logicalLines text = above ++ line :: below) : ∃ front, CutAfter text front above line := by
  obtain ⟨_, _, hsplit, hlines, hend⟩ := joinLines_split h
  obtain ⟨first, rest, hphysical, rfl, rfl⟩ := List.zipIdx_eq_append_iff.mp hsplit
  rcases hend with hnil | ⟨last, hlast, hclosed⟩
  · obtain rfl : rest = [] := by simpa using hnil
    rw [List.append_nil] at hphysical
    exact ⟨text, ⟨[], by simp, .inr rfl⟩, by rw [logicalLines, hphysical, hlines]⟩
  · obtain ⟨front, back, rfl, hended, hfront⟩ := exists_take_lines text first.length
    rw [hphysical, List.take_left] at hfront
    refine ⟨front, ⟨back, rfl, hended.imp_left fun hended => ⟨hended, ?_⟩⟩, ?_⟩
    · intro raw hraw
      have hnumbered := congrArg (Option.map Prod.fst) hlast
      rw [← List.getLast?_map, List.zipIdx_map_fst, ← hfront, hraw] at hnumbered
      obtain rfl := Option.some.inj hnumbered
      exact hclosed
    · rw [logicalLines, hfront, hlines]

/-- Whether the last line is ended by a newline does not matter, unless the line is empty. -/
theorem logicalLines_newline {start : List Char}
    (h : (physicalLines start).length = (physicalLines (start ++ ['\n'])).length) :
    logicalLines start = logicalLines (start ++ ['\n']) := by
  have hended := physicalLines_append_newline start []
  rw [physicalLines_nil, List.append_nil] at hended
  refine joinLines_congr ?_ none 1
  rw [hended] at h ⊢
  have hlast := List.getLast?_eq_some_getLast (pieces_ne_nil '\n' start)
  have hpieces := List.dropLast_append_getLast? _ hlast
  unfold physicalLines at h ⊢
  simp only [hlast] at h ⊢
  cases hline : (pieces '\n' start).getLast (pieces_ne_nil '\n' start) with
  | nil =>
    have hpos := List.length_pos_of_ne_nil (pieces_ne_nil '\n' start)
    simp only [hline, List.length_map, List.length_dropLast] at h
    omega
  | cons c rest =>
    rw [hline] at hpieces
    conv_rhs => rw [← hpieces]
    simp only [List.map_append, List.map_map, List.map_singleton, clean_dropReturn,
      Function.comp_def]

/-! ## Whole texts -/

/-- A diagnostic points at a logical line that is not blank, and the text that is cut after this
line, with or without the newline at the cut, is refused with the same diagnostic. -/
theorem parse_error_is_local {sourcesDir : Path} {text : List Char} {fault : Diagnostic}
    (h : parse sourcesDir text = .error fault) :
    ∃ above line below, logicalLines text = above ++ line :: below ∧ Blames fault above line ∧
      (∃ front, CutAfter text front above line) ∧
      ∀ front, CutAfter text front above line →
        parse sourcesDir front = .error fault ∧
          ∀ start, front = start ++ ['\n'] →
            (physicalLines start).length = (physicalLines front).length →
              parse sourcesDir start = .error fault := by
  obtain ⟨above, line, below, hlines, hblames, hcut⟩ := exists_blamed h
  refine ⟨above, line, below, hlines, hblames, exists_cutAfter hlines, ?_⟩
  intro front hfront
  have hrefused : parse sourcesDir front = .error fault := by
    rw [parse, hfront.lines]
    exact hcut
  refine ⟨hrefused, ?_⟩
  rintro start rfl hlength
  rw [parse, logicalLines_newline hlength]
  exact hrefused

/-- A name that is declared twice, the second time on a line that goes on, and a fault below. -/
def repeatedText : List Char := "a\n\nb:\n  pre: x\na \\\n \nc:c\n".toList

theorem parse_error_of_repeated_name :
    parse ⟨"s"⟩ repeatedText = .error ⟨5, .duplicateUnit "a" 1⟩ ∧
      ∃ above line below, logicalLines repeatedText = above ++ line :: below ∧
        Blames ⟨5, .duplicateUnit "a" 1⟩ above line ∧
        (∃ front, CutAfter repeatedText front above line) ∧
        ∀ front, CutAfter repeatedText front above line →
          parse ⟨"s"⟩ front = .error ⟨5, .duplicateUnit "a" 1⟩ ∧
            ∀ start, front = start ++ ['\n'] →
              (physicalLines start).length = (physicalLines front).length →
                parse ⟨"s"⟩ start = .error ⟨5, .duplicateUnit "a" 1⟩ := by
  have h : parse ⟨"s"⟩ repeatedText = .error ⟨5, .duplicateUnit "a" 1⟩ := by decide +kernel
  exact ⟨h, parse_error_is_local h⟩

/-- An empty block is found at the next unit, or at the end, and told of the line that opens it. -/
example : parse ⟨"s"⟩ "a:\n\nb\nc:c\n".toList = .error ⟨1, .missingBlock "a"⟩ ∧
    parse ⟨"s"⟩ "a:\n".toList = .error ⟨1, .missingBlock "a"⟩ := by decide +kernel

end Provision.Document
