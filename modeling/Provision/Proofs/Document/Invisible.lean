import Provision.Proofs.Document.Quotes
import Provision.Proofs.Document.Renumber
import Provision.Proofs.Document.Section

/-!
# What does not count in a document

A line of blanks and comments changes nothing but the numbers of the lines below it, wherever a
logical line may begin. Blanks at the end of a physical line change nothing at all.
-/

namespace Provision.Document

open Text

/-! ## Lines without content -/

/-- Blanks, and perhaps a comment after them, on one line. -/
structure IsIdle (line : List Char) : Prop where
  one_line : '\n' ∉ line
  split : ∃ blanks rest, line = blanks ++ rest ∧ (∀ c ∈ blanks, isBlank c = true) ∧
    (rest = [] ∨ rest.head? = some '#')

theorem uncomment_append_blank {blanks : List Char} (h : ∀ c ∈ blanks, isBlank c = true)
    (rest : List Char) : uncomment (blanks ++ rest) = blanks ++ uncomment rest := by
  refine uncomment_append (balanced_of_plain (List.all_eq_true.mpr fun c hc => ?_)) rest
  have hmark : c ≠ '#' := by
    rintro rfl
    exact absurd (h _ hc) (by decide)
  have hquote : isQuote c = false := by
    refine Bool.eq_false_iff.mpr fun hquote => ?_
    exact Bool.false_ne_true ((isBlank_of_isQuote hquote).symm.trans (h c hc))
  simp [hquote, hmark]

theorem clean_of_isIdle {line : List Char} (h : IsIdle line) : clean line = [] := by
  obtain ⟨blanks, rest, rfl, hblanks, hrest⟩ := h.split
  have hnone : uncomment rest = [] := by
    rcases hrest with rfl | hhead
    · rfl
    · obtain ⟨more, rfl⟩ := List.head?_eq_some_iff.mp hhead
      rfl
  unfold clean
  rw [uncomment_append_blank hblanks, hnone, List.append_nil]
  exact (trimEnd_eq_nil_iff blanks).mpr hblanks

/-! ## Making room for a line -/

def shiftBelow (above number : Nat) : Nat := if number ≤ above then number else number + 1

theorem zipIdx_shiftBelow_of_above {lines : List (List Char)} {above : Nat}
    (h : lines.length ≤ above) :
    (lines.zipIdx 1).map (Prod.map id (shiftBelow above)) = lines.zipIdx 1 := by
  conv_rhs => rw [← List.map_id (lines.zipIdx 1)]
  apply List.map_congr_left
  intro physical hmem
  have hbound := List.snd_lt_add_of_mem_zipIdx hmem
  have hsame : shiftBelow above physical.2 = physical.2 := if_pos (by omega)
  rw [Prod.map, hsame]
  rfl

theorem zipIdx_shiftBelow_of_below (lines : List (List Char)) (above : Nat) :
    (lines.zipIdx (1 + above)).map (Prod.map id (shiftBelow above)) =
      lines.zipIdx (1 + above + 1) := by
  rw [zipIdx_add lines (1 + above) 1]
  apply List.map_congr_left
  intro physical hmem
  have hbound := List.le_snd_of_mem_zipIdx hmem
  have hnext : shiftBelow above physical.2 = physical.2 + 1 := if_neg (by omega)
  rw [Prod.map, Prod.map, hnext]

theorem logicalLines_insert {before line : List Char} (hbefore : Complete before)
    (hline : IsIdle line) (after : List Char) : ∃ above below,
      (logicalLines (before ++ after)).map
        (Line.renumber (shiftBelow (physicalLines before).length)) = above ++ below ∧
      logicalLines (before ++ (line ++ '\n' :: after)) =
        above ++ ⟨1 + (physicalLines before).length, []⟩ :: below := by
  have hraw : clean (dropReturn line) = [] := by rw [clean_dropReturn, clean_of_isIdle hline]
  refine ⟨joinLines none ((physicalLines before).zipIdx 1),
    joinLines none ((physicalLines after).zipIdx (1 + (physicalLines before).length + 1)), ?_, ?_⟩
  · unfold logicalLines
    rw [physicalLines_append hbefore.ended, List.zipIdx_append, joinLines_of_complete hbefore,
      List.map_append, ← joinLines_renumber, ← joinLines_renumber,
      zipIdx_shiftBelow_of_above le_rfl, zipIdx_shiftBelow_of_below]
    rfl
  · unfold logicalLines
    rw [physicalLines_append hbefore.ended, physicalLines_line_append hline.one_line,
      List.zipIdx_append, joinLines_of_complete hbefore, List.zipIdx_cons, joinLines, hraw]
    rfl

theorem ofLines_insert_blank (sourcesDir : Path) {line : Line} (h : line.isBlank = true)
    (above below : List Line) :
    ofLines sourcesDir (above ++ line :: below) = ofLines sourcesDir (above ++ below) := by
  have hfilter : (above ++ line :: below).filter (fun line => !line.isBlank) =
      (above ++ below).filter (fun line => !line.isBlank) := by
    simp [h]
  unfold ofLines
  rw [← Reading.foldlM_feed_filter, hfilter, Reading.foldlM_feed_filter]

theorem parse_insert {before line : List Char} (hbefore : Complete before) (hline : IsIdle line)
    (sourcesDir : Path) (after : List Char) :
    parse sourcesDir (before ++ (line ++ '\n' :: after)) =
      renumbered (shiftBelow (physicalLines before).length)
        (parse sourcesDir (before ++ after)) := by
  obtain ⟨above, below, hold, hnew⟩ := logicalLines_insert hbefore hline after
  unfold parse
  rw [hnew, ofLines_insert_blank sourcesDir rfl, ← hold, ofLines_renumber]

/-! ## Blanks at the end of a line -/

/-- A physical line is over: it is the last one, or a newline follows, perhaps behind a carriage
return. -/
def EndsLine (line after : List Char) : Prop :=
  (line ≠ [] ∧ after = []) ∨ ∃ rest, after = '\n' :: rest ∨ after = '\r' :: '\n' :: rest

theorem logicalLines_congr {text other : List Char}
    (h : (physicalLines text).map clean = (physicalLines other).map clean) :
    logicalLines text = logicalLines other :=
  joinLines_congr h none 1

theorem map_clean_append_blank {line blanks after : List Char} (hline : '\n' ∉ line)
    (hblanks : ∀ c ∈ blanks, isBlank c = true ∧ c ≠ '\n') (hafter : EndsLine line after) :
    (physicalLines (line ++ (blanks ++ after))).map clean =
      (physicalLines (line ++ after)).map clean := by
  have hblank : ∀ c ∈ blanks, isBlank c = true := fun c hc => (hblanks c hc).1
  have hlonger : '\n' ∉ line ++ blanks := by
    rw [List.mem_append]
    rintro (hc | hc)
    · exact hline hc
    · exact (hblanks '\n' hc).2 rfl
  rcases hafter with ⟨hne, rfl⟩ | ⟨rest, rfl | rfl⟩
  · rw [List.append_nil, List.append_nil, physicalLines_of_not_mem hline hne,
      physicalLines_of_not_mem hlonger (List.append_ne_nil_of_left_ne_nil hne _),
      List.map_singleton, List.map_singleton, clean_append_blank line hblank]
  · rw [← List.append_assoc, physicalLines_line_append hlonger, physicalLines_line_append hline,
      List.map_cons, List.map_cons, clean_dropReturn, clean_dropReturn,
      clean_append_blank line hblank]
  · have hends : ∀ text : List Char, '\n' ∉ text → '\n' ∉ text ++ ['\r'] := by
      intro text htext
      simpa using htext
    have hsplit : ∀ text : List Char, text ++ '\r' :: '\n' :: rest =
        (text ++ ['\r']) ++ '\n' :: rest := by
      intro text
      rw [List.append_assoc, List.singleton_append]
    rw [← List.append_assoc, hsplit, hsplit, physicalLines_line_append (hends _ hlonger),
      physicalLines_line_append (hends _ hline), List.map_cons, List.map_cons, clean_dropReturn,
      clean_dropReturn, clean_append_blank _ isBlank_return, clean_append_blank _ isBlank_return,
      clean_append_blank line hblank]

theorem logicalLines_append_blank {before line blanks after : List Char} (hbefore : Ended before)
    (hline : '\n' ∉ line) (hblanks : ∀ c ∈ blanks, isBlank c = true ∧ c ≠ '\n')
    (hafter : EndsLine line after) :
    logicalLines (before ++ (line ++ (blanks ++ after))) =
      logicalLines (before ++ (line ++ after)) := by
  apply logicalLines_congr
  rw [physicalLines_append hbefore, physicalLines_append hbefore, List.map_append, List.map_append,
    map_clean_append_blank hline hblanks hafter]

/-! ## Whole documents -/

/-- A line without content that is inserted moves the lines below it and does nothing else, whether
the document is accepted or refused; blanks at the end of a line do nothing. -/
theorem parse_of_idle (sourcesDir : Path) (before line after : List Char) :
    (Complete before → IsIdle line →
      parse sourcesDir (before ++ (line ++ '\n' :: after)) =
        renumbered (shiftBelow (physicalLines before).length)
          (parse sourcesDir (before ++ after))) ∧
    ∀ blanks, Ended before → '\n' ∉ line → (∀ c ∈ blanks, isBlank c = true ∧ c ≠ '\n') →
      EndsLine line after →
        logicalLines (before ++ (line ++ (blanks ++ after))) =
            logicalLines (before ++ (line ++ after)) ∧
          parse sourcesDir (before ++ (line ++ (blanks ++ after))) =
            parse sourcesDir (before ++ (line ++ after)) := by
  constructor
  · intro hbefore hline
    exact parse_insert hbefore hline sourcesDir after
  · intro blanks hbefore hline hblanks hafter
    have hlines := logicalLines_append_blank hbefore hline hblanks hafter
    refine ⟨hlines, ?_⟩
    unfold parse
    rw [hlines]

theorem complete_opening : Complete "a:\n".toList :=
  complete_of_getLast? "a:".toList (by decide) (by decide) (by decide)

/-- A comment that ends in a backslash above a refused line, and blanks behind a backslash. -/
theorem parse_of_idle_below_opening :
    Complete "a:\n".toList ∧ IsIdle " # x \\".toList ∧
      parse ⟨"s"⟩ ("a:\n".toList ++ (" # x \\".toList ++ '\n' :: "  pre: x\na\n".toList)) =
        renumbered (shiftBelow (physicalLines "a:\n".toList).length)
          (parse ⟨"s"⟩ ("a:\n".toList ++ "  pre: x\na\n".toList)) ∧
      parse ⟨"s"⟩ ("a:\n".toList ++ "  pre: x\na\n".toList) = .error ⟨3, .duplicateUnit "a" 1⟩ ∧
      EndsLine "  pre: x \\".toList "\n y".toList ∧
      logicalLines ("a:\n".toList ++ ("  pre: x \\".toList ++ (" \r".toList ++ "\n y".toList))) =
        logicalLines ("a:\n".toList ++ ("  pre: x \\".toList ++ "\n y".toList)) := by
  have hidle : IsIdle " # x \\".toList :=
    ⟨by decide, [' '], "# x \\".toList, by decide, List.all_eq_true.mp (by decide),
      .inr (by decide)⟩
  have hends : EndsLine "  pre: x \\".toList "\n y".toList := .inr ⟨" y".toList, .inl (by decide)⟩
  have hblanks : ∀ c ∈ " \r".toList, isBlank c = true ∧ c ≠ '\n' := by
    intro c hc
    have hcase : c = ' ' ∨ c = '\r' := by simpa using hc
    rcases hcase with rfl | rfl <;> decide
  refine ⟨complete_opening, hidle, ?_, by decide +kernel, hends, ?_⟩
  · exact (parse_of_idle ⟨"s"⟩ _ _ _).1 complete_opening hidle
  · exact ((parse_of_idle ⟨"s"⟩ _ _ _).2 " \r".toList complete_opening.ended (by decide) hblanks
      hends).1

end Provision.Document
