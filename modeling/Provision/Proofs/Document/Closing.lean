import Provision.Proofs.Document.Blocks
import Provision.Proofs.Document.Invisible
import Provision.Proofs.Text.Trimmed

/-!
# How a logical line is closed

A logical line ends in a blank only if it has been begun and the physical line that closes it has no
content: the newline in the place of the last backslash is left at its end. This is the line that it
would be without the backslash, blanks apart, and it is read in the same way, unless it is at the
margin and holds a colon. Then the colon is not at its end any more, and the line is refused.
-/

namespace Provision.Document

open Text

/-! ## Blanks at the end of a logical line -/

/-- The lines of the block go on until one without content. -/
def Block.IsBlankClosed (block : Block) : Prop :=
  block.begun ≠ [] ∧ ∃ raw, block.closing? = some raw ∧ clean raw = []

theorem trimEnd_newline_ne (s : List Char) : trimEnd (s ++ ['\n']) ≠ s ++ ['\n'] := by
  intro h
  have hblank : ∀ c ∈ ['\n'], isBlank c = true := List.forall_mem_singleton.mpr (by decide)
  rw [trimEnd_append_blank s ['\n'] hblank] at h
  obtain ⟨tail, hsplit, -⟩ := exists_trimEnd_append s
  have hlength := congrArg List.length hsplit
  rw [h] at hlength
  simp at hlength

theorem exists_joined_newline {begun : List (List Char)} (hne : begun ≠ [])
    (h : ∀ raw ∈ begun, Continues raw) : ∃ s, joined begun = s ++ ['\n'] := by
  obtain ⟨front, last, rfl⟩ := (List.eq_nil_or_concat' begun).resolve_left hne
  obtain ⟨part, -, hadded⟩ := addition_of_continues (h last (by simp))
  exact ⟨joined front ++ part, by rw [joined_append, joined_singleton, hadded, List.append_assoc]⟩

theorem trimEnd_line_iff {block : Block} (h : block.Formed) :
    trimEnd block.line.text = block.line.text ↔ ¬ block.IsBlankClosed := by
  obtain ⟨number, begun, closing?⟩ := block
  cases closing? with
  | none => simp [Block.line_of_end, Block.IsBlankClosed, trimEnd_idem]
  | some raw =>
    rw [Block.line_of_closing number begun (h.closing raw rfl)]
    simp only
    by_cases hraw : clean raw = []
    · rw [hraw, List.append_nil]
      by_cases hbegun : begun = []
      · subst hbegun
        simp [Block.IsBlankClosed, joined, trimEnd]
      · obtain ⟨s, hs⟩ := exists_joined_newline hbegun h.begun
        rw [hs]
        simp [Block.IsBlankClosed, hbegun, hraw, trimEnd_newline_ne]
    · have hclean : trimEnd (clean raw) = clean raw := trimEnd_idem _
      rw [trimEnd_append_of_ne_nil _ (by rwa [hclean]), hclean]
      simp [Block.IsBlankClosed, hraw]

/-! ## A line with and without a backslash -/

/-- A physical line goes on by the backslash between two parts, and would not without it. The line
below it has no content. -/
structure ClosedByIdle (before front back line after : List Char) : Prop where
  ended : Ended before
  one_line : '\n' ∉ front ++ back
  continues : Continues (front ++ '\\' :: back)
  finished : ¬ Continues (front ++ back)
  idle : IsIdle line
  ends : EndsLine line after

/-- Only a quote can be open. -/
def IsOpening (opened : Option Char) : Prop := ∀ quote ∈ opened, isQuote quote = true

theorem isOpening_quoteAfter {opened : Option Char} (h : IsOpening opened) (c : Char) :
    IsOpening (quoteAfter opened c) :=
  isQuote_of_mem_quoteAfter h c

theorem quoteAfter_backslash {opened : Option Char} (h : IsOpening opened) :
    quoteAfter opened '\\' = opened := by
  cases opened with
  | none => rfl
  | some quote =>
    refine if_neg ?_
    rintro rfl
    exact absurd (h '\\' rfl) (by decide)

theorem uncommentFrom_backslash {opened : Option Char} (h : IsOpening opened)
    (front back : List Char) :
    (∃ kept, uncommentFrom opened (front ++ '\\' :: back) = front ++ '\\' :: kept ∧
        uncommentFrom opened (front ++ back) = front ++ kept) ∨
      uncommentFrom opened (front ++ '\\' :: back) = uncommentFrom opened (front ++ back) := by
  induction front generalizing opened with
  | nil =>
    refine .inl ⟨uncommentFrom opened back, ?_, rfl⟩
    rw [List.nil_append, uncommentFrom, if_neg (by simp), quoteAfter_backslash h, List.nil_append]
  | cons c rest ih =>
    rw [List.cons_append, List.cons_append, uncommentFrom, uncommentFrom]
    split
    · exact .inr rfl
    · rcases ih (isOpening_quoteAfter h c) with ⟨kept, hlong, hshort⟩ | hsame
      · exact .inl ⟨kept, by rw [hlong]; rfl, by rw [hshort]; rfl⟩
      · exact .inr (by rw [hsame])

theorem clean_of_backslash {front back : List Char} (hlong : Continues (front ++ '\\' :: back))
    (hshort : ¬ Continues (front ++ back)) :
    continued? (clean (front ++ '\\' :: back)) = some front ∧
      clean (front ++ back) = trimEnd front := by
  obtain ⟨part, hpart⟩ := Option.isSome_iff_exists.mp hlong
  obtain ⟨hline, hlast⟩ := continued?_eq_some_iff.mp hpart
  have hopening : IsOpening none := by
    rintro _ ⟨⟩
  rcases uncommentFrom_backslash hopening front back with
    ⟨kept, hkept, hrest⟩ | hsame
  case inr => exact absurd (by rwa [Continues, clean, uncomment, hsame] at hlong) hshort
  have hbackslash : isBlank '\\' = false := by decide
  rw [clean, uncomment, hkept, trimEnd_append_cons front hbackslash] at hline
  rcases List.eq_nil_or_concat' (trimEnd kept) with hnil | ⟨init, last, hinit⟩
  · refine ⟨?_, ?_⟩
    · rw [hpart]
      rw [hnil] at hline
      exact congrArg some (List.append_inj' hline rfl).1.symm
    · obtain ⟨blanks, hblanks, hblank⟩ := exists_trimEnd_append kept
      rw [hnil, List.nil_append] at hblanks
      rw [clean, uncomment, hrest, trimEnd_append_blank front kept (hblanks ▸ hblank)]
  · -- Another backslash would make the line go on, with or without this one.
    have hsplit : front ++ '\\' :: init ++ [last] = part ++ ['\\'] := by
      rw [← hline, hinit]
      simp
    obtain ⟨rfl, hbackslash⟩ := List.append_inj' hsplit rfl
    obtain rfl := List.singleton_inj.mp hbackslash
    refine absurd ?_ hshort
    obtain ⟨more, other, rfl⟩ : ∃ more other, init = more ++ [other] := by
      rcases List.eq_nil_or_concat' init with rfl | hsome
      · simp at hlast
      · exact hsome
    have hclean : clean (front ++ back) = (front ++ more ++ [other]) ++ ['\\'] := by
      rw [clean, uncomment, hrest, trimEnd_append_of_ne_nil front (by simp [hinit]), hinit]
      simp
    refine Option.isSome_iff_exists.mpr ⟨_, continued?_eq_some_iff.mpr ⟨hclean, ?_⟩⟩
    rw [← List.cons_append, ← List.append_assoc, List.getLast?_concat] at hlast
    rwa [List.getLast?_concat]

/-! ## The logical lines of both -/

/-- What comes before a physical line makes some logical lines and leaves one begun or none. -/
theorem exists_joinLines_append (front : List (List Char × Nat)) (pending : Option Line) :
    ∃ above begun, ∀ back, joinLines pending (front ++ back) = above ++ joinLines begun back := by
  induction front generalizing pending with
  | nil => exact ⟨[], pending, fun _ => rfl⟩
  | cons physical rest ih =>
    obtain ⟨raw, number⟩ := physical
    cases hraw : continued? (clean raw) with
    | some part =>
      obtain ⟨above, begun, hjoin⟩ :=
        ih (some ⟨(pending.getD ⟨number, []⟩).number, (pending.getD ⟨number, []⟩).text ++ part ++
          ['\n']⟩)
      refine ⟨above, begun, fun back => ?_⟩
      rw [List.cons_append, joinLines, hraw]
      exact hjoin back
    | none =>
      obtain ⟨above, begun, hjoin⟩ := ih none
      refine ⟨⟨(pending.getD ⟨number, []⟩).number,
        (pending.getD ⟨number, []⟩).text ++ clean raw⟩ :: above, begun, fun back => ?_⟩
      rw [List.cons_append, joinLines, hraw, List.cons_append, ← hjoin back]

theorem exists_physicalLines_of_idle {line after : List Char} (hline : IsIdle line)
    (hends : EndsLine line after) :
    ∃ raw rest, physicalLines (line ++ after) = raw :: rest ∧ clean raw = [] := by
  have hclean := clean_of_isIdle hline
  rcases hends with ⟨hne, rfl⟩ | ⟨rest, rfl | rfl⟩
  · exact ⟨line, [], by rw [List.append_nil, physicalLines_of_not_mem hline.one_line hne], hclean⟩
  · exact ⟨_, _, physicalLines_line_append hline.one_line rest, by rw [clean_dropReturn, hclean]⟩
  · have hreturn : '\n' ∉ line ++ ['\r'] := by simpa using hline.one_line
    refine ⟨dropReturn (line ++ ['\r']), physicalLines rest, ?_, ?_⟩
    · rw [List.append_cons]
      exact physicalLines_line_append hreturn rest
    · rw [clean_dropReturn, clean_append_blank line isBlank_return, hclean]

/-- Both texts have the same logical lines, but that one line of the first has blanks at its end, of
which the last is a newline, and that the second has an empty line below it. -/
structure LeavesBlanks (unfinished finished : List Char) (above : List Line) (line : Line)
    (blanks : List Char) : Prop where
  blank : ∀ c ∈ blanks, isBlank c = true
  newline : blanks.getLast? = some '\n'
  lines : ∃ next below,
    logicalLines unfinished = above ++ ⟨line.number, line.text ++ blanks⟩ :: below ∧
      logicalLines finished = above ++ line :: ⟨next, []⟩ :: below

theorem exists_leavesBlanks {before front back line after : List Char}
    (h : ClosedByIdle before front back line after) : ∃ above closed blanks,
      LeavesBlanks (before ++ (front ++ '\\' :: (back ++ '\n' :: (line ++ after))))
        (before ++ (front ++ (back ++ '\n' :: (line ++ after)))) above closed blanks := by
  obtain ⟨raw, rest, hraw, hempty⟩ := exists_physicalLines_of_idle h.idle h.ends
  have hone := h.one_line
  have hlong : '\n' ∉ front ++ '\\' :: back := by simpa using hone
  obtain ⟨hpart, hfront⟩ := clean_of_backslash h.continues h.finished
  have hnone : continued? (trimEnd front) = none := by
    simpa [Continues, hfront] using h.finished
  obtain ⟨above, begun, hjoin⟩ := exists_joinLines_append ((physicalLines before).zipIdx 1) none
  obtain ⟨blanks, hsplit, hblank⟩ := exists_trimEnd_append front
  set number := 1 + (physicalLines before).length with hnumber
  set opening := begun.getD ⟨number, []⟩ with hopening
  have hfirst : ∀ text : List Char, '\n' ∉ text → logicalLines (before ++ (text ++ '\n' :: (line ++
      after))) = above ++ joinLines begun ((dropReturn text, number) :: (raw, number + 1) ::
        rest.zipIdx (number + 2)) := by
    intro text htext
    unfold logicalLines
    rw [physicalLines_append h.ended, physicalLines_line_append htext, hraw, List.zipIdx_append,
      hjoin, List.zipIdx_cons, List.zipIdx_cons]
  refine ⟨above, ⟨opening.number, opening.text ++ trimEnd front⟩, blanks ++ ['\n'], ?_, by simp,
    number + 1, joinLines none (rest.zipIdx (number + 2)), ?_, ?_⟩
  · intro c hc
    rcases List.mem_append.mp hc with hc | hc
    · exact hblank c hc
    · exact List.mem_singleton.mp hc ▸ by decide
  · have htext : opening.text ++ trimEnd front ++ (blanks ++ ['\n']) =
        opening.text ++ front ++ ['\n'] := by
      conv_rhs => rw [hsplit]
      simp
    have hline := hfirst _ hlong
    rw [List.append_assoc, List.cons_append, joinLines, clean_dropReturn, hpart] at hline
    rw [hline, htext]
    simp [joinLines, hempty, continued?, ← hopening]
  · have hline := hfirst _ hone
    rw [List.append_assoc, joinLines, clean_dropReturn, hfront, hnone] at hline
    rw [hline, ← hopening]
    simp [joinLines, hempty, continued?]

/-! ## Reading a line with blanks at its end -/

theorem ne_colon_of_isBlank {c : Char} (h : isBlank c = true) : c ≠ ':' := by
  rintro rfl
  exact absurd h (by decide)

theorem isBlank_mk_append {line : Line} {blanks : List Char} (h : ∀ c ∈ blanks, isBlank c = true) :
    Line.isBlank ⟨line.number, line.text ++ blanks⟩ = line.isBlank := by
  simp [Line.isBlank, List.all_append, List.all_eq_true.mpr h]

theorem isIndented_mk_append {line : Line} (h : line.isBlank = false) (blanks : List Char) :
    Line.isIndented ⟨line.number, line.text ++ blanks⟩ = line.isIndented := by
  obtain ⟨number, text⟩ := line
  cases text with
  | nil => cases h
  | cons c rest => rfl

theorem cut?_append {p : Char → Bool} {s t : List Char} (h : ∀ c ∈ t, p c = false) :
    cut? p (s ++ t) = (cut? p s).map (Prod.map id (· ++ t)) := by
  induction s with
  | nil => exact (cut?_eq_none_iff p t).mpr h
  | cons c rest ih =>
    rw [List.cons_append, cut?, cut?, ih]
    split
    · rfl
    · cases cut? p rest <;> rfl

namespace Reading

theorem directiveLine_append_blank (sourcesDir : Path) (reading : Reading) {line : Line}
    {blanks : List Char} (hline : line.isBlank = false) (h : ∀ c ∈ blanks, isBlank c = true) :
    reading.directiveLine sourcesDir ⟨line.number, line.text ++ blanks⟩ =
      reading.directiveLine sourcesDir line := by
  have hfilled : trimStart line.text ≠ [] := by
    intro hnil
    rw [trimStart_eq_nil_iff] at hnil
    rw [Line.isBlank, List.all_eq_true.mpr hnil] at hline
    cases hline
  have hcolon : ∀ c ∈ blanks, decide (c = ':') = false :=
    fun c hc => decide_eq_false (ne_colon_of_isBlank (h c hc))
  unfold directiveLine
  rw [trimStart_append_of_ne_nil hfilled, cut?_append hcolon]
  cases cut? (· = ':') (trimStart line.text) with
  | none => rfl
  | some pair => simp [trim_append_blank _ h]

theorem declared_append_blank (text : List Char) {blanks : List Char} (hne : blanks ≠ [])
    (h : ∀ c ∈ blanks, isBlank c = true) : declared (text ++ blanks) = (trim text, false) := by
  have hlast : (text ++ blanks).getLast? ≠ some ':' := by
    intro hcolon
    rw [List.getLast?_append_of_ne_nil _ hne] at hcolon
    exact ne_colon_of_isBlank (h ':' (List.mem_of_getLast? hcolon)) rfl
  rw [declared, if_neg hlast, trim_append_blank _ h]

theorem declared_of_not_mem {text : List Char} (h : ':' ∉ text) :
    declared text = (trim text, false) :=
  if_neg fun hlast => h (List.mem_of_getLast? hlast)

theorem unitLine_append_blank (reading : Reading) {line : Line} {blanks : List Char}
    (hcolon : ':' ∉ line.text) (hne : blanks ≠ []) (h : ∀ c ∈ blanks, isBlank c = true) :
    reading.unitLine ⟨line.number, line.text ++ blanks⟩ = reading.unitLine line := by
  unfold unitLine
  rw [declared_append_blank line.text hne h, declared_of_not_mem hcolon]
  have hname : ':' ∉ trim line.text := by rwa [mem_trim_iff (by decide)]
  simp [nameFault?, hname]

theorem unitLine_of_colon (reading : Reading) {line : Line} {blanks : List Char}
    (hcolon : ':' ∈ line.text) (hne : blanks ≠ []) (h : ∀ c ∈ blanks, isBlank c = true) :
    reading.unitLine ⟨line.number, line.text ++ blanks⟩ =
      .error ⟨line.number, .colonInName (String.ofList (line.text ++ blanks))⟩ := by
  unfold unitLine
  rw [declared_append_blank line.text hne h]
  have hname : ':' ∈ trim line.text := by rwa [mem_trim_iff (by decide)]
  simp [nameFault?, hname]

theorem feed_append_blank (sourcesDir : Path) (reading : Reading) {line : Line}
    {blanks : List Char} (hne : blanks ≠ []) (h : ∀ c ∈ blanks, isBlank c = true)
    (hcolon : ¬ (line.IsHead ∧ ':' ∈ line.text)) :
    reading.feed sourcesDir ⟨line.number, line.text ++ blanks⟩ = reading.feed sourcesDir line := by
  unfold feed
  rw [isBlank_mk_append h]
  by_cases hblank : line.isBlank = true
  · rw [if_pos hblank, if_pos hblank]
  · rw [if_neg hblank, if_neg hblank, isIndented_mk_append (by simpa using hblank)]
    by_cases hindented : line.isIndented = true
    · rw [if_pos hindented, if_pos hindented,
        directiveLine_append_blank sourcesDir reading (by simpa using hblank) h]
    · rw [if_neg hindented, if_neg hindented, unitLine_append_blank reading ?_ hne h]
      intro hmem
      exact hcolon ⟨⟨by simpa using hblank, by simpa using hindented⟩, hmem⟩

theorem feed_of_colon (sourcesDir : Path) (reading : Reading) {line : Line}
    {blanks : List Char} (hne : blanks ≠ []) (h : ∀ c ∈ blanks, isBlank c = true)
    (hhead : line.IsHead) (hcolon : ':' ∈ line.text) :
    reading.feed sourcesDir ⟨line.number, line.text ++ blanks⟩ =
      .error ⟨line.number, .colonInName (String.ofList (line.text ++ blanks))⟩ := by
  unfold feed
  rw [isBlank_mk_append h, if_neg (by simp [hhead.1]), isIndented_mk_append hhead.1,
    if_neg (by simp [hhead.2]), unitLine_of_colon reading hcolon hne h]

end Reading

/-! ## Whole documents -/

section Fold

variable {sourcesDir : Path} {above below : List Line} {line : Line} {reading : Reading}
  {fault : Diagnostic}

theorem ofLines_congr_line {other : Line}
    (h : ∀ reading, Reading.feed sourcesDir reading line = Reading.feed sourcesDir reading other) :
    ofLines sourcesDir (above ++ line :: below) = ofLines sourcesDir (above ++ other :: below) := by
  unfold ofLines
  simp only [List.foldlM_append, List.foldlM_cons, h]

theorem ofLines_of_fault_above (h : above.foldlM (Reading.feed sourcesDir) {} = .error fault) :
    ofLines sourcesDir (above ++ below) = .error fault := by
  unfold ofLines
  rw [List.foldlM_append, h]
  rfl

theorem ofLines_of_fault (h : above.foldlM (Reading.feed sourcesDir) {} = .ok reading)
    (hline : reading.feed sourcesDir line = .error fault) :
    ofLines sourcesDir (above ++ line :: below) = .error fault := by
  rw [List.append_cons]
  refine ofLines_of_fault_above ?_
  rw [List.foldlM_append, h]
  simp [bind, Except.bind, hline]

end Fold

/-- Both texts are read in the same way. Only a line at the margin that holds a colon is refused in
the first of them, unless a line above it is refused. -/
structure ReadAlike (sourcesDir : Path) (unfinished finished : List Char) (above : List Line)
    (line : Line) (blanks : List Char) : Prop where
  same : ¬ (line.IsHead ∧ ':' ∈ line.text) → parse sourcesDir unfinished = parse sourcesDir finished
  early : ∀ fault, above.foldlM (Reading.feed sourcesDir) {} = .error fault →
    parse sourcesDir unfinished = .error fault ∧ parse sourcesDir finished = .error fault
  refused : ∀ reading, above.foldlM (Reading.feed sourcesDir) {} = .ok reading →
    line.IsHead → ':' ∈ line.text → parse sourcesDir unfinished =
      .error ⟨line.number, .colonInName (String.ofList (line.text ++ blanks))⟩

theorem LeavesBlanks.readAlike {unfinished finished : List Char} {above : List Line} {line : Line}
    {blanks : List Char} (h : LeavesBlanks unfinished finished above line blanks)
    (sourcesDir : Path) : ReadAlike sourcesDir unfinished finished above line blanks := by
  obtain ⟨next, below, hunfinished, hfinished⟩ := h.lines
  have hne : blanks ≠ [] := by
    rintro rfl
    cases h.newline
  have hskip : parse sourcesDir finished = ofLines sourcesDir (above ++ line :: below) := by
    rw [parse, hfinished, List.append_cons, ofLines_insert_blank sourcesDir rfl, ← List.append_cons]
  constructor
  case same =>
    intro hcolon
    rw [hskip, parse, hunfinished]
    exact ofLines_congr_line fun reading =>
      reading.feed_append_blank sourcesDir hne h.blank hcolon
  case early =>
    intro fault hfault
    rw [hskip, parse, hunfinished]
    exact ⟨ofLines_of_fault_above hfault, ofLines_of_fault_above hfault⟩
  case refused =>
    intro reading habove hhead hcolon
    rw [parse, hunfinished]
    exact ofLines_of_fault habove (reading.feed_of_colon sourcesDir hne h.blank hhead hcolon)

/-- A logical line ends in a blank if and only if a physical line without content closes it. The
blanks it ends in are of no account, unless they hide the colon of a line at the margin. -/
theorem closed_lines (sourcesDir : Path) :
    (∀ text, logicalLines text = (blocks text).map Block.line ∧ ∀ block ∈ blocks text,
      (trimEnd block.line.text = block.line.text ↔ ¬ block.IsBlankClosed)) ∧
    ∀ before front back line after, ClosedByIdle before front back line after →
      ∃ above closed blanks,
        LeavesBlanks (before ++ (front ++ '\\' :: (back ++ '\n' :: (line ++ after))))
          (before ++ (front ++ (back ++ '\n' :: (line ++ after)))) above closed blanks ∧
        ReadAlike sourcesDir (before ++ (front ++ '\\' :: (back ++ '\n' :: (line ++ after))))
          (before ++ (front ++ (back ++ '\n' :: (line ++ after)))) above closed blanks := by
  refine ⟨fun text => ⟨logicalLines_eq text, fun block hblock =>
    trimEnd_line_iff (formed_of_mem_blocks hblock)⟩, ?_⟩
  intro before front back line after h
  obtain ⟨above, closed, blanks, hleaves⟩ := exists_leavesBlanks h
  exact ⟨above, closed, blanks, hleaves, hleaves.readAlike sourcesDir⟩

/-- A directive that goes on above a comment, and the same without its backslash. -/
def hangingText : List Char := "a:\n  pre: x \\ # y\n # z \\\n  post: y\n".toList

def mendedText : List Char := "a:\n  pre: x  # y\n # z \\\n  post: y\n".toList

theorem closedByIdle_hanging :
    ClosedByIdle "a:\n".toList "  pre: x ".toList " # y".toList " # z \\".toList
      "\n  post: y\n".toList where
  ended := .inr (by decide)
  one_line := by decide
  continues := by decide
  finished := by decide
  idle := ⟨by decide, [' '], "# z \\".toList, by decide, List.all_eq_true.mp (by decide),
    .inr (by decide)⟩
  ends := .inr ⟨"  post: y\n".toList, .inl (by decide)⟩

theorem closed_lines_of_hanging :
    blocks hangingText = [⟨1, [], some "a:".toList⟩,
      ⟨2, ["  pre: x \\ # y".toList], some " # z \\".toList⟩, ⟨4, [], some "  post: y".toList⟩] ∧
    trimEnd "  pre: x \n".toList ≠ "  pre: x \n".toList ∧
    ClosedByIdle "a:\n".toList "  pre: x ".toList " # y".toList " # z \\".toList
      "\n  post: y\n".toList ∧
    (∃ above closed blanks, LeavesBlanks hangingText mendedText above closed blanks ∧
      ReadAlike ⟨"s"⟩ hangingText mendedText above closed blanks) ∧
    parse ⟨"s"⟩ hangingText =
      .ok ⟨[⟨1, { name := "a", preScript? := some "x", postScript? := some "y" }⟩]⟩ := by
  have hblocks : blocks hangingText = [⟨1, [], some "a:".toList⟩,
      ⟨2, ["  pre: x \\ # y".toList], some " # z \\".toList⟩,
      ⟨4, [], some "  post: y".toList⟩] := by
    decide +kernel
  refine ⟨hblocks, ?_, closedByIdle_hanging, ?_, by decide +kernel⟩
  · have hline := ((closed_lines ⟨"s"⟩).1 hangingText).2
      ⟨2, ["  pre: x \\ # y".toList], some " # z \\".toList⟩ (by rw [hblocks]; simp)
    have hclosed : Block.IsBlankClosed ⟨2, ["  pre: x \\ # y".toList], some " # z \\".toList⟩ :=
      ⟨by simp, _, rfl, by decide⟩
    exact fun htrim => hline.mp htrim hclosed
  · exact (closed_lines ⟨"s"⟩).2 _ _ _ _ _ closedByIdle_hanging

/-- A unit line that goes on, above an empty line, keeps the newline and is refused. Without its
backslash it opens a block. -/
theorem newline_hides_colon :
    logicalLines "a:\\\n\n  flags: lead\n".toList =
      [⟨1, "a:\n".toList⟩, ⟨3, "  flags: lead".toList⟩] ∧
    trimEnd "a:\n".toList ≠ "a:\n".toList ∧
    parse ⟨"s"⟩ "a:\\\n\n  flags: lead\n".toList = .error ⟨1, .colonInName "a:\n"⟩ ∧
    parse ⟨"s"⟩ "a:\n\n  flags: lead\n".toList = .ok ⟨[⟨1, { name := "a", flags := [.lead] }⟩]⟩ := by
  exact ⟨by decide +kernel, by decide, by decide +kernel, by decide +kernel⟩

end Provision.Document
