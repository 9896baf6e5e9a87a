import Provision.Proofs.Document.Blocks
import Provision.Proofs.Text.Trimmed
import Provision.Document.Reading

/-!
# Quotes and comments

A `#` inside quotes does not begin a comment. Comments are cut from every physical line before the
lines are joined, so a quote protects what follows it on its own physical line: a span that is
closed there is found in the logical line as it is, and one that is not closed loses no more than the
end of any physical line loses. On the next physical line no quote is open.
-/

namespace Provision.Document

open Text

/-! ## Spans -/

/-- A text that leaves no quote open, and no `#` outside of quotes. -/
inductive Balanced : List Char → Prop
  | nil : Balanced []
  | plain {c : Char} {rest : List Char} (hquote : isQuote c = false) (hmark : c ≠ '#')
      (hrest : Balanced rest) : Balanced (c :: rest)
  | quoted {quote : Char} {inner rest : List Char} (hquote : isQuote quote = true)
      (hinner : quote ∉ inner) (hrest : Balanced rest) :
      Balanced (quote :: (inner ++ quote :: rest))

/-- A text from a quote to the next quote of its kind. -/
def IsClosedSpan (span : List Char) : Prop :=
  ∃ quote inner, isQuote quote = true ∧ quote ∉ inner ∧ span = quote :: (inner ++ [quote])

/-- A text that a quote opens and that no quote of its kind closes. -/
def IsOpenSpan (span : List Char) : Prop :=
  ∃ quote inner, isQuote quote = true ∧ quote ∉ inner ∧ span = quote :: inner

theorem isBlank_of_isQuote {c : Char} (h : isQuote c = true) : isBlank c = false := by
  rw [isQuote, Bool.or_eq_true, decide_eq_true_eq, decide_eq_true_eq] at h
  rcases h with rfl | rfl <;> decide

theorem ne_backslash_of_isQuote {c : Char} (h : isQuote c = true) : c ≠ '\\' := by
  rintro rfl
  exact absurd h (by decide)

theorem ne_mark_of_isQuote {c : Char} (h : isQuote c = true) : c ≠ '#' := by
  rintro rfl
  exact absurd h (by decide)

/-! ## Where a comment begins -/

theorem uncommentFrom_quoted {quote : Char} {inner : List Char} (h : quote ∉ inner)
    (rest : List Char) : uncommentFrom (some quote) (inner ++ rest) =
      inner ++ uncommentFrom (some quote) rest := by
  induction inner with
  | nil => rfl
  | cons c more ih =>
    rw [List.mem_cons, not_or] at h
    have hstays : quoteAfter (some quote) c = some quote := if_neg (Ne.symm h.1)
    rw [List.cons_append, uncommentFrom, if_neg (by simp), hstays, ih h.2, List.cons_append]

theorem uncommentFrom_quote {quote : Char} (h : isQuote quote = true) (rest : List Char) :
    uncommentFrom none (quote :: rest) = quote :: uncommentFrom (some quote) rest := by
  have hopens : quoteAfter none quote = some quote := if_pos h
  rw [uncommentFrom, if_neg (by simp [ne_mark_of_isQuote h]), hopens]

theorem uncommentFrom_closing (quote : Char) (rest : List Char) :
    uncommentFrom (some quote) (quote :: rest) = quote :: uncommentFrom none rest := by
  have hcloses : quoteAfter (some quote) quote = none := if_pos rfl
  rw [uncommentFrom, if_neg (by simp), hcloses]

theorem uncomment_append {before : List Char} (h : Balanced before) (rest : List Char) :
    uncomment (before ++ rest) = before ++ uncomment rest := by
  unfold uncomment
  induction h with
  | nil => rfl
  | plain hquote hmark _ ih =>
    rw [List.cons_append, uncommentFrom, if_neg (by simp [hmark]), quoteAfter, hquote]
    exact congrArg _ ih
  | @quoted quote inner _ hquote hinner _ ih =>
    rw [List.cons_append, List.append_assoc, List.cons_append, uncommentFrom_quote hquote,
      uncommentFrom_quoted hinner, uncommentFrom_closing, ih, List.cons_append, List.append_assoc,
      List.cons_append]

theorem uncomment_of_balanced {before : List Char} (h : Balanced before) :
    uncomment before = before := by
  simpa [uncomment, uncommentFrom] using uncomment_append h []

theorem balanced_of_isClosedSpan {span : List Char} (h : IsClosedSpan span) : Balanced span := by
  obtain ⟨quote, inner, hquote, hinner, rfl⟩ := h
  exact .quoted hquote hinner .nil

theorem uncomment_of_isOpenSpan {span : List Char} (h : IsOpenSpan span) :
    uncomment span = span := by
  obtain ⟨quote, inner, hquote, hinner, rfl⟩ := h
  have hinside := uncommentFrom_quoted hinner []
  rw [List.append_nil, uncommentFrom, List.append_nil] at hinside
  rw [uncomment, uncommentFrom_quote hquote, hinside]

theorem addition_of_comment {before : List Char} (h : Balanced before) (after : List Char) :
    addition (before ++ '#' :: after) = addition before := by
  have hcut : uncomment ('#' :: after) = [] := by simp [uncomment, uncommentFrom]
  have hclean : clean (before ++ '#' :: after) = clean before := by
    rw [clean, uncomment_append h, hcut, List.append_nil, clean, uncomment_of_balanced h]
  rw [addition, addition, hclean]

/-! ## What is left of a span -/

/-- What the end of a physical line loses: blanks, and a backslash in whose place a newline stands
if the text goes on. -/
structure IsLineEnd (lost rest : List Char) : Prop where
  chars : ∀ c ∈ lost, isBlank c = true ∨ c = '\\'
  once : lost.count '\\' ≤ 1
  newline : '\\' ∈ lost → rest.head? = some '\n' ∨ rest = []

theorem not_mem_of_blank {blanks : List Char} (h : ∀ c ∈ blanks, isBlank c = true) :
    '\\' ∉ blanks := by
  intro hmem
  exact absurd (h _ hmem) (by decide)

theorem isLineEnd_of_blank {blanks : List Char} (h : ∀ c ∈ blanks, isBlank c = true)
    (rest : List Char) : IsLineEnd blanks rest where
  chars c hc := .inl (h c hc)
  once := by rw [List.count_eq_zero_of_not_mem (not_mem_of_blank h)]; exact Nat.zero_le 1
  newline hmem := absurd hmem (not_mem_of_blank h)

theorem exists_addition {raw front : List Char} {c : Char} {rest : List Char} (hc : c ≠ '\\')
    (h : clean raw = front ++ c :: rest) :
    (addition raw = front ++ c :: rest) ∨
      ∃ more, rest = more ++ ['\\'] ∧ addition raw = front ++ c :: (more ++ ['\n']) := by
  by_cases hraw : Continues raw
  · right
    obtain ⟨part, hpart, hadded⟩ := addition_of_continues hraw
    rcases List.eq_nil_or_concat' rest with rfl | ⟨more, last, rfl⟩
    · obtain ⟨-, hlast⟩ := List.append_inj' (h.symm.trans hpart) rfl
      exact absurd (List.singleton_inj.mp hlast) hc
    · have hsplit : (front ++ c :: more) ++ [last] = part ++ ['\\'] := by
        rw [← hpart, h]
        simp
      obtain ⟨rfl, hlast⟩ := List.append_inj' hsplit rfl
      exact ⟨more, by rw [hlast], by rw [hadded]; simp⟩
  · exact .inl (by rw [addition_of_not_continues hraw, h])

theorem exists_addition_of_closed {before span : List Char} (hbefore : Balanced before)
    (hspan : IsClosedSpan span) (after : List Char) :
    ∃ rest, addition (before ++ (span ++ after)) = before ++ (span ++ rest) := by
  have hclean : clean (before ++ (span ++ after)) =
      trimEnd (before ++ (span ++ uncomment after)) := by
    rw [clean, uncomment_append hbefore, uncomment_append (balanced_of_isClosedSpan hspan)]
  obtain ⟨quote, inner, hquote, -, rfl⟩ := hspan
  have hsplit : ∀ rest, before ++ (quote :: (inner ++ [quote]) ++ rest) =
      (before ++ quote :: inner) ++ quote :: rest := by
    intro rest
    simp
  simp only [hsplit] at hclean ⊢
  rw [trimEnd_append_cons _ (isBlank_of_isQuote hquote)] at hclean
  rcases exists_addition (ne_backslash_of_isQuote hquote) hclean with hadded | ⟨more, -, hadded⟩
  · exact ⟨_, hadded⟩
  · exact ⟨_, hadded⟩

theorem exists_addition_of_open {before span : List Char} (hbefore : Balanced before)
    (hspan : IsOpenSpan span) : ∃ quote inner lost rest, isQuote quote = true ∧
      span = quote :: inner ++ lost ∧ (∀ below, IsLineEnd lost (rest ++ below)) ∧
        addition (before ++ span) = before ++ (quote :: inner ++ rest) := by
  have hclean : clean (before ++ span) = trimEnd (before ++ span) := by
    rw [clean, uncomment_append hbefore, uncomment_of_isOpenSpan hspan]
  obtain ⟨quote, inner, hquote, -, rfl⟩ := hspan
  rw [trimEnd_append_cons _ (isBlank_of_isQuote hquote)] at hclean
  obtain ⟨tail, hinner, htail⟩ := exists_trimEnd_append inner
  rcases exists_addition (ne_backslash_of_isQuote hquote) hclean with hadded | ⟨more, hmore, hadded⟩
  · refine ⟨quote, trimEnd inner, tail, [], hquote, by simp [← hinner], isLineEnd_of_blank htail, ?_⟩
    rw [hadded, List.append_nil]
  · refine ⟨quote, more, '\\' :: tail, ['\n'], hquote, ?_, fun _ => ⟨?_, ?_, fun _ => .inl rfl⟩,
      hadded⟩
    · rw [hinner, hmore]
      simp
    · exact List.forall_mem_cons.mpr ⟨.inr rfl, fun c hc => .inl (htail c hc)⟩
    · simp [List.count_eq_zero_of_not_mem (not_mem_of_blank htail)]

/-! ## Logical lines -/

/-- What a logical line has of the quotes of one of its physical lines, behind what the lines above
that one add. -/
structure KeepsQuotes (front raw line : List Char) : Prop where
  closed : ∀ before span after, raw = before ++ (span ++ after) → Balanced before →
    IsClosedSpan span → ∃ rest, line = front ++ (before ++ (span ++ rest))
  unclosed : ∀ before span, raw = before ++ span → Balanced before → IsOpenSpan span →
    ∃ kept lost rest, span = kept ++ lost ∧ IsLineEnd lost rest ∧
      line = front ++ (before ++ (kept ++ rest))
  comment : ∀ before after, raw = before ++ '#' :: after → Balanced before →
    addition raw = addition before

/-- The end of the text takes blanks only from what is left of an open span. -/
theorem exists_trimEnd_of_kept {quote : Char} {inner lost rest : List Char}
    (hquote : isQuote quote = true) (hlost : IsLineEnd lost rest) (front : List Char) :
    ∃ kept more tail, quote :: inner = kept ++ more ∧ IsLineEnd (more ++ lost) tail ∧
      trimEnd (front ++ (quote :: inner ++ rest)) = front ++ (kept ++ tail) := by
  have hne : trimEnd (quote :: inner ++ rest) ≠ [] := by
    rw [List.cons_append, trimEnd_cons_of_not_blank (isBlank_of_isQuote hquote)]
    exact List.cons_ne_nil _ _
  rw [trimEnd_append_of_ne_nil front hne]
  obtain ⟨blanks, hsplit, hblanks⟩ := exists_trimEnd_append (quote :: inner ++ rest)
  rcases List.append_eq_append_iff.mp hsplit with ⟨tail, hkept, htail⟩ | ⟨more, hmore, hrest⟩
  · refine ⟨quote :: inner, [], tail, by simp, ⟨hlost.chars, hlost.once, fun hmem => ?_⟩,
      by rw [hkept]⟩
    rcases hlost.newline hmem with hnewline | hnil
    · rw [htail] at hnewline
      cases tail with
      | nil => exact .inr rfl
      | cons c _ => exact .inl hnewline
    · rw [hnil] at htail
      exact .inr (List.append_eq_nil_iff.mp htail.symm).1
  · have hblank : ∀ c ∈ more, isBlank c = true :=
      fun c hc => hblanks c (hrest ▸ List.mem_append_left _ hc)
    refine ⟨_, more, [], hmore, ⟨?_, ?_, fun _ => .inr rfl⟩, by rw [List.append_nil]⟩
    · intro c hc
      exact (List.mem_append.mp hc).elim (fun hc => .inl (hblank c hc)) (hlost.chars c)
    · rw [List.count_append, List.count_eq_zero_of_not_mem (not_mem_of_blank hblank), Nat.zero_add]
      exact hlost.once

theorem keepsQuotes_of_lines {block : Block} {above below : List (List Char)} {raw : List Char}
    (h : block.lines = above ++ raw :: below) :
    KeepsQuotes (joined above) raw block.line.text := by
  have htext : joined block.lines = joined above ++ (addition raw ++ joined below) := by
    rw [h, joined_append, joined_cons]
  constructor
  case closed =>
    rintro before span after rfl hbefore hspan
    obtain ⟨rest, hadded⟩ := exists_addition_of_closed hbefore hspan after
    rw [hadded] at htext
    unfold Block.line
    simp only
    split
    · exact ⟨rest ++ joined below, by rw [htext]; simp⟩
    · obtain ⟨quote, inner, hquote, -, rfl⟩ := hspan
      have hsplit : joined block.lines =
          (joined above ++ (before ++ quote :: inner)) ++ quote :: (rest ++ joined below) := by
        rw [htext]
        simp
      refine ⟨trimEnd (rest ++ joined below), ?_⟩
      rw [hsplit, trimEnd_append_cons _ (isBlank_of_isQuote hquote)]
      simp
  case unclosed =>
    rintro before span rfl hbefore hspan
    obtain ⟨quote, inner, lost, rest, hquote, rfl, hlost, hadded⟩ :=
      exists_addition_of_open hbefore hspan
    have hsplit : joined block.lines =
        (joined above ++ before) ++ (quote :: inner ++ (rest ++ joined below)) := by
      rw [htext, hadded]
      simp
    unfold Block.line
    simp only
    split
    · exact ⟨quote :: inner, lost, rest ++ joined below, rfl, hlost _, by rw [hsplit]; simp⟩
    · obtain ⟨kept, more, tail, hkept, hend, htrim⟩ :=
        exists_trimEnd_of_kept hquote (hlost (joined below)) (joined above ++ before)
      refine ⟨kept, more ++ lost, tail, by rw [hkept, List.append_assoc], hend, ?_⟩
      rw [hsplit, htrim, List.append_assoc]
  case comment =>
    rintro before after rfl hbefore
    exact addition_of_comment hbefore after

/-- Quotes are kept by the logical lines of a text, each of which is made of physical lines: on its
own physical line a span is never cut by a comment. -/
theorem quotes_kept (text : List Char) :
    logicalLines text = (blocks text).map Block.line ∧
      (blocks text).flatMap Block.lines = physicalLines text ∧
      ∀ block ∈ blocks text, ∀ above raw below, block.lines = above ++ raw :: below →
        KeepsQuotes (joined above) raw block.line.text :=
  ⟨logicalLines_eq text, flatMap_lines_blocks text,
    fun _ _ _ _ _ h => keepsQuotes_of_lines h⟩

/-- A span with a `#` that is closed on the second line of a script, and one that is not. -/
def quotedText : List Char := "x:\n  post: a 'b \\\n c \"#d\" '# e \\ \n f # g\n".toList

theorem quotes_kept_by_script :
    blocks quotedText = [⟨1, [], some "x:".toList⟩,
      ⟨2, ["  post: a 'b \\".toList, " c \"#d\" '# e \\ ".toList], some " f # g".toList⟩] ∧
    logicalLines quotedText = [⟨1, "x:".toList⟩, ⟨2, "  post: a 'b \n c \"#d\" '# e \n f".toList⟩] ∧
    KeepsQuotes "  post: a 'b \n".toList " c \"#d\" '# e \\ ".toList
      "  post: a 'b \n c \"#d\" '# e \n f".toList := by
  have hblocks : blocks quotedText = [⟨1, [], some "x:".toList⟩,
      ⟨2, ["  post: a 'b \\".toList, " c \"#d\" '# e \\ ".toList], some " f # g".toList⟩] := by
    decide +kernel
  refine ⟨hblocks, by decide +kernel, ?_⟩
  exact (quotes_kept quotedText).2.2
    ⟨2, ["  post: a 'b \\".toList, " c \"#d\" '# e \\ ".toList], some " f # g".toList⟩
    (by simp [hblocks]) ["  post: a 'b \\".toList] _ [" f # g".toList] rfl

/-- A script with a span that begins on one line and ends on the next, with a `#` in between. -/
def acrossText : List Char := "x:\n  post: echo \"a \\\n  # b\"\n".toList

theorem balanced_of_plain {s : List Char} (h : s.all fun c => !isQuote c && c != '#') :
    Balanced s := by
  induction s with
  | nil => exact .nil
  | cons c rest ih =>
    rw [List.all_cons, Bool.and_eq_true] at h
    simp only [Bool.and_eq_true, Bool.not_eq_true', bne_iff_ne] at h
    exact .plain h.1.1 h.1.2 (ih (by simpa using h.2))

/-- Quotes are not kept across lines: the span is cut at its `#`, and the script with it. -/
theorem span_across_lines_is_cut :
    blocks acrossText = [⟨1, [], some "x:".toList⟩,
      ⟨2, ["  post: echo \"a \\".toList], some "  # b\"".toList⟩] ∧
    ['\n'].intercalate ["  post: echo \"a ".toList, "  # b\"".toList] =
      "  post: echo ".toList ++ "\"a \n  # b\"".toList ∧
    Balanced "  post: echo ".toList ∧ IsClosedSpan "\"a \n  # b\"".toList ∧
    logicalLines acrossText = [⟨1, "x:".toList⟩, ⟨2, "  post: echo \"a \n".toList⟩] ∧
    parse ⟨"s"⟩ acrossText = .ok ⟨[⟨1, { name := "x", postScript? := some "echo \"a" }⟩]⟩ := by
  refine ⟨by decide +kernel, by decide, balanced_of_plain ?_, ?_, by decide +kernel,
    by decide +kernel⟩
  · decide
  · exact ⟨'"', "a \n  # b".toList, by decide, by decide, by decide⟩

end Provision.Document
