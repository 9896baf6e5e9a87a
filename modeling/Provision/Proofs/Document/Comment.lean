import Mathlib.Data.List.Induction
import Mathlib.Data.List.Infix
import Provision.Proofs.Document.Quotes

/-!
# Where a comment begins

A line is read from the left: a quote outside of spans opens one, the next quote of its kind closes
it, and a span without such a quote reaches to the end of the line. A comment is cut at the first
`#` that lies in no span. What is left is the longest beginning of the line in which every `#` lies
in a span.
-/

namespace Provision.Document

open Text

/-! ## Spans of a line -/

/-- A text that leaves no span open. -/
inductive SpansClosed : List Char → Prop
  | nil : SpansClosed []
  | plain {c : Char} {rest : List Char} (hquote : isQuote c = false) (hrest : SpansClosed rest) :
      SpansClosed (c :: rest)
  | span {span rest : List Char} (hspan : IsClosedSpan span) (hrest : SpansClosed rest) :
      SpansClosed (span ++ rest)

/-- The character at `i` lies in a span. The text before the span leaves none open, and a span that
is not closed reaches to the end of the line. -/
def Quoted (line : List Char) (i : Nat) : Prop :=
  ∃ front span back, line = front ++ (span ++ back) ∧ SpansClosed front ∧
    (IsClosedSpan span ∨ IsOpenSpan span ∧ back = []) ∧
      front.length ≤ i ∧ i < front.length + span.length

/-- Every `#` of the line lies in a span. -/
def MarksQuoted (line : List Char) : Prop :=
  ∀ front rest, line = front ++ '#' :: rest → Quoted line front.length

theorem SpansClosed.append {s t : List Char} (hs : SpansClosed s) (ht : SpansClosed t) :
    SpansClosed (s ++ t) := by
  induction hs with
  | nil => exact ht
  | plain hquote _ ih => exact .plain hquote ih
  | span hspan _ ih =>
    rw [List.append_assoc]
    exact .span hspan ih

theorem spansClosed_or_exists_openSpan (s : List Char) :
    SpansClosed s ∨ ∃ front span, s = front ++ span ∧ SpansClosed front ∧ IsOpenSpan span := by
  induction s using List.reverseRecOn with
  | nil => exact .inl .nil
  | append_singleton s c ih =>
    rcases ih with hclosed | ⟨front, _, rfl, hfront, quote, inner, hquote, hinner, rfl⟩
    · cases hc : isQuote c with
      | true => exact .inr ⟨s, [c], rfl, hclosed, c, [], hc, List.not_mem_nil, rfl⟩
      | false => exact .inl (hclosed.append (.plain hc .nil))
    · by_cases hc : c = quote
      · subst hc
        have hspan : IsClosedSpan (c :: (inner ++ [c])) := ⟨c, inner, hquote, hinner, rfl⟩
        have hsplit : front ++ c :: inner ++ [c] = front ++ (c :: (inner ++ [c]) ++ []) := by simp
        rw [hsplit]
        exact .inl (hfront.append (.span hspan .nil))
      · have hlonger : quote ∉ inner ++ [c] := by simpa [Ne.symm hc] using hinner
        exact .inr ⟨front, quote :: (inner ++ [c]), by simp, hfront, quote, _, hquote, hlonger, rfl⟩

/-! ## The quote that is open -/

theorem foldl_quoteAfter_of_not_mem {quote : Char} {inner : List Char} (h : quote ∉ inner) :
    inner.foldl quoteAfter (some quote) = some quote := by
  induction inner with
  | nil => rfl
  | cons c rest ih =>
    rw [List.mem_cons, not_or] at h
    rw [List.foldl_cons, quoteAfter, if_neg (Ne.symm h.1), ih h.2]

theorem foldl_quoteAfter_of_openSpan {quote : Char} {inner : List Char}
    (hquote : isQuote quote = true) (hinner : quote ∉ inner) :
    (quote :: inner).foldl quoteAfter none = some quote := by
  rw [List.foldl_cons, quoteAfter, if_pos hquote, foldl_quoteAfter_of_not_mem hinner]

theorem foldl_quoteAfter_of_spansClosed {s : List Char} (h : SpansClosed s) :
    s.foldl quoteAfter none = none := by
  induction h with
  | nil => rfl
  | plain hquote _ ih => rwa [List.foldl_cons, quoteAfter, if_neg (by simp [hquote])]
  | span hspan _ ih =>
    obtain ⟨quote, inner, hquote, hinner, rfl⟩ := hspan
    rw [List.foldl_append, ← List.cons_append, List.foldl_append,
      foldl_quoteAfter_of_openSpan hquote hinner, List.foldl_cons, List.foldl_nil, quoteAfter,
      if_pos rfl, ih]

theorem exists_inner_of_span {span back : List Char}
    (h : IsClosedSpan span ∨ IsOpenSpan span ∧ back = []) : ∃ quote inner tail,
      isQuote quote = true ∧ quote ∉ inner ∧ span = quote :: (inner ++ tail) ∧ '#' ∉ tail := by
  rcases h with ⟨quote, inner, hquote, hinner, rfl⟩ | ⟨⟨quote, inner, hquote, hinner, rfl⟩, -⟩
  · have hmark : '#' ∉ [quote] := by simpa using (ne_mark_of_isQuote hquote).symm
    exact ⟨quote, inner, [quote], hquote, hinner, rfl, hmark⟩
  · exact ⟨quote, inner, [], hquote, hinner, by rw [List.append_nil], List.not_mem_nil⟩

theorem open_of_quoted {front rest : List Char} (h : Quoted (front ++ '#' :: rest) front.length) :
    front.foldl quoteAfter none ≠ none := by
  obtain ⟨before, span, back, hsplit, hbefore, hkind, hstart, hend⟩ := h
  obtain ⟨quote, inner, tail, hquote, hinner, rfl, htail⟩ := exists_inner_of_span hkind
  -- The span begins before the mark, since a mark is no quote, and it holds the mark.
  obtain ⟨part, rfl⟩ : before <+: front :=
    List.prefix_of_prefix_length_le ⟨_, hsplit.symm⟩ ⟨_, rfl⟩ hstart
  rw [List.append_assoc, List.append_cancel_left_eq] at hsplit
  have hmark : part ++ ['#'] <+: part ++ '#' :: rest := ⟨rest, by simp⟩
  have hspan : quote :: (inner ++ tail) <+: part ++ '#' :: rest := ⟨back, hsplit.symm⟩
  have hlength : (part ++ ['#']).length ≤ (quote :: (inner ++ tail)).length := by
    simp only [List.length_append, List.length_cons, List.length_nil] at hend ⊢
    omega
  obtain ⟨more, hmore⟩ := List.prefix_of_prefix_length_le hmark hspan hlength
  cases part with
  | nil => exact absurd (List.cons.inj hmore).1.symm (ne_mark_of_isQuote hquote)
  | cons c inside =>
    simp only [List.cons_append, List.append_assoc, List.cons.injEq] at hmore
    obtain ⟨rfl, hinside⟩ := hmore
    have hfree : c ∉ inside := by
      rcases List.append_eq_append_iff.mp hinside with ⟨rest, rfl, -⟩ | ⟨rest, -, hrest⟩
      · exact fun hmem => hinner (List.mem_append_left _ hmem)
      · exact absurd (by simp [hrest]) htail
    rw [List.foldl_append, foldl_quoteAfter_of_spansClosed hbefore,
      foldl_quoteAfter_of_openSpan hquote hfree]
    exact Option.some_ne_none c

theorem quoted_of_open {front : List Char} (h : front.foldl quoteAfter none ≠ none)
    (rest : List Char) : Quoted (front ++ '#' :: rest) front.length := by
  rcases spansClosed_or_exists_openSpan front with
    hclosed | ⟨before, _, rfl, hbefore, quote, inner, hquote, hinner, rfl⟩
  · exact absurd (foldl_quoteAfter_of_spansClosed hclosed) h
  · have hmark := ne_mark_of_isQuote hquote
    by_cases hrest : quote ∈ rest
    · obtain ⟨more, back, rfl, hmore⟩ := List.eq_append_cons_of_mem hrest
      refine ⟨before, quote :: ((inner ++ '#' :: more) ++ [quote]), back, by simp, hbefore,
        .inl ⟨quote, _, hquote, by simp [hinner, hmark, hmore], rfl⟩, ?_⟩
      simp
    · refine ⟨before, quote :: (inner ++ '#' :: rest), [], by simp, hbefore,
        .inr ⟨⟨quote, _, hquote, by simp [hinner, hmark, hrest], rfl⟩, rfl⟩, ?_⟩
      simp

theorem quoted_iff_open {front rest : List Char} :
    Quoted (front ++ '#' :: rest) front.length ↔ front.foldl quoteAfter none ≠ none :=
  ⟨open_of_quoted, fun h => quoted_of_open h rest⟩

/-! ## The cut -/

/-- At every `#` of the text a quote is open, if `opened` is at the start. -/
def MarksOpen (opened : Option Char) (s : List Char) : Prop :=
  ∀ front rest, s = front ++ '#' :: rest → front.foldl quoteAfter opened ≠ none

theorem marksQuoted_iff {line : List Char} : MarksQuoted line ↔ MarksOpen none line := by
  constructor
  · rintro h front rest rfl
    exact quoted_iff_open.mp (h front rest rfl)
  · rintro h front rest rfl
    exact quoted_iff_open.mpr (h front rest rfl)

theorem marksOpen_nil (opened : Option Char) : MarksOpen opened [] := by
  intro front rest hsplit
  simp at hsplit

theorem marksOpen_cons_iff {opened : Option Char} {c : Char} {rest : List Char} :
    MarksOpen opened (c :: rest) ↔
      (c = '#' → opened ≠ none) ∧ MarksOpen (quoteAfter opened c) rest := by
  constructor
  · intro h
    refine ⟨?_, fun front back hsplit => ?_⟩
    · rintro rfl
      exact h [] rest rfl
    · exact h (c :: front) back (by rw [hsplit, List.cons_append])
  · rintro ⟨hfirst, hrest⟩ front back hsplit
    cases front with
    | nil => exact hfirst (List.cons.inj hsplit).1
    | cons other front =>
      obtain ⟨rfl, hbehind⟩ := List.cons.inj hsplit
      exact hrest front back hbehind

theorem marksOpen_uncommentFrom (opened : Option Char) (s : List Char) :
    MarksOpen opened (uncommentFrom opened s) := by
  induction s generalizing opened with
  | nil => exact marksOpen_nil opened
  | cons c rest ih =>
    rw [uncommentFrom]
    split
    · exact marksOpen_nil opened
    · next hgoes =>
      refine marksOpen_cons_iff.mpr ⟨?_, ih _⟩
      rintro rfl rfl
      exact hgoes rfl

/-- Text in which no comment begins is kept, and what follows is read under the quote it leaves. -/
theorem uncommentFrom_append {opened : Option Char} {s : List Char} (h : MarksOpen opened s)
    (rest : List Char) :
    uncommentFrom opened (s ++ rest) = s ++ uncommentFrom (s.foldl quoteAfter opened) rest := by
  induction s generalizing opened with
  | nil => rfl
  | cons c more ih =>
    obtain ⟨hfirst, hmore⟩ := marksOpen_cons_iff.mp h
    have hgoes : ¬ (opened.isNone && decide (c = '#')) = true := by
      simp only [Bool.and_eq_true, Option.isNone_iff_eq_none, decide_eq_true_eq]
      exact fun hcut => hfirst hcut.2 hcut.1
    rw [List.cons_append, uncommentFrom, if_neg hgoes, ih hmore, List.cons_append, List.foldl_cons]

theorem exists_uncommentFrom_append (opened : Option Char) (s : List Char) :
    s = uncommentFrom opened s ∨ ∃ rest, s = uncommentFrom opened s ++ '#' :: rest ∧
      (uncommentFrom opened s).foldl quoteAfter opened = none := by
  induction s generalizing opened with
  | nil => exact .inl rfl
  | cons c rest ih =>
    rw [uncommentFrom]
    split
    · next hcut =>
      simp only [Bool.and_eq_true, Option.isNone_iff_eq_none, decide_eq_true_eq] at hcut
      obtain ⟨rfl, rfl⟩ := hcut
      exact .inr ⟨rest, rfl, rfl⟩
    · rcases ih (quoteAfter opened c) with hrest | ⟨more, hrest, hnone⟩
      · exact .inl (congrArg (c :: ·) hrest)
      · exact .inr ⟨more, congrArg (c :: ·) hrest, hnone⟩

theorem marksQuoted_uncomment (line : List Char) : MarksQuoted (uncomment line) :=
  marksQuoted_iff.mpr (marksOpen_uncommentFrom none line)

theorem uncomment_of_marksQuoted {s : List Char} (h : MarksQuoted s) : uncomment s = s := by
  simpa [uncomment, uncommentFrom] using uncommentFrom_append (marksQuoted_iff.mp h) []

theorem uncomment_append_mark {kept : List Char} (h : MarksQuoted kept)
    (hnone : kept.foldl quoteAfter none = none) (rest : List Char) :
    uncomment (kept ++ '#' :: rest) = kept := by
  have hkept := uncommentFrom_append (marksQuoted_iff.mp h) ('#' :: rest)
  rw [hnone] at hkept
  simpa [uncomment, uncommentFrom] using hkept

/-! ## What is left -/

/-- A line has a comment only if a `#` follows what is kept of it, and no quote is open there. -/
theorem uncomment_eq_or_cut (line : List Char) :
    line = uncomment line ∨ ∃ comment, line = uncomment line ++ '#' :: comment ∧
      (uncomment line).foldl quoteAfter none = none :=
  exists_uncommentFrom_append none line

/-- `kept` is the longest beginning of the line in which every `#` lies in a span. -/
structure IsLongestQuoted (line kept : List Char) : Prop where
  begins : kept <+: line
  quoted : MarksQuoted kept
  longest : ∀ other, other <+: line → MarksQuoted other → other <+: kept

theorem isLongestQuoted_uncomment (line : List Char) : IsLongestQuoted line (uncomment line) where
  begins := by
    rcases uncomment_eq_or_cut line with hall | ⟨comment, hcut, -⟩
    · rw [← hall]
    · exact ⟨'#' :: comment, hcut.symm⟩
  quoted := marksQuoted_uncomment line
  longest := by
    rintro other ⟨rest, rfl⟩ hother
    exact ⟨_, (uncommentFrom_append (marksQuoted_iff.mp hother) rest).symm⟩

theorem isLongestQuoted_iff {line kept : List Char} :
    IsLongestQuoted line kept ↔ kept = uncomment line := by
  have hline := isLongestQuoted_uncomment line
  constructor
  · intro h
    have hshort := hline.longest kept h.begins h.quoted
    have hlong := h.longest _ hline.begins hline.quoted
    exact hshort.eq_of_length_le hlong.length_le
  · rintro rfl
    exact hline

theorem mark_of_cut {line rest : List Char} {c : Char} (h : line = uncomment line ++ c :: rest) :
    c = '#' ∧ ¬ Quoted line (uncomment line).length := by
  rcases uncomment_eq_or_cut line with hall | ⟨comment, hcut, hnone⟩
  · have hlength := congrArg List.length (h.symm.trans hall)
    simp at hlength
  · obtain ⟨rfl, -⟩ := List.cons.inj (List.append_cancel_left (h.symm.trans hcut))
    have hquoted : ¬ Quoted (uncomment line ++ '#' :: rest) (uncomment line).length := by
      rw [quoted_iff_open, not_not]
      exact hnone
    rw [← h] at hquoted
    exact ⟨rfl, hquoted⟩

theorem uncomment_of_cut {line : List Char} (hne : uncomment line ≠ line) (more : List Char) :
    uncomment (line ++ more) = uncomment line ∧
      uncomment (uncomment line ++ '#' :: more) = uncomment line := by
  have hkept := marksQuoted_uncomment line
  rcases uncomment_eq_or_cut line with hall | ⟨comment, hcut, hnone⟩
  · exact absurd hall.symm hne
  · have hlonger : line ++ more = uncomment line ++ '#' :: (comment ++ more) := by
      rw [← List.cons_append, ← List.append_assoc, ← hcut]
    rw [hlonger]
    exact ⟨uncomment_append_mark hkept hnone _, uncomment_append_mark hkept hnone more⟩

/-- A line is cut at its first `#` that lies in no span. What is left has no comment, and the comment
may be any text. -/
theorem comment_is_cut (line : List Char) :
    (∀ kept, IsLongestQuoted line kept ↔ kept = uncomment line) ∧
    (∀ c rest, line = uncomment line ++ c :: rest →
      c = '#' ∧ ¬ Quoted line (uncomment line).length) ∧
    uncomment (uncomment line) = uncomment line ∧
    (uncomment line ≠ line → ∀ more, uncomment (line ++ more) = uncomment line ∧
      uncomment (uncomment line ++ '#' :: more) = uncomment line) :=
  ⟨fun _ => isLongestQuoted_iff, fun _ _ => mark_of_cut,
    uncomment_of_marksQuoted (marksQuoted_uncomment line), uncomment_of_cut⟩

/-- A `#` behind another quote inside of a span, and one that begins a comment. -/
def commentedLine : List Char := "echo \"it's #1\" # a \"b".toList

theorem comment_is_cut_after_span :
    uncomment commentedLine = "echo \"it's #1\" ".toList ∧
      IsLongestQuoted commentedLine "echo \"it's #1\" ".toList ∧
      ¬ Quoted commentedLine 15 ∧
      ∀ more, uncomment (commentedLine ++ more) = "echo \"it's #1\" ".toList := by
  have hcut : uncomment commentedLine = "echo \"it's #1\" ".toList := by decide
  obtain ⟨hlongest, hnext, -, happend⟩ := comment_is_cut commentedLine
  rw [hcut] at hnext happend
  refine ⟨hcut, (hlongest _).mpr hcut.symm, (hnext '#' " a \"b".toList (by decide)).2, ?_⟩
  exact fun more => (happend (by decide) more).1

end Provision.Document
