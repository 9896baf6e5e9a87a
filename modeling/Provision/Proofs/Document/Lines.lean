import Mathlib.Data.List.Basic
import Provision.Document.Line

/-!
# Lines of joined texts

The lines of a text that is made of two parts. If the first part ends its last line, the physical
lines of the whole are those of the parts. If moreover this line does not go on in the next one, the
logical lines are those of the parts too, the second part's with later numbers.
-/

namespace Provision.Document

open Text

/-! ## Physical lines -/

theorem physicalLines_append_newline (front back : List Char) :
    physicalLines (front ++ '\n' :: back) =
      (pieces '\n' front).map dropReturn ++ physicalLines back := by
  have hne := pieces_ne_nil '\n' back
  have hlast : (pieces '\n' front ++ pieces '\n' back).getLast? = (pieces '\n' back).getLast? :=
    List.getLast?_append_of_ne_nil _ hne
  unfold physicalLines
  simp only [pieces_append_cons, List.dropLast_append_of_ne_nil hne, List.map_append, hlast]
  cases (pieces '\n' back).getLast? with
  | none => rfl
  | some last =>
    cases last with
    | nil => rfl
    | cons c rest => exact List.append_assoc _ _ _

theorem physicalLines_nil : physicalLines [] = [] := rfl

/-- A text whose last line, if it has one, ends in a newline. -/
def Ended (text : List Char) : Prop := text = [] ∨ text.getLast? = some '\n'

theorem physicalLines_append {front : List Char} (h : Ended front) (back : List Char) :
    physicalLines (front ++ back) = physicalLines front ++ physicalLines back := by
  rcases h with rfl | hlast
  · rfl
  · obtain ⟨start, rfl⟩ : ∃ start, front = start ++ ['\n'] :=
      ⟨front.dropLast, (List.dropLast_append_getLast? _ hlast).symm⟩
    have hback := physicalLines_append_newline start back
    have hfront := physicalLines_append_newline start []
    rw [physicalLines_nil, List.append_nil] at hfront
    rw [List.append_assoc, List.singleton_append, hback, hfront]

theorem physicalLines_line_append {line : List Char} (h : '\n' ∉ line) (back : List Char) :
    physicalLines (line ++ '\n' :: back) = dropReturn line :: physicalLines back := by
  rw [physicalLines_append_newline, pieces_of_not_mem h]
  rfl

theorem physicalLines_of_not_mem {line : List Char} (h : '\n' ∉ line) (hne : line ≠ []) :
    physicalLines line = [line] := by
  obtain ⟨c, rest, rfl⟩ := List.exists_cons_of_ne_nil hne
  unfold physicalLines
  rw [pieces_of_not_mem h]
  rfl

theorem not_mem_of_mem_physicalLines {text line : List Char} (h : line ∈ physicalLines text) :
    '\n' ∉ line := by
  have hpiece : ∀ piece ∈ pieces '\n' text, '\n' ∉ piece := fun _ => not_mem_of_mem_pieces
  have hended : line ∈ (pieces '\n' text).dropLast.map dropReturn → '\n' ∉ line := by
    intro hline
    obtain ⟨piece, hmem, rfl⟩ := List.mem_map.mp hline
    have hfree := hpiece piece ((List.dropLast_sublist _).mem hmem)
    unfold dropReturn
    split
    · exact fun hnewline => hfree ((List.dropLast_sublist _).mem hnewline)
    · exact hfree
  unfold physicalLines at h
  simp only at h
  split at h
  · next hlast =>
    rcases List.mem_append.mp h with hline | hline
    · exact hended hline
    · exact List.mem_singleton.mp hline ▸ hpiece _ (List.mem_of_getLast? hlast)
  · exact hended h

/-! ## What a physical line contributes -/

theorem isQuote_of_mem_quoteAfter {opened : Option Char}
    (h : ∀ quote ∈ opened, isQuote quote = true) (c : Char) :
    ∀ quote ∈ quoteAfter opened c, isQuote quote = true := by
  intro quote hmem
  unfold quoteAfter at hmem
  cases opened with
  | none =>
    simp only at hmem
    split at hmem
    · next hc =>
      obtain rfl := Option.some.inj hmem
      exact hc
    · cases hmem
  | some first =>
    simp only at hmem
    split at hmem
    · cases hmem
    · exact h quote hmem

theorem subset_uncommentFrom (opened : Option Char) (s : List Char) :
    uncommentFrom opened s ⊆ s := by
  induction s generalizing opened with
  | nil => exact List.Subset.refl []
  | cons c rest ih =>
    rw [uncommentFrom]
    split
    · exact List.nil_subset _
    · exact List.cons_subset_cons c (ih _)

/-- Blanks at the end of a physical line do not count, whether they stand in its comment or not. -/
theorem clean_append_blank (line : List Char) {blanks : List Char}
    (h : ∀ c ∈ blanks, isBlank c = true) : clean (line ++ blanks) = clean line := by
  have hfrom : ∀ opened, trimEnd (uncommentFrom opened (line ++ blanks)) =
      trimEnd (uncommentFrom opened line) := by
    induction line with
    | nil =>
      intro opened
      exact (trimEnd_eq_nil_iff _).mpr fun c hc => h c (subset_uncommentFrom opened blanks hc)
    | cons c rest ih =>
      intro opened
      rw [List.cons_append, uncommentFrom, uncommentFrom]
      split
      · rfl
      · rw [trimEnd, trimEnd, ih]
  exact hfrom none

theorem isBlank_return : ∀ c ∈ ['\r'], isBlank c = true := List.all_eq_true.mp (by decide)

theorem clean_dropReturn (line : List Char) : clean (dropReturn line) = clean line := by
  unfold dropReturn
  split
  · next hlast =>
    rw [← clean_append_blank line.dropLast isBlank_return, List.dropLast_append_getLast? _ hlast]
  · rfl

/-! ## Logical lines -/

def Continues (raw : List Char) : Prop := (continued? (clean raw)).isSome

instance : DecidablePred Continues := fun _ => inferInstanceAs (Decidable (_ = true))

theorem joinLines_congr {lines others : List (List Char)} (h : lines.map clean = others.map clean)
    (pending : Option Line) (number : Nat) :
    joinLines pending (lines.zipIdx number) = joinLines pending (others.zipIdx number) := by
  induction lines generalizing others pending number with
  | nil =>
    obtain rfl : others = [] := List.map_eq_nil_iff.mp h.symm
    rfl
  | cons raw rest ih =>
    obtain ⟨other, more, rfl, hraw, hrest⟩ := List.map_eq_cons_iff.mp h.symm
    simp only [List.zipIdx_cons, joinLines, hraw, ih hrest.symm]

/-- A physical line that does not go on separates what is before it from what is after it. -/
theorem joinLines_append {front : List (List Char × Nat)} {pending : Option Line}
    (hclosed : ∀ last, front.getLast? = some last → ¬ Continues last.1)
    (hpending : front = [] → pending = none) (back : List (List Char × Nat)) :
    joinLines pending (front ++ back) = joinLines pending front ++ joinLines none back := by
  induction front generalizing pending with
  | nil =>
    rw [hpending rfl]
    rfl
  | cons physical rest ih =>
    obtain ⟨raw, number⟩ := physical
    have hrest : ∀ last, rest.getLast? = some last → ¬ Continues last.1 := by
      intro last hlast
      exact hclosed last (by rw [List.getLast?_cons, hlast, Option.getD_some])
    rw [List.cons_append, joinLines, joinLines]
    cases hraw : continued? (clean raw) with
    | none => rw [ih hrest fun _ => rfl, List.cons_append]
    | some part =>
      refine ih hrest ?_
      rintro rfl
      exact absurd (by simp [Continues, hraw]) (hclosed (raw, number) rfl)

def Line.renumber (f : Nat → Nat) (line : Line) : Line := { line with number := f line.number }

theorem joinLines_renumber (f : Nat → Nat) (pending : Option Line)
    (physical : List (List Char × Nat)) :
    joinLines (pending.map (Line.renumber f)) (physical.map (Prod.map id f)) =
      (joinLines pending physical).map (Line.renumber f) := by
  induction physical generalizing pending with
  | nil => cases pending <;> rfl
  | cons first rest ih =>
    obtain ⟨raw, number⟩ := first
    have hbegun : (pending.map (Line.renumber f)).getD ⟨f number, []⟩ =
        (pending.getD ⟨number, []⟩).renumber f := by
      cases pending <;> rfl
    simp only [List.map_cons, Prod.map, id, joinLines, hbegun]
    cases continued? (clean raw) with
    | none => exact congrArg _ (ih none)
    | some part =>
      exact ih (some ⟨_, (pending.getD ⟨number, []⟩).text ++ part ++ ['\n']⟩)

theorem zipIdx_add (lines : List (List Char)) (first more : Nat) :
    lines.zipIdx (first + more) = (lines.zipIdx first).map (Prod.map id (· + more)) := by
  induction lines generalizing first with
  | nil => rfl
  | cons raw rest ih =>
    have hnext : first + more + 1 = first + 1 + more := by omega
    rw [List.zipIdx_cons, List.zipIdx_cons, List.map_cons, hnext, ih]
    rfl

/-- A text whose last line is ended and does not go on. -/
structure Complete (text : List Char) : Prop where
  ended : Ended text
  closed : ∀ raw, (physicalLines text).getLast? = some raw → ¬ Continues raw

theorem complete_nil : Complete [] where
  ended := .inl rfl
  closed := by
    rintro _ ⟨⟩

theorem complete_of_getLast? {text : List Char} (last : List Char) (hended : text.getLast? = some '\n')
    (hlast : (physicalLines text).getLast? = some last) (hclosed : ¬ Continues last) :
    Complete text where
  ended := .inr hended
  closed raw hraw := by
    obtain rfl := Option.some.inj (hlast.symm.trans hraw)
    exact hclosed

theorem Complete.of_append {before part : List Char} (h : Complete (before ++ part))
    (hbefore : Ended before) (hne : part ≠ []) : Complete part where
  ended := by
    rcases h.ended with hnil | hlast
    · exact absurd (List.append_eq_nil_iff.mp hnil).2 hne
    · exact .inr (by rwa [List.getLast?_append_of_ne_nil _ hne] at hlast)
  closed raw hraw := by
    refine h.closed raw ?_
    rw [physicalLines_append hbefore, List.getLast?_append, hraw, Option.some_or]

theorem joinLines_of_complete {front : List Char} (h : Complete front) (first : Nat)
    (back : List (List Char × Nat)) :
    joinLines none ((physicalLines front).zipIdx first ++ back) =
      joinLines none ((physicalLines front).zipIdx first) ++ joinLines none back := by
  refine joinLines_append ?_ (fun _ => rfl) back
  intro last hlast
  refine h.closed last.1 ?_
  have hraw := congrArg (Option.map Prod.fst) hlast
  rwa [← List.getLast?_map, List.zipIdx_map_fst] at hraw

theorem logicalLines_append {front : List Char} (h : Complete front) (back : List Char) :
    logicalLines (front ++ back) = logicalLines front ++
      (logicalLines back).map (Line.renumber (· + (physicalLines front).length)) := by
  unfold logicalLines
  rw [physicalLines_append h.ended, List.zipIdx_append, joinLines_of_complete h, zipIdx_add]
  exact congrArg _ (joinLines_renumber _ none _)

end Provision.Document
