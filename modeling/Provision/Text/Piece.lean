/-!
# Cutting a text into pieces

`cut?` divides a text at the first character of a kind, `pieces` at every separator, and
`physicalLines` at every line end. A piece never holds the character it was cut at.
-/

namespace Provision.Text

/-- The text before and after the first character that satisfies `p`. -/
def cut? (p : Char → Bool) : List Char → Option (List Char × List Char)
  | [] => none
  | c :: rest =>
    if p c then some ([], rest) else (cut? p rest).map fun (before, after) => (c :: before, after)

theorem cut?_eq_none_iff (p : Char → Bool) (s : List Char) :
    cut? p s = none ↔ ∀ c ∈ s, p c = false := by
  induction s with
  | nil => simp [cut?]
  | cons c rest ih => by_cases h : p c <;> simp [cut?, h, ih]

/-- A cut loses the separating character only, and cuts at the first one. -/
theorem cut?_eq_some {p : Char → Bool} {s before after : List Char}
    (h : cut? p s = some (before, after)) :
    ∃ c, p c = true ∧ s = before ++ c :: after ∧ ∀ x ∈ before, p x = false := by
  induction s generalizing before with
  | nil => simp [cut?] at h
  | cons c rest ih =>
    by_cases hc : p c
    · simp only [cut?, hc, ↓reduceIte, Option.some.injEq, Prod.mk.injEq] at h
      obtain ⟨rfl, rfl⟩ := h
      exact ⟨c, hc, rfl, by simp⟩
    · simp only [cut?, hc, Bool.false_eq_true, ↓reduceIte, Option.map_eq_some_iff, Prod.mk.injEq,
        Prod.exists] at h
      obtain ⟨b, a, hcut, rfl, rfl⟩ := h
      obtain ⟨x, hx, split, free⟩ := ih hcut
      refine ⟨x, hx, by simp [split], ?_⟩
      simpa [hc] using free

theorem cut?_append_cons {p : Char → Bool} {before after : List Char} {c : Char}
    (hfree : ∀ x ∈ before, p x = false) (hc : p c = true) :
    cut? p (before ++ c :: after) = some (before, after) := by
  induction before with
  | nil => simp [cut?, hc]
  | cons x rest ih =>
    rw [List.forall_mem_cons] at hfree
    simp [cut?, hfree.1, ih hfree.2]

/-- The text after the first occurrence of `mark`. -/
def after? (mark : List Char) : List Char → Option (List Char)
  | [] => if mark.isEmpty then some [] else none
  | c :: rest =>
    if mark.isPrefixOf (c :: rest) then some ((c :: rest).drop mark.length) else after? mark rest

/-! ## Pieces -/

/-- The texts between separators: one more than there are separators. -/
def pieces (separator : Char) : List Char → List (List Char)
  | [] => [[]]
  | c :: rest =>
    if c = separator then [] :: pieces separator rest
    else match pieces separator rest with
      | [] => [[c]]
      | first :: others => (c :: first) :: others

theorem pieces_ne_nil (separator : Char) (s : List Char) : pieces separator s ≠ [] := by
  cases s with
  | nil => simp [pieces]
  | cons c rest =>
    simp only [pieces]
    split
    · simp
    · split <;> simp

theorem not_mem_of_mem_pieces {separator : Char} {s piece : List Char}
    (h : piece ∈ pieces separator s) : separator ∉ piece := by
  induction s generalizing piece with
  | nil => simp_all [pieces]
  | cons c rest ih =>
    simp only [pieces] at h
    split at h
    · rcases List.mem_cons.1 h with rfl | h
      · simp
      · exact ih h
    · rename_i hc
      split at h
      · simp_all [Ne.symm hc]
      · rename_i first others split_eq
        have hfirst : separator ∉ first := ih (by simp [split_eq])
        rcases List.mem_cons.1 h with rfl | h
        · simp [hfirst, Ne.symm hc]
        · exact ih (by simp [split_eq, h])

theorem intercalate_pieces (separator : Char) (s : List Char) :
    [separator].intercalate (pieces separator s) = s := by
  induction s with
  | nil => rfl
  | cons c rest ih =>
    simp only [pieces]
    split
    · rename_i hc
      cases hp : pieces separator rest with
      | nil => exact absurd hp (pieces_ne_nil separator rest)
      | cons first others =>
        rw [hp] at ih
        simp only [List.intercalate_cons_cons, List.nil_append]
        simp [ih, hc]
    · split
      · rename_i hp
        exact absurd hp (pieces_ne_nil separator rest)
      · rename_i first others hp
        rw [hp] at ih
        cases others with
        | nil => simp_all
        | cons second more =>
          simp only [List.intercalate_cons_cons, List.cons_append] at ih ⊢
          rw [ih]

theorem pieces_of_not_mem {separator : Char} {s : List Char} (h : separator ∉ s) :
    pieces separator s = [s] := by
  induction s with
  | nil => rfl
  | cons c rest ih =>
    simp only [List.mem_cons, not_or] at h
    rw [pieces, if_neg (Ne.symm h.1), ih h.2]

theorem pieces_append_cons (separator : Char) (s t : List Char) :
    pieces separator (s ++ separator :: t) = pieces separator s ++ pieces separator t := by
  induction s with
  | nil => simp [pieces]
  | cons c rest ih =>
    rw [List.cons_append, pieces, pieces, ih]
    split
    · rfl
    · cases h : pieces separator rest with
      | nil => exact absurd h (pieces_ne_nil separator rest)
      | cons first others => rfl

theorem pieces_intercalate {separator : Char} {first : List Char} {others : List (List Char)}
    (h : ∀ piece ∈ first :: others, separator ∉ piece) :
    pieces separator ([separator].intercalate (first :: others)) = first :: others := by
  induction others generalizing first with
  | nil => simpa using pieces_of_not_mem (h first (by simp))
  | cons second more ih =>
    rw [List.intercalate_cons_cons, List.append_assoc, List.singleton_append, pieces_append_cons,
      pieces_of_not_mem (h first (by simp)), ih fun piece hp => h piece (List.mem_cons_of_mem _ hp)]
    rfl

/-! ## Lines -/

/-- A line that a newline ends may also end in one carriage return, which is not part of it. -/
def dropReturn (line : List Char) : List Char :=
  if line.getLast? = some '\r' then line.dropLast else line

/--
The lines of a text. A newline ends a line, so a text that ends in one has no further, empty line;
a last line without a newline keeps its carriage return.
-/
def physicalLines (s : List Char) : List (List Char) :=
  let all := pieces '\n' s
  let ended := all.dropLast.map dropReturn
  match all.getLast? with
  | some (c :: rest) => ended ++ [c :: rest]
  | _ => ended

/-! ## Parts -/

/-- Whether `part` occurs somewhere in the text. -/
def holds (part : List Char) : List Char → Bool
  | [] => part.isEmpty
  | c :: rest => part.isPrefixOf (c :: rest) || holds part rest

theorem holds_iff_isInfix (part s : List Char) : holds part s = true ↔ part <:+: s := by
  induction s with
  | nil => simp [holds]
  | cons c rest ih => simp [holds, ih, List.infix_cons_iff]

end Provision.Text
