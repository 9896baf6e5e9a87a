import Mathlib.Data.List.TakeWhile
import Provision.Proofs.Text.Lower
import Provision.Text.Blank

/-!
# Trimmed texts

A text is trimmed if it is not empty and has a blank neither at its start nor at its end. To trim a
text with something to keep makes it so, and to lower-case it leaves it so.
-/

namespace Provision.Text

/-- A text that begins and ends with a character that is not blank. -/
structure Trimmed (s : List Char) : Prop where
  starts : ∃ c rest, s = c :: rest ∧ isBlank c = false
  ends : ∃ front c, s = front ++ [c] ∧ isBlank c = false

/-! ## What trimming leaves -/

theorem exists_cons_of_trimStart {s : List Char} (h : trimStart s ≠ []) :
    ∃ c rest, trimStart s = c :: rest ∧ isBlank c = false := by
  obtain ⟨c, rest, hsplit⟩ := List.exists_cons_of_ne_nil h
  refine ⟨c, rest, hsplit, ?_⟩
  have hhead := List.head_dropWhile_not isBlank h
  simpa [show s.dropWhile isBlank = c :: rest from hsplit] using hhead

theorem exists_snoc_of_trimEnd {s : List Char} (h : trimEnd s ≠ []) :
    ∃ front c, trimEnd s = front ++ [c] ∧ isBlank c = false := by
  induction s with
  | nil => exact absurd rfl h
  | cons c rest ih =>
    by_cases hrest : trimEnd rest = []
    · have hkept : isBlank c = false := by
        cases hc : isBlank c with
        | false => rfl
        | true => exact absurd (by simp [trimEnd, hrest, hc]) h
      exact ⟨[], c, by rw [trimEnd_cons_of_not_blank hkept, hrest, List.nil_append], hkept⟩
    · obtain ⟨front, last, hsplit, hlast⟩ := ih hrest
      refine ⟨c :: front, last, ?_, hlast⟩
      rw [List.cons_append, ← hsplit]
      simp [trimEnd, hrest]

theorem trimEnd_append_of_ne_nil (s : List Char) {t : List Char} (h : trimEnd t ≠ []) :
    trimEnd (s ++ t) = s ++ trimEnd t := by
  induction s with
  | nil => rfl
  | cons c rest ih =>
    rw [List.cons_append, trimEnd, ih]
    simp [h]

theorem trimEnd_append_cons (s : List Char) {c : Char} (h : isBlank c = false) (t : List Char) :
    trimEnd (s ++ c :: t) = s ++ c :: trimEnd t := by
  rw [trimEnd_append_of_ne_nil s (by simp [trimEnd_cons_of_not_blank h]),
    trimEnd_cons_of_not_blank h]

theorem trimStart_append_of_ne_nil {s : List Char} (h : trimStart s ≠ []) (t : List Char) :
    trimStart (s ++ t) = trimStart s ++ t := by
  unfold trimStart at h ⊢
  rw [List.dropWhile_append, if_neg (by simpa using h)]

theorem trimStart_eq_nil_iff {s : List Char} : trimStart s = [] ↔ ∀ c ∈ s, isBlank c = true :=
  List.dropWhile_eq_nil_iff

theorem trim_append_blank (s : List Char) {blanks : List Char}
    (h : ∀ c ∈ blanks, isBlank c = true) : trim (s ++ blanks) = trim s := by
  unfold trim
  by_cases hs : trimStart s = []
  · have hall : trimStart (s ++ blanks) = [] := by
      rw [trimStart_eq_nil_iff] at hs ⊢
      intro c hc
      exact (List.mem_append.mp hc).elim (hs c) (h c)
    rw [hs, hall]
  · rw [trimStart_append_of_ne_nil hs, trimEnd_append_blank _ _ h]

theorem mem_trim_iff {s : List Char} {c : Char} (hc : isBlank c = false) : c ∈ trim s ↔ c ∈ s := by
  have hblank : ∀ {t : List Char}, (∀ x ∈ t, isBlank x = true) → c ∉ t := by
    intro t ht hmem
    rw [ht c hmem] at hc
    cases hc
  obtain ⟨tail, hsplit, htail⟩ := exists_trimEnd_append (trimStart s)
  have hstart : s.takeWhile isBlank ++ trimStart s = s := List.takeWhile_append_dropWhile
  calc c ∈ trim s
      ↔ c ∈ trim s ++ tail := by rw [List.mem_append, or_iff_left (hblank htail)]
    _ ↔ c ∈ trimStart s := by rw [trim, ← hsplit]
    _ ↔ c ∈ s.takeWhile isBlank ++ trimStart s := by
      rw [List.mem_append, or_iff_right (hblank fun x hx => List.mem_takeWhile_imp hx)]
    _ ↔ c ∈ s := by rw [hstart]

theorem trimmed_trim {s : List Char} (h : trim s ≠ []) : Trimmed (trim s) := by
  refine ⟨?_, exists_snoc_of_trimEnd h⟩
  have hstart : trimStart s ≠ [] := by
    intro hnil
    exact h (by rw [trim, hnil, trimEnd])
  obtain ⟨c, rest, hsplit, hc⟩ := exists_cons_of_trimStart hstart
  exact ⟨c, trimEnd rest, by rw [trim, hsplit, trimEnd_cons_of_not_blank hc], hc⟩

theorem trimmed_trimStart {s t : List Char} (hs : Trimmed s) (hsuffix : t <:+ s)
    (h : trimStart t ≠ []) : Trimmed (trimStart t) := by
  refine ⟨exists_cons_of_trimStart h, ?_⟩
  obtain ⟨before, c, hend, hc⟩ := hs.ends
  obtain ⟨front, hfront⟩ := (List.dropWhile_suffix isBlank).trans hsuffix
  have hkept := List.dropLast_concat_getLast h
  refine ⟨_, _, hkept.symm, ?_⟩
  -- Both texts end in the same character.
  have hsame : front ++ (trimStart t).dropLast ++ [(trimStart t).getLast h] = before ++ [c] := by
    rw [List.append_assoc, hkept, ← hend, ← hfront]
    rfl
  obtain ⟨-, hlast⟩ := List.append_inj' hsame rfl
  rw [List.singleton_inj.mp hlast, hc]

/-! ## Lower case -/

/-- No run of letters ends up on a blank. -/
theorem lowerRuns_apart_from_blanks : ∀ run ∈ lowerRuns, ∀ range ∈ blankRanges,
    (range.2 : Int) < (run.1 : Int) + run.2.2.2 ∨
      (run.2.1 : Int) + run.2.2.2 < (range.1 : Int) := by
  decide +kernel

theorem blankRanges_positive : ∀ range ∈ blankRanges, 0 < range.1 := by decide

theorem isBlank_toLower {c : Char} (h : c.toNat < 0x80) (hc : isBlank c = false) :
    isBlank c.toLower = false := by
  have hall : ∀ n < 0x80, isBlank (Char.ofNat n) = false →
      isBlank (Char.ofNat n).toLower = false := by
    decide
  have hone := hall c.toNat h
  rw [Char.ofNat_toNat] at hone
  exact hone hc

theorem isBlank_eq_false_iff {c : Char} : isBlank c = false ↔
    ∀ range ∈ blankRanges, c.toNat < range.1 ∨ range.2 < c.toNat := by
  simp only [isBlank, List.any_eq_false, Bool.and_eq_true, decide_eq_true_eq, not_and, Nat.not_le]
  refine forall₂_congr fun range _ => ?_
  omega

theorem isBlank_of_mem_lowerChar {c x : Char} (hc : isBlank c = false) (h : x ∈ lowerChar c) :
    isBlank x = false := by
  unfold lowerChar at h
  split at h
  · next hascii => rw [List.mem_singleton.mp h, isBlank_toLower hascii hc]
  · split at h
    · rcases List.mem_cons.mp h with rfl | h
      · decide
      · rw [List.mem_singleton.mp h]
        decide
    · simp only at h
      split at h
      · next first last step offset hrun =>
        have hapart := lowerRuns_apart_from_blanks _ (List.mem_of_find?_eq_some hrun)
        have hbounds := List.find?_some hrun
        simp only [Bool.and_eq_true, decide_eq_true_eq] at hbounds
        rw [List.mem_singleton.mp h]
        rcases toNat_ofNat_cases (c.toNat + offset).toNat with hn | hn
        · refine isBlank_eq_false_iff.mpr fun range hrange => ?_
          have hapart := hapart range hrange
          have hpositive := blankRanges_positive range hrange
          simp only at hapart
          omega
        · rw [← Char.ofNat_toNat (Char.ofNat _), hn]
          decide
      · rw [List.mem_singleton.mp h, hc]

theorem lowerChar_ne_nil (c : Char) : lowerChar c ≠ [] := by
  unfold lowerChar
  split
  · simp
  · split
    · simp
    · simp only
      split <;> simp

theorem lowerBetween_ne_nil (before : List Char) (c : Char) (after : List Char) :
    lowerBetween before c after ≠ [] := by
  unfold lowerBetween
  split
  · simp
  · exact lowerChar_ne_nil c

theorem isBlank_of_mem_lowerBetween {before after : List Char} {c x : Char}
    (hc : isBlank c = false) (h : x ∈ lowerBetween before c after) : isBlank x = false := by
  unfold lowerBetween at h
  split at h
  · split at h <;> rw [List.mem_singleton.mp h] <;> decide
  · exact isBlank_of_mem_lowerChar hc h

theorem lowerAfter_append (before s t : List Char) : ∃ lowered,
    lowerAfter before (s ++ t) = lowered ++ lowerAfter (s.reverse ++ before) t := by
  induction s generalizing before with
  | nil => exact ⟨[], rfl⟩
  | cons c rest ih =>
    obtain ⟨lowered, hlowered⟩ := ih (c :: before)
    refine ⟨lowerBetween before c (rest ++ t) ++ lowered, ?_⟩
    rw [List.cons_append, lowerAfter, hlowered]
    simp

theorem trimmed_lower {s : List Char} (hs : Trimmed s) : Trimmed (lower s) := by
  constructor
  case starts =>
    obtain ⟨c, rest, rfl, hc⟩ := hs.starts
    obtain ⟨x, more, hx⟩ := List.exists_cons_of_ne_nil (lowerBetween_ne_nil [] c rest)
    refine ⟨x, more ++ lowerAfter [c] rest, by rw [lower, lowerAfter, hx, List.cons_append], ?_⟩
    have hmem : x ∈ lowerBetween [] c rest := by simp [hx]
    exact isBlank_of_mem_lowerBetween hc hmem
  case ends =>
    obtain ⟨front, c, rfl, hc⟩ := hs.ends
    obtain ⟨lowered, hlowered⟩ := lowerAfter_append [] front [c]
    have hne := lowerBetween_ne_nil (front.reverse ++ []) c []
    refine ⟨lowered ++ (lowerBetween (front.reverse ++ []) c []).dropLast,
      (lowerBetween (front.reverse ++ []) c []).getLast hne, ?_,
      isBlank_of_mem_lowerBetween hc (List.getLast_mem hne)⟩
    rw [lower, hlowered, lowerAfter, lowerAfter, List.append_nil, List.append_assoc,
      List.dropLast_concat_getLast]

end Provision.Text
