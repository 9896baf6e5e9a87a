import Mathlib.Data.List.Basic
import Provision.Proofs.Text.Lower
import Provision.Text.Blank
import Provision.Text.Piece

/-!
# The case of ASCII letters

Two texts are spelled alike if they differ in the case of ASCII letters only. Blanks, separators and
marks are no letters, so texts that are spelled alike are cut and trimmed alike, and they have the
same lower-case form.
-/

namespace Provision.Text

/-- The text with its ASCII letters in lower case. -/
def plain (s : List Char) : List Char := s.map Char.toLower

/-! ## Characters -/

theorem forall_of_ascii {P : Char → Prop} (hlow : ∀ n < 0x80, P (Char.ofNat n))
    (hhigh : ∀ c : Char, 0x80 ≤ c.toNat → P c) (c : Char) : P c := by
  by_cases hc : c.toNat < 0x80
  · have hone := hlow c.toNat hc
    rwa [Char.ofNat_toNat] at hone
  · exact hhigh c (by omega)

theorem toLower_of_high {c : Char} (h : 0x80 ≤ c.toNat) : c.toLower = c :=
  toLower_of_toNat (.inr (by omega))

theorem toLower_idem (c : Char) : c.toLower.toLower = c.toLower := by
  revert c
  apply forall_of_ascii
  · decide
  · intro c hc
    rw [toLower_of_high hc, toLower_of_high hc]

/-- The case of ASCII letters makes no difference to the property. -/
def Caseless (p : Char → Bool) : Prop := ∀ c : Char, p c.toLower = p c

theorem caseless_of_ascii {p : Char → Bool}
    (h : ∀ n < 0x80, p (Char.ofNat n).toLower = p (Char.ofNat n)) : Caseless p := by
  refine forall_of_ascii (P := fun c => p c.toLower = p c) h ?_
  intro c hc
  rw [toLower_of_high hc]

theorem caseless_isBlank : Caseless isBlank := caseless_of_ascii (by decide)

theorem caseless_isIgnorable : Caseless isIgnorable := caseless_of_ascii (by decide)

theorem caseless_isCased : Caseless isCased := caseless_of_ascii (by decide)

theorem toLower_eq_iff {c mark : Char} (hmark : mark.isAlpha = false) :
    c.toLower = mark ↔ c = mark := by
  have hall : ∀ d : Char, d.toLower = d ∨ d.isAlpha = true ∧ d.toLower.isAlpha = true := by
    apply forall_of_ascii
    · decide
    · intro d hd
      exact .inl (toLower_of_high hd)
  constructor
  · rintro rfl
    rcases hall c with hc | ⟨-, hc⟩
    · exact hc.symm
    · rw [hmark] at hc
      cases hc
  · rintro rfl
    rcases hall c with hc | ⟨hc, -⟩
    · exact hc
    · rw [hmark] at hc
      cases hc

/-! ## Texts -/

theorem plain_cons (c : Char) (s : List Char) : plain (c :: s) = c.toLower :: plain s := rfl

theorem plain_append (s t : List Char) : plain (s ++ t) = plain s ++ plain t := List.map_append

theorem plain_idem (s : List Char) : plain (plain s) = plain s := by
  unfold plain
  rw [List.map_map]
  apply List.map_congr_left
  intro c _
  exact toLower_idem c

theorem isEmpty_plain (s : List Char) : (plain s).isEmpty = s.isEmpty := List.isEmpty_map

theorem not_mem_plain {mark : Char} (hmark : mark.isAlpha = false) {s : List Char} :
    mark ∉ plain s ↔ mark ∉ s := by
  unfold plain
  simp [toLower_eq_iff hmark]

theorem dropWhile_plain {p : Char → Bool} (hp : Caseless p) (s : List Char) :
    (plain s).dropWhile p = plain (s.dropWhile p) := by
  unfold plain
  rw [List.dropWhile_map]
  congr 1
  exact congrArg (List.dropWhile · s) (funext hp)

theorem trimEnd_plain (s : List Char) : trimEnd (plain s) = plain (trimEnd s) := by
  induction s with
  | nil => rfl
  | cons c rest ih =>
    rw [plain_cons, trimEnd, trimEnd, ih, caseless_isBlank c, isEmpty_plain]
    by_cases hdrop : (isBlank c && (trimEnd rest).isEmpty) = true
    · rw [if_pos hdrop, if_pos hdrop]
      rfl
    · rw [if_neg hdrop, if_neg hdrop, plain_cons]

theorem trim_plain (s : List Char) : trim (plain s) = plain (trim s) := by
  unfold trim trimStart
  rw [dropWhile_plain caseless_isBlank, trimEnd_plain]

theorem pieces_plain {separator : Char} (hseparator : separator.isAlpha = false) (s : List Char) :
    pieces separator (plain s) = (pieces separator s).map plain := by
  induction s with
  | nil => rfl
  | cons c rest ih =>
    rw [plain_cons, pieces, pieces, ih]
    by_cases hc : c = separator
    · rw [if_pos hc, if_pos ((toLower_eq_iff hseparator).mpr hc)]
      rfl
    · rw [if_neg hc, if_neg fun h => hc ((toLower_eq_iff hseparator).mp h)]
      cases pieces separator rest <;> rfl

theorem dropReturn_plain (line : List Char) :
    dropReturn (plain line) = plain (dropReturn line) := by
  have hlast : (plain line).getLast? = some '\r' ↔ line.getLast? = some '\r' := by
    unfold plain
    rw [List.getLast?_map, Option.map_eq_some_iff]
    constructor
    · rintro ⟨c, hc, hreturn⟩
      rwa [(toLower_eq_iff (by decide)).mp hreturn] at hc
    · intro h
      exact ⟨'\r', h, by decide⟩
  unfold dropReturn
  by_cases h : line.getLast? = some '\r'
  · rw [if_pos h, if_pos (hlast.mpr h)]
    exact List.map_dropLast.symm
  · rw [if_neg h, if_neg (mt hlast.mp h)]

theorem physicalLines_plain (s : List Char) :
    physicalLines (plain s) = (physicalLines s).map plain := by
  have hended : ((pieces '\n' s).map plain).dropLast.map dropReturn =
      ((pieces '\n' s).dropLast.map dropReturn).map plain := by
    rw [← List.map_dropLast, List.map_map, List.map_map]
    apply List.map_congr_left
    intro line _
    exact dropReturn_plain line
  unfold physicalLines
  simp only [pieces_plain (show ('\n' : Char).isAlpha = false by decide), hended,
    List.getLast?_map]
  cases (pieces '\n' s).getLast? with
  | none => rfl
  | some last =>
    cases last with
    | nil => rfl
    | cons c rest =>
      rw [List.map_append]
      rfl

/-! ## Lower case -/

theorem meetsCased_plain (s : List Char) : meetsCased (plain s) = meetsCased s := by
  unfold meetsCased
  rw [dropWhile_plain caseless_isIgnorable]
  cases s.dropWhile isIgnorable with
  | nil => rfl
  | cons c rest => exact caseless_isCased c

theorem lowerChar_toLower (c : Char) : lowerChar c.toLower = lowerChar c := by
  revert c
  apply forall_of_ascii
  · decide
  · intro c hc
    rw [toLower_of_high hc]

theorem lowerBetween_plain (before : List Char) (c : Char) (after : List Char) :
    lowerBetween (plain before) c.toLower (plain after) = lowerBetween before c after := by
  unfold lowerBetween
  simp only [toLower_eq_iff (show ('Σ' : Char).isAlpha = false by decide), meetsCased_plain,
    lowerChar_toLower]

theorem lower_plain (s : List Char) : lower (plain s) = lower s := by
  have hafter : ∀ before, lowerAfter (plain before) (plain s) = lowerAfter before s := by
    induction s with
    | nil => exact fun _ => rfl
    | cons c rest ih =>
      intro before
      rw [plain_cons, lowerAfter, lowerAfter, lowerBetween_plain, ← plain_cons, ih]
  exact hafter []

theorem lower_eq_of_plain_eq {s t : List Char} (h : plain s = plain t) : lower s = lower t := by
  rw [← lower_plain s, h, lower_plain]

end Provision.Text
