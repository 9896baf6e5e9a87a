/-!
# Blank characters

The characters that separate words and may be trimmed: the Unicode class `White_Space`, which is
wider than the four blanks of ASCII. `trim` removes a run of them at both ends.
-/

namespace Provision.Text

/-- The ranges of the Unicode class `White_Space`, in code point order. -/
def blankRanges : List (Nat × Nat) :=
  [(0x09, 0x0D), (0x20, 0x20), (0x85, 0x85), (0xA0, 0xA0), (0x1680, 0x1680), (0x2000, 0x200A),
    (0x2028, 0x2029), (0x202F, 0x202F), (0x205F, 0x205F), (0x3000, 0x3000)]

def isBlank (c : Char) : Bool :=
  blankRanges.any fun (first, last) => first ≤ c.toNat && c.toNat ≤ last

/-! ## Trimming -/

def trimStart (s : List Char) : List Char := s.dropWhile isBlank

/-- A blank stays only while something that is not blank follows it. -/
def trimEnd : List Char → List Char
  | [] => []
  | c :: rest =>
    let kept := trimEnd rest
    if isBlank c && kept.isEmpty then [] else c :: kept

def trim (s : List Char) : List Char := trimEnd (trimStart s)

theorem trimEnd_cons_of_not_blank {c : Char} (h : isBlank c = false) (s : List Char) :
    trimEnd (c :: s) = c :: trimEnd s := by
  simp [trimEnd, h]

theorem trimEnd_eq_nil_iff (s : List Char) : trimEnd s = [] ↔ ∀ c ∈ s, isBlank c = true := by
  induction s with
  | nil => simp [trimEnd]
  | cons c rest ih => by_cases h : isBlank c <;> simp [trimEnd, h, ih]

theorem exists_trimEnd_append (s : List Char) :
    ∃ tail, s = trimEnd s ++ tail ∧ ∀ c ∈ tail, isBlank c = true := by
  induction s with
  | nil => exact ⟨[], by simp [trimEnd]⟩
  | cons c rest ih =>
    obtain ⟨tail, split, blank⟩ := ih
    by_cases h : isBlank c && (trimEnd rest).isEmpty
    · refine ⟨c :: rest, by simp [trimEnd, h], ?_⟩
      simp only [Bool.and_eq_true, List.isEmpty_iff, trimEnd_eq_nil_iff] at h
      simpa using h
    · refine ⟨tail, ?_, blank⟩
      simp only [trimEnd, h, Bool.false_eq_true, ↓reduceIte, List.cons_append, ← split]

theorem trimEnd_idem (s : List Char) : trimEnd (trimEnd s) = trimEnd s := by
  induction s with
  | nil => rfl
  | cons c rest ih =>
    by_cases h : isBlank c && (trimEnd rest).isEmpty
    · simp [trimEnd, h]
    · simp only [trimEnd, h, Bool.false_eq_true, ↓reduceIte, ih]

theorem trimEnd_append_blank (s tail : List Char) (h : ∀ c ∈ tail, isBlank c = true) :
    trimEnd (s ++ tail) = trimEnd s := by
  induction s with
  | nil => simpa [trimEnd] using (trimEnd_eq_nil_iff tail).2 h
  | cons c rest ih => simp [trimEnd, ih]

end Provision.Text
