import Provision.Text.Case

/-!
# What is lower case stays so

The lower-case form of a text has no capital letter of ASCII, so to look up an ASCII word in it
without regard to letter case is to look it up as it is.
-/

namespace Provision.Text

/-- No run of letters ends up on a capital letter of ASCII. -/
theorem lowerRuns_apart : ∀ run ∈ lowerRuns,
    0x5A < (run.1 : Int) + run.2.2.2 ∨ (run.2.1 : Int) + run.2.2.2 < 0x41 := by
  decide +kernel

theorem toLower_of_toNat {c : Char} (h : c.toNat < 0x41 ∨ 0x5A < c.toNat) : c.toLower = c := by
  unfold Char.toLower
  rw [dif_neg]
  rintro ⟨hlow, hhigh⟩
  have hlow' : 0x41 ≤ c.toNat := UInt32.le_iff_toNat_le.mp hlow
  have hhigh' : c.toNat ≤ 0x5A := UInt32.le_iff_toNat_le.mp hhigh
  omega

theorem toLower_toLower {c : Char} (h : c.toNat < 0x80) : c.toLower.toLower = c.toLower := by
  have hall : ∀ n < 0x80, (Char.ofNat n).toLower.toLower = (Char.ofNat n).toLower := by decide
  have hc := hall c.toNat h
  rwa [Char.ofNat_toNat] at hc

theorem toNat_ofNat_cases (n : Nat) : (Char.ofNat n).toNat = n ∨ (Char.ofNat n).toNat = 0 := by
  by_cases hvalid : n.isValidChar
  · left
    rw [Char.ofNat, dif_pos hvalid]
    rfl
  · right
    rw [Char.ofNat, dif_neg hvalid]
    rfl

theorem toLower_of_mem_lowerChar {c x : Char} (h : x ∈ lowerChar c) : x.toLower = x := by
  unfold lowerChar at h
  split at h
  · next hascii => rw [List.mem_singleton.mp h, toLower_toLower hascii]
  · next hascii =>
    split at h
    · rcases List.mem_cons.mp h with rfl | h
      · decide
      · rw [List.mem_singleton.mp h]
        decide
    · simp only at h
      split at h
      · next first last step offset hrun =>
        have hapart := lowerRuns_apart _ (List.mem_of_find?_eq_some hrun)
        have hbounds := List.find?_some hrun
        simp only [Bool.and_eq_true, decide_eq_true_eq] at hbounds hapart
        rw [List.mem_singleton.mp h]
        apply toLower_of_toNat
        rcases toNat_ofNat_cases (c.toNat + offset).toNat with hn | hn <;> omega
      · rw [List.mem_singleton.mp h]
        exact toLower_of_toNat (.inr (by omega))

theorem toLower_of_mem_lowerAfter {before s : List Char} {x : Char} (h : x ∈ lowerAfter before s) :
    x.toLower = x := by
  induction s generalizing before with
  | nil => simp [lowerAfter] at h
  | cons c rest ih =>
    rw [lowerAfter, List.mem_append] at h
    rcases h with h | h
    · unfold lowerBetween at h
      split at h
      · split at h <;> rw [List.mem_singleton.mp h] <;> decide
      · exact toLower_of_mem_lowerChar h
    · exact ih h

theorem map_toLower_lower (s : List Char) : (lower s).map Char.toLower = lower s := by
  have h : (lower s).map Char.toLower = (lower s).map id :=
    List.map_congr_left fun x hx => toLower_of_mem_lowerAfter hx
  rw [h, List.map_id]

end Provision.Text
