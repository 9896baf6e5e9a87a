import Provision.Proofs.Files.Agree

/-!
# Paths that stay barred

While a file system only grows, a path that exists goes on existing, and an entry of a directory
that cannot be made or spelled never can be.
-/

namespace Provision

open Files Provision.Path

namespace Files

/-- No file can be written at the path: its text forbids it, or its directory cannot be made. -/
def Barred (fs : Files) (p : Path) : Prop := ¬ p.Spellable ∨ (fs.makeParent p).2 ≠ none

section

variable {fresh : Location → Node → Prop} {a b fs : Files} {dir : Path} {name : String}

/-! ## What growth leaves -/

theorem isSome_of_grows (h : Grows fresh a b) {l : Location} (hsome : (a.at? l).isSome) :
    (b.at? l).isSome := by
  rcases h.same l with hsame | ⟨hnone, -⟩
  · rwa [hsame]
  · simp [hnone] at hsome

theorem isFile_mono (h : Grows fresh a b) {l : Location} (hfile : a.isFile l = true) :
    b.isFile l = true := by
  unfold isFile at hfile ⊢
  rcases h.same l with hsame | ⟨hnone, -⟩
  · rwa [hsame]
  · simp [hnone] at hfile

theorem exists?_of_grows (h : Grows fresh a b) (htree : a.IsTree) (hdir : dir.IsStraight)
    (hname : IsName name) (hexists : a.exists? (dir.join name) = true) :
    b.exists? (dir.join name) = true := by
  rw [exists?_join_iff htree hdir hname] at hexists
  rw [exists?_join_iff (h.tree htree) hdir hname, h.cwd]
  exact ⟨hexists.1, isSome_of_grows h hexists.2⟩

theorem hurdle?_of_grows (h : Grows fresh a b) {here : Location} {names : List String}
    (hclear : b.hurdle? here names = none) : a.hurdle? here names = none := by
  induction names generalizing here with
  | nil => rfl
  | cons name rest ih =>
    unfold hurdle? at hclear ⊢
    split at hclear
    · next hhere =>
      rw [if_pos hhere]
      exact ih hclear
    · next hhere =>
      rw [if_neg hhere]
      split at hclear
      · cases hclear
      · next hshort =>
        rw [if_neg hshort]
        split at hclear
        · cases hclear
        · next hfree =>
          rw [if_neg fun hfile => hfree (isFile_mono h hfile)]
          exact ih hclear

theorem clear_of_makingFault? {p : Path} (hne : p.text.isEmpty = false)
    (h : fs.makingFault? p = none) :
    p.textFault? = none ∧ fs.hurdle? (p.origin fs.cwd) p.names = none := by
  unfold makingFault? at h
  rw [hne] at h
  simp only [Bool.false_eq_true, if_false, Option.or_eq_none_iff] at h
  refine ⟨h.1, ?_⟩
  cases hhurdle : fs.hurdle? (p.origin fs.cwd) p.names with
  | none => rfl
  | some fault =>
    have hrest := h.2
    rw [hhurdle] at hrest
    cases fault <;> simp at hrest
    split at hrest <;> cases hrest

theorem makingFault?_of_grows (h : Grows fresh a b) {p : Path} (hp : p.Settled)
    (hnone : b.makingFault? p = none) : a.makingFault? p = none := by
  by_cases hempty : p.text.isEmpty = true
  · simp [makingFault?, hempty]
  · rw [Bool.not_eq_true] at hempty
    obtain ⟨htext, hclear⟩ := clear_of_makingFault? hempty hnone
    rw [h.cwd] at hclear
    exact makingFault?_of_settled hp htext (hurdle?_of_grows h hclear)

/-! ## Entries of a directory -/

theorem Barred.of_grows (hbarred : a.Barred (dir.join name)) (h : Grows fresh a b)
    (htree : a.IsTree) (hdir : dir.IsStraight) (hname : IsName name) :
    b.Barred (dir.join name) := by
  refine hbarred.imp_right fun hparent hmade => hparent ?_
  obtain ⟨q, hq, hsettled, -, hmake⟩ := exists_makeParent_join hdir hname
  rw [hmake, (makes (h.tree htree) hq).fault] at hmade
  rw [hmake, (makes htree hq).fault]
  exact makingFault?_of_grows h hsettled hmade

/-- Where the directory has been made and no entry is there, only the text can be in the way. -/
theorem not_spellable_of_write (htree : fs.IsTree) (hdir : dir.IsStraight) (hname : IsName name)
    (hparent : fs.at? (dir.place fs.cwd) = some .directory)
    (hmissing : fs.at? (dir.place fs.cwd ++ [name]) = none) {content : ByteArray} {fault : Fault}
    (h : fs.write (dir.join name) content = .error fault) : ¬ (dir.join name).Spellable := by
  intro hspell
  have hlocate := locate_join htree hdir hname hspell hparent
  unfold write writable at h
  rw [hlocate] at h
  simp [hmissing, asksDirectory_join dir hname, Except.map] at h

end

end Files

end Provision
