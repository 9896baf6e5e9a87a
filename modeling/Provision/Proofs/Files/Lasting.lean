import Provision.Proofs.Files.Tree

/-!
# Files that last

A run takes nothing away: directories that it finds stay directories, files stay files, and so every
path that exists goes on existing. This needs neither a tree nor paths without `..`.
-/

namespace Provision

namespace Files

/-- Directories stay directories and files stay files, whatever they hold then. -/
structure Lasts (before after : Files) : Prop where
  cwd : after.cwd = before.cwd
  directory : ∀ l, before.at? l = some .directory → after.at? l = some .directory
  file : ∀ l content, before.at? l = some (.file content) →
    ∃ other, after.at? l = some (.file other)

namespace Lasts

variable {a b c : Files}

theorem refl (fs : Files) : Lasts fs fs := ⟨rfl, fun _ => id, fun _ content h => ⟨content, h⟩⟩

theorem trans (hab : Lasts a b) (hbc : Lasts b c) : Lasts a c where
  cwd := hbc.cwd.trans hab.cwd
  directory l h := hbc.directory l (hab.directory l h)
  file l content h := by
    obtain ⟨other, hb⟩ := hab.file l content h
    exact hbc.file l other hb

theorem put {fs : Files} {l : Location} {node : Node} (hfree : fs.at? l ≠ some .directory)
    (hnode : node = .directory → fs.at? l = none) : Lasts fs (fs.put l node) := by
  have hput (m : Location) := at?_put fs l m node (not_isPrefixOf_cwd hfree)
  refine ⟨rfl, fun m h => ?_, fun m content h => ?_⟩
  · rw [hput, if_neg (by rintro rfl; exact hfree h), h]
  · rw [hput]
    split
    · next heq =>
      cases node with
      | directory => rw [← heq, h] at hnode; cases hnode rfl
      | file other => exact ⟨other, rfl⟩
    · exact ⟨content, h⟩

/-! ## Look-up -/

theorem enter (h : Lasts a b) {here there : Location} {name : String}
    (henter : a.enter here name = .ok there) : b.enter here name = .ok there := by
  unfold Files.enter at henter ⊢
  split
  · next hhere => rwa [if_pos hhere] at henter
  · next hhere =>
    rw [if_neg hhere] at henter
    split
    · next hup => rwa [if_pos hup] at henter
    · next hup =>
      rw [if_neg hup] at henter
      split
      · next hlength => rw [if_pos hlength] at henter; cases henter
      · next hlength =>
        rw [if_neg hlength] at henter
        split at henter
        · cases henter
        · cases henter
        · next hdirectory =>
          rw [h.directory _ hdirectory]
          exact henter

theorem foldlM_enter (h : Lasts a b) {names : List String} {start l : Location}
    (hwalk : names.foldlM a.enter start = .ok l) : names.foldlM b.enter start = .ok l := by
  induction names generalizing start with
  | nil => exact hwalk
  | cons name rest ih =>
    rw [List.foldlM_cons] at hwalk ⊢
    cases hmid : a.enter start name with
    | error fault => rw [hmid] at hwalk; cases hwalk
    | ok mid =>
      rw [hmid] at hwalk
      rw [h.enter hmid]
      exact ih hwalk

theorem locate (h : Lasts a b) {p : Path} {target : Target} (hlocate : a.locate p = .ok target) :
    b.locate p = .ok target := by
  unfold Files.locate at hlocate ⊢
  rw [h.cwd]
  split at hlocate
  · cases hlocate
  · next hnul =>
    split at hlocate
    · cases hlocate
    · next hlength =>
      split at hlocate
      · cases hlocate
      · next hempty =>
        rw [if_neg hnul, if_neg hlength, if_neg hempty]
        simp only at hlocate ⊢
        split at hlocate
        · exact hlocate
        · next last hlast =>
          split at hlocate
          · next hdots =>
            rw [if_pos hdots]
            cases hwalk : p.names.foldlM a.enter (if p.isAbsolute then [] else a.cwd) with
            | error fault => rw [hwalk] at hlocate; cases hlocate
            | ok l =>
              rw [hwalk] at hlocate
              rw [h.foldlM_enter hwalk]
              exact hlocate
          · next hdots =>
            rw [if_neg hdots]
            split at hlocate
            · cases hlocate
            · next parent hwalk =>
              rw [h.foldlM_enter hwalk]
              exact hlocate

theorem exists? (h : Lasts a b) {p : Path} (hexists : a.exists? p = true) :
    b.exists? p = true := by
  unfold Files.exists? Files.stat at hexists ⊢
  cases hlocate : a.locate p with
  | error fault => simp [hlocate, Except.isOk, Except.toBool] at hexists
  | ok target =>
    rw [hlocate] at hexists
    rw [h.locate hlocate]
    cases target with
    | directory l => rfl
    | entry l =>
      cases hnode : a.at? l with
      | none => simp [hnode, Except.isOk, Except.toBool] at hexists
      | some node =>
        cases node with
        | directory => simp only [h.directory l hnode]; rfl
        | file content =>
          obtain ⟨other, hother⟩ := h.file l content hnode
          simp only [hnode] at hexists
          simp only [hother]
          split
          · next hasks => simp [hasks, Except.isOk, Except.toBool] at hexists
          · rfl

end Lasts

/-! ## Operations -/

theorem makeDirectory_lasts {fs made : Files} {p : Path} (h : fs.makeDirectory p = .ok made) :
    Lasts fs made := by
  unfold makeDirectory at h
  split at h
  · cases h
  · cases h
  · split at h
    · cases h
    · next hfree =>
      obtain rfl := Except.ok.inj h
      rw [Bool.not_eq_true, Option.isSome_eq_false_iff, Option.isNone_iff_eq_none] at hfree
      exact .put (by simp [hfree]) fun _ => hfree

theorem makeWithParents_lasts (fs : Files) (paths : List Path) :
    Lasts fs (fs.makeWithParents paths).1 := by
  induction paths with
  | nil => exact .refl fs
  | cons p above ih =>
    unfold makeWithParents
    split
    · exact .refl fs
    · split
      · next made hmade => exact makeDirectory_lasts hmade
      · split
        · next held fault hheld => rwa [hheld] at ih
        · next held hheld =>
          rw [hheld] at ih
          split
          · next made hmade => exact ih.trans (makeDirectory_lasts hmade)
          · split <;> exact ih
      · split <;> exact .refl fs

theorem makeDirectories_lasts (fs : Files) (p : Path) : Lasts fs (fs.makeDirectories p).1 :=
  makeWithParents_lasts fs _

theorem makeParent_lasts (fs : Files) (p : Path) : Lasts fs (fs.makeParent p).1 := by
  unfold makeParent
  split
  · exact makeDirectories_lasts fs _
  · exact .refl fs

theorem write_lasts {fs written : Files} {p : Path} {content : ByteArray}
    (h : fs.write p content = .ok written) : Lasts fs written := by
  unfold write writable at h
  split at h
  · cases h
  · cases h
  · split at h
    · cases h
    · next hfree =>
      obtain rfl := Except.ok.inj h
      simp only [Bool.or_eq_true, decide_eq_true_eq, not_or] at hfree
      exact .put hfree.2 (by simp)

end Files

end Provision
