import Provision.Proofs.Files.Lasting
import Provision.Proofs.Files.Making

/-!
# Entries of a directory that has been made

The path of a directory that has been made can be walked to its end, also if it leads up. Whether a
file can be written into the directory then depends on the file's name, on the text of its path and
on what is in its place.
-/

namespace Provision.Files

open Provision.Path

variable {fs made : Files} {p dir : Path} {name : String} {l : Location}

/-! ## What is found -/

theorem isDirectory_iff : fs.isDirectory p = true ↔ (∃ l, fs.locate p = .ok (.directory l)) ∨
    ∃ l, fs.locate p = .ok (.entry l) ∧ fs.at? l = some .directory := by
  unfold isDirectory stat
  cases fs.locate p with
  | error fault => simp
  | ok target =>
    cases target with
    | directory l => simp
    | entry l =>
      cases hnode : fs.at? l with
      | none => simp [hnode]
      | some node => cases node <;> cases p.asksDirectory <;> simp [hnode]

theorem isOk_write_iff {content : ByteArray} : (fs.write p content).isOk = true ↔
    ∃ l, fs.locate p = .ok (.entry l) ∧ p.asksDirectory = false ∧ fs.at? l ≠ some .directory := by
  unfold write writable
  cases fs.locate p with
  | error fault => simp [Except.map, Except.isOk, Except.toBool]
  | ok target =>
    cases target with
    | directory l => simp [Except.map, Except.isOk, Except.toBool]
    | entry l =>
      cases p.asksDirectory <;> by_cases hthere : fs.at? l = some .directory <;>
        simp [hthere, Except.map, Except.isOk, Except.toBool]

theorem exists?_of_isDirectory (h : fs.isDirectory p = true) : fs.exists? p = true := by
  unfold isDirectory at h
  unfold exists?
  generalize fs.stat p = found at h ⊢
  cases found with
  | error fault => cases h
  | ok node => rfl

theorem exists?_of_write {content : ByteArray} (h : fs.write p content = .ok made) :
    made.exists? p = true := by
  have hlasts := write_lasts h
  obtain ⟨l, hlocate, hasks, hfree⟩ := isOk_write_iff.mp (by rw [h]; rfl)
  unfold write writable at h
  rw [hlocate] at h
  simp only [hasks, hfree, decide_false, Bool.or_self, Bool.false_eq_true, if_false] at h
  obtain rfl := Except.ok.inj h
  unfold exists? stat
  rw [hlasts.locate hlocate]
  simp only
  rw [at?_put_self hfree]
  simp [hasks, Except.isOk, Except.toBool]

/-! ## Directories that have been made -/

theorem isDirectory_of_makeDirectory (h : fs.makeDirectory p = .ok made) :
    made.isDirectory p = true := by
  have hlasts := makeDirectory_lasts h
  unfold makeDirectory at h
  split at h
  · cases h
  · cases h
  · next l hlocate =>
    split at h
    · cases h
    · next hfree =>
      obtain rfl := Except.ok.inj h
      refine isDirectory_iff.mpr (.inr ⟨l, hlasts.locate hlocate, at?_put_self ?_⟩)
      intro hthere
      simp [hthere] at hfree

theorem isDirectory_of_makeWithParents {above : List Path}
    (h : (fs.makeWithParents (p :: above)).2 = none) :
    p.text.isEmpty = true ∨ (fs.makeWithParents (p :: above)).1.isDirectory p = true := by
  unfold makeWithParents at h ⊢
  split at h
  · next hempty => exact .inl hempty
  next hempty =>
  right
  rw [if_neg hempty]
  split at h
  · next made hmade => exact isDirectory_of_makeDirectory hmade
  · split at h
    · cases h
    · split at h
      · next made hmade => exact isDirectory_of_makeDirectory hmade
      · split at h
        · next hthere =>
          rw [if_pos hthere]
          exact (Bool.and_eq_true_iff.mp hthere).2
        · cases h
  · split at h
    · next hthere =>
      rw [if_pos hthere]
      exact (Bool.and_eq_true_iff.mp hthere).2
    · cases h

/-! ## Walks to their end -/

/-- The text of the path can be read, and the walk along it ends here. -/
structure Reaches (fs : Files) (p : Path) (l : Location) : Prop where
  text : p.textFault? = none
  walk : p.names.foldlM fs.enter (p.origin fs.cwd) = .ok l

theorem reaches_of_locate_directory (h : fs.locate p = .ok (.directory l)) : fs.Reaches p l := by
  rw [locate_eq] at h
  split at h
  · cases h
  next htext =>
  refine ⟨htext, ?_⟩
  split at h
  · cases h
  split at h
  · next hnames =>
    cases h
    rw [List.getLast?_eq_none_iff.mp hnames]
    rfl
  · next last hlast =>
    split at h
    · generalize p.names.foldlM fs.enter (p.origin fs.cwd) = result at h ⊢
      cases result with
      | error fault => cases h
      | ok there =>
        cases h
        rfl
    · split at h
      · cases h
      · split at h <;> cases h

theorem reaches_of_locate_entry (h : fs.locate p = .ok (.entry l))
    (hthere : fs.at? l = some .directory) : fs.Reaches p l := by
  rw [locate_eq] at h
  split at h
  · cases h
  next htext =>
  refine ⟨htext, ?_⟩
  split at h
  · cases h
  split at h
  · cases h
  next last hlast =>
  split at h
  · generalize p.names.foldlM fs.enter (p.origin fs.cwd) = result at h
    cases result <;> cases h
  next hdots =>
  obtain ⟨front, hnames⟩ := List.getLast?_eq_some_iff.mp hlast
  rw [hnames, List.dropLast_concat] at h
  split at h
  · cases h
  next parent hwalk =>
  split at h
  · cases h
  next hlength =>
  cases h
  simp only [Bool.or_eq_true, decide_eq_true_eq, not_or] at hdots
  -- The look-up stops before the last name, which the walk enters as well.
  have hlast : fs.enter parent last = .ok (parent ++ [last]) := by
    simp [enter, hdots, hlength, hthere]
  rw [hnames, List.foldlM_append, hwalk]
  show [last].foldlM fs.enter parent = _
  rw [List.foldlM_cons, hlast]
  rfl

theorem exists_reaches_of_makeDirectories (h : (fs.makeDirectories p).2 = none) :
    ∃ l, (fs.makeDirectories p).1.Reaches p l := by
  rcases isDirectory_of_makeWithParents h with hempty | hthere
  · obtain rfl : p = ⟨""⟩ := by
      cases p
      simpa using hempty
    rw [makeDirectories_of_empty hempty]
    exact ⟨_, by decide +kernel, rfl⟩
  · rcases isDirectory_iff.mp hthere with ⟨l, hlocate⟩ | ⟨l, hlocate, hnode⟩
    · exact ⟨l, reaches_of_locate_directory hlocate⟩
    · exact ⟨l, reaches_of_locate_entry hlocate hnode⟩

/-! ## Entries -/

theorem isEmpty_join (dir : Path) (hname : IsName name) : (dir.join name).text.isEmpty = false := by
  rw [Bool.eq_false_iff]
  intro hempty
  have hnone := names_of_empty hempty
  simp [names_join dir hname] at hnone

theorem spelled_of_exists? (hname : IsName name) (h : fs.exists? (dir.join name) = true) :
    (dir.join name).textFault? = none ∧ name.utf8ByteSize ≤ nameLimit := by
  have hlocate : ∃ target, fs.locate (dir.join name) = .ok target := by
    cases hfound : fs.locate (dir.join name) with
    | error fault => simp [exists?, stat, hfound, Except.isOk, Except.toBool] at h
    | ok target => exact ⟨target, rfl⟩
  obtain ⟨target, hlocate⟩ := hlocate
  rw [locate_eq] at hlocate
  split at hlocate
  · cases hlocate
  next htext =>
  rw [isEmpty_join dir hname, names_join dir hname, List.getLast?_concat] at hlocate
  simp only [hname.ne_here, hname.ne_up, decide_false, Bool.or_self, Bool.false_eq_true, if_false]
    at hlocate
  split at hlocate
  · cases hlocate
  · split at hlocate
    · cases hlocate
    · next hlength => exact ⟨htext, by omega⟩

section Join

variable (h : fs.Reaches dir l) (hname : IsName name)

include h hname

theorem locate_join_iff {target : Target} : fs.locate (dir.join name) = .ok target ↔
    target = .entry (l ++ [name]) ∧ (dir.join name).textFault? = none ∧
      name.utf8ByteSize ≤ nameLimit := by
  have horigin : (dir.join name).origin fs.cwd = dir.origin fs.cwd := by
    simp [origin, isAbsolute_join dir hname]
  rw [locate_eq, isEmpty_join dir hname, names_join dir hname, horigin, List.getLast?_concat,
    List.dropLast_concat]
  cases (dir.join name).textFault? with
  | some fault => simp
  | none =>
    by_cases hlong : nameLimit < name.utf8ByteSize
    · simp [hname.ne_here, hname.ne_up, h.walk, hlong, Nat.not_le.mpr hlong]
    · simp [hname.ne_here, hname.ne_up, h.walk, hlong, Nat.not_lt.mp hlong, eq_comm]

theorem isOk_write_join_iff {content : ByteArray} :
    (fs.write (dir.join name) content).isOk = true ↔ (dir.join name).textFault? = none ∧
      name.utf8ByteSize ≤ nameLimit ∧ fs.isDirectory (dir.join name) = false := by
  rw [isOk_write_iff, ← Bool.not_eq_true (fs.isDirectory _), isDirectory_iff]
  simp only [locate_join_iff h hname, asksDirectory_join dir hname]
  constructor
  · rintro ⟨l, ⟨hentry, htext, hlength⟩, -, hnode⟩
    cases hentry
    refine ⟨htext, hlength, ?_⟩
    rintro (⟨l, hdirectory, -⟩ | ⟨l, ⟨hentry, -⟩, hthere⟩)
    · cases hdirectory
    · cases hentry
      exact hnode hthere
  · rintro ⟨htext, hlength, hfree⟩
    exact ⟨_, ⟨rfl, htext, hlength⟩, trivial,
      fun hthere => hfree (.inr ⟨_, ⟨rfl, htext, hlength⟩, hthere⟩)⟩

end Join

end Provision.Files
