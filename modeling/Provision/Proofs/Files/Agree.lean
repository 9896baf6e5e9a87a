import Provision.Proofs.Files.Making

/-!
# File systems that agree where it matters

Making a directory and writing a file into it depend on the files on the way and on the place of the
file only. So two file systems that agree there answer alike and go on agreeing, and what is done
elsewhere makes no difference.
-/

namespace Provision

open Files Provision.Path

namespace Files

/-- A tree with this working directory. -/
structure Stands (cwd : Location) (fs : Files) : Prop where
  cwd : fs.cwd = cwd
  tree : fs.IsTree

/-- Two trees that have files at the same locations of `way`, and the same at those of `own`. -/
structure AgreeOn (cwd : Location) (way own : Location → Prop) (a b : Files) : Prop where
  left : a.Stands cwd
  right : b.Stands cwd
  way : ∀ l, way l → b.isFile l = a.isFile l
  own : ∀ l, own l → b.at? l = a.at? l

variable {cwd : Location} {way own : Location → Prop}

namespace AgreeOn

variable {a b c : Files}

theorem refl (h : a.Stands cwd) : AgreeOn cwd way own a a := ⟨h, h, fun _ _ => rfl, fun _ _ => rfl⟩

theorem symm (h : AgreeOn cwd way own a b) : AgreeOn cwd way own b a :=
  ⟨h.right, h.left, fun l hl => (h.way l hl).symm, fun l hl => (h.own l hl).symm⟩

theorem trans (hab : AgreeOn cwd way own a b) (hbc : AgreeOn cwd way own b c) :
    AgreeOn cwd way own a c :=
  ⟨hab.left, hbc.right, fun l hl => (hbc.way l hl).trans (hab.way l hl),
    fun l hl => (hbc.own l hl).trans (hab.own l hl)⟩

/-- Changes that neither can see leave the two in agreement. -/
theorem of_changes {a' b' : Files} (h : AgreeOn cwd way own a b) (ha : AgreeOn cwd way own a a')
    (hb : AgreeOn cwd way own b b') : AgreeOn cwd way own a' b' :=
  ha.symm.trans (h.trans hb)

end AgreeOn

/-! ## Making directories -/

section Directories

variable {fs a b : Files} {p : Path}

/-- A path that ends in a dot is not made by itself. -/
theorem at?_makeDirectories_of_endsHere (htree : fs.IsTree) (hp : p.IsStraight)
    (hhere : p.endsHere = true) :
    (fs.makeDirectories p).1.at? (p.place fs.cwd) = fs.at? (p.place fs.cwd) := by
  have hmakes := makes htree hp
  rcases (makeDirectories_grows fs hp).same (p.place fs.cwd) with hsame | ⟨hnone, -⟩
  · exact hsame
  · refine hmakes.failed ?_
    have hne : p.text.isEmpty = false := by
      rw [Bool.eq_false_iff]
      intro hempty
      simp [endsHere, names_of_empty hempty] at hhere
    rw [hmakes.fault, makingFault?, hne]
    cases p.textFault? with
    | some fault => simp
    | none =>
      simp only [Option.none_or, Bool.false_eq_true, if_false, hhere, hnone]
      cases fs.hurdle? (p.origin fs.cwd) p.names with
      | none => simp
      | some fault => cases fault <;> simp

theorem agreeOn_makeDirectories (h : fs.Stands cwd) (hp : p.IsStraight)
    (hown : ∀ l, own l → l <+: p.place cwd → l = p.place cwd ∧ p.endsHere = true) :
    AgreeOn cwd way own fs (fs.makeDirectories p).1 := by
  have hgrows := makeDirectories_grows fs hp
  refine ⟨h, ⟨hgrows.cwd.trans h.cwd, hgrows.tree h.tree⟩,
    fun l _ => isFile_of_grows hgrows l, fun l hl => ?_⟩
  rw [← h.cwd] at hown
  by_cases hprefix : l <+: p.place fs.cwd
  · obtain ⟨rfl, hhere⟩ := hown l hl hprefix
    exact at?_makeDirectories_of_endsHere h.tree hp hhere
  · exact hgrows.at?_of_not fun _ hway => hprefix hway.1

/-- A directory is made in two file systems, or it is not made for the same reason. -/
structure MadeAlike (cwd : Location) (way own : Location → Prop) (l : Location)
    (result twin : Files × Option Fault) : Prop where
  fault : twin.2 = result.2
  agree : AgreeOn cwd way own result.1 twin.1
  there : result.2 = none → result.1.at? l = some .directory ∧ twin.1.at? l = some .directory

/-- What keeps a path from being made is on the way to it. -/
theorem AgreeOn.makeDirectories (h : AgreeOn cwd way own a b) (hp : p.IsStraight)
    (hway : ∀ l, l <+: p.place cwd → way l)
    (hown : ∀ l, own l → l <+: p.place cwd → l = p.place cwd ∧ p.endsHere = true)
    (hends : p.endsHere = true → p.Settled ∨ own (p.place cwd)) :
    MadeAlike cwd way own (p.place cwd) (a.makeDirectories p) (b.makeDirectories p) := by
  have hmakes := makes h.left.tree hp
  have hmakes' := makes h.right.tree hp
  have hcwd := h.left.cwd
  have hsame : b.makingFault? p = a.makingFault? p := by
    refine makingFault?_congr (h.right.cwd.trans hcwd.symm) (fun l hl => h.way l ?_) fun hhere => ?_
    · exact hway l (hcwd ▸ hl)
    · rcases hends hhere with hsettled | hown
      · have hplace (fs : Files) (hfs : fs.cwd = cwd) :
            fs.at? (p.place a.cwd) = some .directory := by
          rw [hcwd, ← hfs, place_eq, hsettled (by simpa [endsHere] using hhere), List.append_nil]
          exact at?_origin fs p
        rw [hplace b h.right.cwd, hplace a hcwd]
      · rw [hcwd, h.own _ hown]
  have hfault : (b.makeDirectories p).2 = (a.makeDirectories p).2 := by
    rw [hmakes.fault, hmakes'.fault, hsame]
  refine ⟨hfault, h.of_changes (agreeOn_makeDirectories h.left hp hown)
    (agreeOn_makeDirectories h.right hp hown), fun hnone => ⟨?_, ?_⟩⟩
  · rw [← hcwd]
    exact hmakes.done hnone
  · rw [← h.right.cwd]
    exact hmakes'.done (hfault.trans hnone)

theorem exists_makeParent_join {dir : Path} {name : String} (hdir : dir.IsStraight)
    (hname : IsName name) : ∃ q : Path, q.IsStraight ∧ q.Settled ∧
      (∀ cwd, q.place cwd = dir.place cwd) ∧
      ∀ fs : Files, fs.makeParent (dir.join name) = fs.makeDirectories q := by
  have hstraight := isStraight_join hdir hname
  rcases parents_cases (dir.join name) with hstays | ⟨q, last, hparents, hparent⟩
  · rw [names_join dir hname, descent_append, descent_cons hname.ne_here] at hstays
    simp at hstays
  · refine ⟨q, hparent.isStraight hstraight, hparent.settled, fun cwd => ?_, fun fs => ?_⟩
    · have hplace := hparent.place_eq cwd
      rw [place_join dir hname] at hplace
      exact (List.append_inj_left' hplace rfl).symm
    · rw [makeParent, parent?, hparents]
      rfl

end Directories

/-! ## Writing a file into a directory -/

section Entry

variable {fs a b : Files} {dir : Path} {name : String} {content : ByteArray}

theorem isFile_put {l m : Location} (hfree : fs.at? l ≠ some .directory) :
    (fs.put l (.file content)).isFile m = (decide (m = l) || fs.isFile m) := by
  unfold isFile
  rw [at?_put _ _ _ _ (not_isPrefixOf_cwd hfree)]
  by_cases hm : m = l <;> simp [hm]

theorem Stands.put {l : Location} (h : fs.Stands cwd) (hparent : fs.at? l = some .directory)
    (hfree : fs.at? (l ++ [name]) ≠ some .directory) :
    (fs.put (l ++ [name]) (.file content)).Stands cwd :=
  ⟨h.cwd, h.tree.put _ hparent hfree⟩

theorem agreeOn_write (h : fs.Stands cwd) (hdir : dir.IsStraight) (hname : IsName name)
    {after : Files} (hwrite : fs.write (dir.join name) content = .ok after)
    (hway : ¬ way (dir.place cwd ++ [name])) (hown : ¬ own (dir.place cwd ++ [name])) :
    AgreeOn cwd way own fs after := by
  obtain ⟨-, hparent, hfree, rfl⟩ := write_join_eq_ok hdir hname hwrite
  rw [h.cwd] at hparent hfree ⊢
  refine ⟨h, h.put hparent hfree, fun l hl => ?_, fun l hl => ?_⟩
  · rw [isFile_put hfree, decide_eq_false (by rintro rfl; exact hway hl), Bool.false_or]
  · rw [at?_put _ _ _ _ (not_isPrefixOf_cwd hfree), if_neg (by rintro rfl; exact hown hl)]

theorem foldlM_enter_of_directories (ha : a.IsTree) (hb : b.IsTree) {names : List String}
    {start : Location} (hup : ".." ∉ names) (hthere : a.at? (start ++ descent names) = some .directory)
    (hthere' : b.at? (start ++ descent names) = some .directory) :
    names.foldlM b.enter start = names.foldlM a.enter start := by
  have hdirectory {fs : Files} (htree : fs.IsTree)
      (h : fs.at? (start ++ descent names) = some .directory) {l : Location}
      (hl : l <+: start ++ descent names) : fs.at? l = some .directory := by
    obtain ⟨rest, hrest⟩ := hl
    rw [← hrest] at h
    by_cases hnil : rest = []
    · rwa [hnil, List.append_nil] at h
    · exact htree.directory_of_prefix hnil (by rw [h]; rfl)
  have hhurdle : b.hurdle? start names = a.hurdle? start names := by
    refine hurdle?_congr fun l hl => ?_
    rw [isFile, isFile, hdirectory ha hthere hl, hdirectory hb hthere' hl]
  have hstart : start <+: start ++ descent names := List.prefix_append _ _
  have hwalked := walked ha hup (hdirectory ha hthere hstart)
  have hwalked' := walked hb hup (hdirectory hb hthere' hstart)
  generalize names.foldlM a.enter start = result at hwalked
  generalize names.foldlM b.enter start = result' at hwalked'
  cases hwalked with
  | arrived there clear =>
    cases hwalked' with
    | arrived => rfl
    | missed missing => simp [hthere'] at missing
    | tooLong hurdle => simp [hhurdle, clear] at hurdle
    | blocked _ blocked => exact absurd hthere' blocked
  | missed missing => simp [hthere] at missing
  | tooLong hurdle =>
    cases hwalked' with
    | arrived _ clear => simp [hhurdle, hurdle] at clear
    | missed missing => simp [hthere'] at missing
    | tooLong => rfl
    | blocked _ blocked => exact absurd hthere' blocked
  | blocked _ blocked => exact absurd hthere blocked

theorem locate_join_congr (ha : a.Stands cwd) (hb : b.Stands cwd) (hdir : dir.IsStraight)
    (hname : IsName name) (hthere : a.at? (dir.place cwd) = some .directory)
    (hthere' : b.at? (dir.place cwd) = some .directory) :
    b.locate (dir.join name) = a.locate (dir.join name) := by
  have hwalk : dir.names.foldlM b.enter (dir.origin cwd) = dir.names.foldlM a.enter (dir.origin cwd) :=
    foldlM_enter_of_directories ha.tree hb.tree hdir hthere hthere'
  unfold locate
  rw [ha.cwd, hb.cwd, names_join dir hname, isAbsolute_join dir hname, ← origin]
  simp only [List.getLast?_concat, List.dropLast_concat, hname.ne_here, hname.ne_up, hwalk,
    decide_false, Bool.or_self, Bool.false_eq_true, if_false]

theorem AgreeOn.write (h : AgreeOn cwd way own a b) (hdir : dir.IsStraight) (hname : IsName name)
    (hthere : a.at? (dir.place cwd) = some .directory ∧ b.at? (dir.place cwd) = some .directory)
    (hown : own (dir.place cwd ++ [name]))
    (content : ByteArray) :
    (∃ fault, a.write (dir.join name) content = .error fault ∧
      b.write (dir.join name) content = .error fault) ∨
    ∃ made made', a.write (dir.join name) content = .ok made ∧
      b.write (dir.join name) content = .ok made' ∧ AgreeOn cwd way own made made' := by
  obtain ⟨hthere, hthere'⟩ := hthere
  have hplace := h.own _ hown
  have hlocate := locate_join_congr h.left h.right hdir hname hthere hthere'
  have hwritable : b.writable (dir.join name) = a.writable (dir.join name) := by
    unfold writable
    rw [hlocate]
    cases hfound : a.locate (dir.join name) with
    | error fault => rfl
    | ok target =>
      obtain ⟨-, rfl, -⟩ := locate_join_eq_ok hdir hname hfound
      simp only [h.left.cwd, hplace]
  cases hresult : a.writable (dir.join name) with
  | error fault =>
    refine .inl ⟨fault, ?_, ?_⟩
    · rw [Files.write, hresult]
      rfl
    · rw [Files.write, hwritable, hresult]
      rfl
  | ok l =>
    have hwrite : a.write (dir.join name) content = .ok (a.put l (.file content)) := by
      rw [Files.write, hresult]
      rfl
    have hwrite' : b.write (dir.join name) content = .ok (b.put l (.file content)) := by
      rw [Files.write, hwritable, hresult]
      rfl
    refine .inr ⟨_, _, hwrite, hwrite', ?_⟩
    obtain ⟨-, -, hfree, hput⟩ := write_join_eq_ok hdir hname hwrite
    obtain ⟨-, -, hfree', hput'⟩ := write_join_eq_ok hdir hname hwrite'
    rw [h.left.cwd] at hfree hput
    rw [h.right.cwd] at hfree' hput'
    rw [hput, hput']
    refine ⟨h.left.put hthere hfree, h.right.put hthere' hfree', fun m hm => ?_, fun m hm => ?_⟩
    · rw [isFile_put hfree, isFile_put hfree', h.way m hm]
    · rw [at?_put _ _ _ _ (not_isPrefixOf_cwd hfree), at?_put _ _ _ _ (not_isPrefixOf_cwd hfree'),
        h.own m hm]

end Entry

end Files

end Provision
